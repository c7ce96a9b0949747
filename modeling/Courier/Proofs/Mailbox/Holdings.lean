import Courier.Mailbox.Session
import Courier.Proofs.Runs
import Mathlib.Data.List.Nodup

/-!
# What a mailbox holds

A mailbox holds the events that are available and those that are in flight. Posting adds one
event and an acknowledgement takes one away; everything else moves events between the two places
and neither loses nor doubles one.

> `Coherent`: the events held have pairwise different identifiers, an event in flight is kept
> under its own identifier, and the identifiers tracked are exactly those of the events held.

Every operation keeps a mailbox coherent, and says what becomes of the events held up to their
order: `HandedOut.rearranged`, `Coherent.acknowledge`, `rearranged_returnOverdue`.
-/

namespace Courier.Mailbox

variable {α : Type}

/-- The events that are available or in flight. -/
def held (m : Mailbox α) : List (Event α) := m.available ++ m.inFlight.map (·.2.event)

/-- The identifiers of the events held. -/
def heldIds (m : Mailbox α) : List Event.Id := m.held.map Event.id

/-- A mailbox whose books agree with what it holds. -/
structure Coherent (m : Mailbox α) : Prop where
  /-- No two events held have one identifier. -/
  distinct : m.heldIds.Nodup
  /-- An event in flight is kept under its own identifier. -/
  keyed : ∀ entry ∈ m.inFlight, entry.1 = entry.2.event.id
  /-- The identifiers tracked are those of the events held. -/
  tracked : m.tracked.Perm m.heldIds

namespace Coherent

/-- The keys of the events in flight are their identifiers. -/
theorem keys {m : Mailbox α} (h : Coherent m) :
    m.inFlight.map (·.1) = m.inFlight.map (·.2.event.id) :=
  List.map_congr_left h.keyed

/-- The identifiers of the available events, and then the keys of those in flight. -/
theorem heldIds_eq {m : Mailbox α} (h : Coherent m) :
    m.heldIds = m.available.map Event.id ++ m.inFlight.map (·.1) := by
  rw [h.keys, heldIds, held, List.map_append, List.map_map]
  rfl

/-- What only moves events between the two places keeps a mailbox coherent. -/
theorem of_perm {m m' : Mailbox α} (h : Coherent m) (hheld : m'.held.Perm m.held)
    (hkeyed : ∀ entry ∈ m'.inFlight, entry.1 = entry.2.event.id)
    (htracked : m'.tracked = m.tracked) : Coherent m' where
  distinct := (hheld.map Event.id).nodup_iff.2 h.distinct
  keyed := hkeyed
  tracked := htracked ▸ h.tracked.trans (hheld.map Event.id).symm

theorem not_key_of_available {m : Mailbox α} (h : Coherent m) {e : Event α}
    (he : e ∈ m.available) : e.id ∉ m.inFlight.map (·.1) := by
  have hnodup := h.distinct
  rw [h.heldIds_eq] at hnodup
  intro hkey
  exact List.disjoint_of_nodup_append hnodup (List.mem_map_of_mem he) hkey

theorem nodup_keys {m : Mailbox α} (h : Coherent m) : (m.inFlight.map (·.1)).Nodup := by
  have hnodup := h.distinct
  rw [h.heldIds_eq] at hnodup
  exact hnodup.of_append_right

end Coherent

/-- A new mailbox has its settings and is otherwise empty, but for the requeue loop. -/
theorem eq_of_create {settings : QueueSettings} {now : Instant} {m : Mailbox α}
    (h : create settings now = .ok m) : ∃ loop, m = { settings, loop } := by
  unfold create at h
  split at h
  · cases h
  · split at h
    · cases h; exact ⟨_, rfl⟩
    · cases h; exact ⟨_, rfl⟩

theorem coherent_empty (settings : QueueSettings) (loop : Option RequeueLoop) :
    Coherent ({ settings, loop } : Mailbox α) :=
  ⟨List.nodup_nil, nofun, .refl _⟩

/-- `m'` holds the events of `m`, perhaps in other places, and counts the same posts and
acknowledgements. -/
structure Rearranged (m m' : Mailbox α) : Prop where
  held : m'.held.Perm m.held
  accepted : m'.accepted = m.accepted
  dropped : m'.dropped = m.dropped
  acknowledged : m'.acknowledged = m.acknowledged

namespace Rearranged

theorem refl (m : Mailbox α) : Rearranged m m := ⟨.refl _, rfl, rfl, rfl⟩

theorem trans {m m' m'' : Mailbox α} (h : Rearranged m m') (h' : Rearranged m' m'') :
    Rearranged m m'' :=
  ⟨h'.held.trans h.held, h'.accepted.trans h.accepted, h'.dropped.trans h.dropped,
    h'.acknowledged.trans h.acknowledged⟩

end Rearranged

/-! ## Posting -/

/-- The event that a post hands in. -/
def posted (clock : Clock) (fresh : Event.Id) (kind : Event.Kind) (data : α)
    (supplied : Option Event.Properties) : Event α :=
  { properties := postedProperties clock fresh kind supplied, kind, data }

/-- A post that is accepted appends an event with an identifier that was free. -/
theorem post_accepted {m m' : Mailbox α} {clock : Clock} {fresh : Event.Id} {kind : Event.Kind}
    {data : α} {supplied : Option Event.Properties} {id : Event.Id}
    (h : m.post clock fresh kind data supplied = (.ok (some id), m')) :
    (posted clock fresh kind data supplied).id ∉ m.tracked ∧
      m' = { m with
        available := m.available ++ [posted clock fresh kind data supplied]
        tracked := (posted clock fresh kind data supplied).id :: m.tracked
        accepted := m.accepted + 1 } := by
  unfold post at h
  split at h
  · cases h
  · dsimp only at h
    split at h
    · cases h
    · next htracked =>
      split at h
      · cases h
      · cases h
        exact ⟨htracked, rfl⟩

/-- A post that is turned away is only counted. -/
theorem post_turnedAway {m m' : Mailbox α} {clock : Clock} {fresh : Event.Id} {kind : Event.Kind}
    {data : α} {supplied : Option Event.Properties}
    (h : m.post clock fresh kind data supplied = (.ok none, m')) :
    m' = { m with dropped := m.dropped + 1 } := by
  unfold post at h
  split at h
  · cases h
  · dsimp only at h
    split at h
    · cases h
    · split at h <;> cases h
      rfl

/-- A post that fails changes nothing. -/
theorem post_refused {m m' : Mailbox α} {clock : Clock} {fresh : Event.Id} {kind : Event.Kind}
    {data : α} {supplied : Option Event.Properties} {e : Failure}
    (h : m.post clock fresh kind data supplied = (.error e, m')) : m' = m := by
  unfold post at h
  split at h
  · cases h; rfl
  · dsimp only at h
    split at h
    · cases h; rfl
    · split at h <;> cases h

/-- A mailbox with one more available event holds that event besides the others. -/
theorem held_append (m : Mailbox α) (e : Event α) (tracked : List Event.Id) (accepted : Nat) :
    held { m with available := m.available ++ [e], tracked, accepted } |>.Perm (e :: m.held) := by
  simp only [held, List.append_assoc, List.singleton_append]
  exact List.perm_middle

/-- Accepting an event with a free identifier keeps a mailbox coherent. -/
theorem Coherent.append {m : Mailbox α} (h : Coherent m) {e : Event α} (he : e.id ∉ m.tracked)
    (accepted : Nat) :
    Coherent { m with
      available := m.available ++ [e]
      tracked := e.id :: m.tracked
      accepted } := by
  have hids := (held_append m e (e.id :: m.tracked) accepted).map Event.id
  refine ⟨?_, h.keyed, ?_⟩
  · rw [heldIds, hids.nodup_iff, List.map_cons, List.nodup_cons]
    exact ⟨fun hmem => he (h.tracked.mem_iff.2 hmem), h.distinct⟩
  · exact (h.tracked.cons e.id).trans hids.symm

/-! ## Handing out -/

/-- `m'` is `m` after the available event `e` has been put in flight at `now`. -/
def HandedOut (m : Mailbox α) (now : Instant) (e : Event α) (m' : Mailbox α) : Prop :=
  ∃ front back, m.available = front ++ e :: back ∧
    m' = { m with available := front ++ back }.track e now

/-- Taking the oldest event hands it out, unless there is none. -/
theorem takeAny_cases (m : Mailbox α) (now : Instant) :
    (m.available = [] ∧ m.takeAny now = (none, m)) ∨
      ∃ e m', m.takeAny now = (some e, m') ∧ HandedOut m now e m' := by
  unfold takeAny
  split
  · next h => exact .inl ⟨h, rfl⟩
  · next e rest h => exact .inr ⟨e, _, rfl, [], rest, h, rfl⟩

/-- Taking the oldest event of a kind hands it out, unless there is none. -/
theorem take_cases (m : Mailbox α) (kind : Event.Kind) (now : Instant) :
    ((∀ e ∈ m.available, e.kind ≠ kind) ∧ m.take kind now = (none, m)) ∨
      ∃ (e : Event.OfKind α kind) (m' : Mailbox α),
        m.take kind now = (some e, m') ∧ HandedOut m now e.1 m' := by
  unfold take
  split
  · next h =>
    refine .inl ⟨fun e he => ?_, rfl⟩
    simpa using List.find?_eq_none.1 h e he
  · next e h =>
    obtain ⟨hkind, front, back, hsplit, hfront⟩ := List.find?_eq_some_iff_append.1 h
    have hof : e.ofKind? kind = some ⟨e, by simpa using hkind⟩ :=
      dif_pos (by simpa using hkind)
    have herase : m.available.eraseP (·.kind = kind) = front ++ back := by
      rw [hsplit, List.eraseP_append_right _ (by simpa using hfront),
        List.eraseP_cons_of_pos (by simpa using hkind)]
    rw [hof]
    dsimp only
    rw [herase]
    exact .inr ⟨_, _, rfl, front, back, hsplit, rfl⟩

/-- A poll that brings an event hands it out, and any other poll leaves the mailbox as it is. -/
theorem poll_cases (s : Stream) (m : Mailbox α) (now : Instant) :
    (s.poll m now).2.2 = m ∧ (∀ e, (s.poll m now).1 ≠ .event e) ∨
      ∃ e, (s.poll m now).1 = .event e ∧ HandedOut m now e (s.poll m now).2.2 := by
  unfold Stream.poll
  split
  · exact .inl ⟨rfl, nofun⟩
  · split
    · exact .inl ⟨rfl, nofun⟩
    · rcases takeAny_cases m now with ⟨_, h⟩ | ⟨e, m', h, hout⟩
      · rw [h]; exact .inl ⟨rfl, nofun⟩
      · rw [h]; exact .inr ⟨e, rfl, hout⟩

section HandOut

variable {m m' : Mailbox α} {now : Instant} {e : Event α}

theorem HandedOut.mem_available (h : HandedOut m now e m') : e ∈ m.available := by
  obtain ⟨front, back, hsplit, -⟩ := h
  rw [hsplit]
  exact List.mem_append_right _ (List.mem_cons_self ..)

theorem HandedOut.mem_held (h : HandedOut m now e m') : e ∈ m.held :=
  List.mem_append_left _ h.mem_available

/-- An event that is not in flight joins those in flight, and no other record is lost. -/
theorem HandedOut.inFlight_eq (hc : Coherent m) (h : HandedOut m now e m') :
    m'.inFlight = (e.id, ⟨e, now, now.after m.settings.ackTimeout⟩) :: m.inFlight := by
  have hkey := hc.not_key_of_available h.mem_available
  obtain ⟨front, back, -, rfl⟩ := h
  refine congrArg _ (List.filter_eq_self.2 fun entry hentry => ?_)
  refine decide_eq_true fun hid => hkey ?_
  rw [← hid]
  exact List.mem_map_of_mem hentry

/-- Handing out an event moves it from one place to the other. -/
theorem HandedOut.rearranged (hc : Coherent m) (h : HandedOut m now e m') :
    Rearranged m m' := by
  have hflight := h.inFlight_eq hc
  obtain ⟨front, back, hsplit, rfl⟩ := h
  refine ⟨?_, rfl, rfl, rfl⟩
  rw [held, hflight, held, hsplit]
  change ((front ++ back) ++ e :: m.inFlight.map (·.2.event)).Perm _
  rw [List.append_assoc, List.append_assoc, List.cons_append]
  exact (List.perm_middle.append_left front).trans (.refl _)

theorem Coherent.handOut (hc : Coherent m) (h : HandedOut m now e m') : Coherent m' := by
  refine hc.of_perm (h.rearranged hc).held ?_ ?_
  · rw [h.inFlight_eq hc]
    intro entry hentry
    rcases List.mem_cons.1 hentry with rfl | hold
    · rfl
    · exact hc.keyed entry hold
  · obtain ⟨front, back, -, rfl⟩ := h
    rfl

end HandOut

/-! ## Acknowledging -/

/-- An acknowledgement is accepted if the event is in flight, which it is not any more then. -/
theorem acknowledge_eq (m : Mailbox α) (id : Event.Id) :
    (id ∉ m.inFlight.map (·.1) ∧ m.acknowledge id = (false, m)) ∨
      (id ∈ m.inFlight.map (·.1) ∧ m.acknowledge id = (true, { m with
        inFlight := m.inFlight.filter (·.1 ≠ id)
        tracked := m.tracked.erase id
        acknowledged := m.acknowledged + 1 })) := by
  unfold acknowledge
  split
  next h =>
    refine .inl ⟨?_, rfl⟩
    intro hmem
    obtain ⟨entry, hentry, rfl⟩ := List.mem_map.1 hmem
    simpa using List.lookup_eq_none_iff.1 h entry hentry
  next f h =>
    obtain ⟨front, back, hsplit, -⟩ := List.lookup_eq_some_iff.1 h
    refine .inr ⟨?_, rfl⟩
    rw [hsplit]
    simp

/-- With one record for each key, those under other keys are all but one. -/
theorem Coherent.filter_key {m : Mailbox α} (hc : Coherent m) {entry : Event.Id × InFlight α}
    {front back : List (Event.Id × InFlight α)} (hsplit : m.inFlight = front ++ entry :: back) :
    m.inFlight.filter (·.1 ≠ entry.1) = front ++ back := by
  have hnodup := hc.nodup_keys
  rw [hsplit, List.map_append, List.map_cons, List.nodup_middle, List.nodup_cons,
    ← List.map_append] at hnodup
  rw [hsplit, List.filter_append, List.filter_cons_of_neg (by simp), ← List.filter_append]
  refine List.filter_eq_self.2 ?_
  intro other hother
  exact decide_eq_true fun heq => hnodup.1 (List.mem_map.2 ⟨other, hother, heq⟩)

/-- Acknowledging takes one of the events held away and frees its identifier. -/
theorem Coherent.acknowledge {m : Mailbox α} (hc : Coherent m) {id : Event.Id}
    (hkey : id ∈ m.inFlight.map (·.1)) {m' : Mailbox α}
    (hmailbox : m' = { m with
      inFlight := m.inFlight.filter (·.1 ≠ id)
      tracked := m.tracked.erase id
      acknowledged := m.acknowledged + 1 }) :
    Coherent m' ∧ ∃ e, e.id = id ∧ m.held.Perm (e :: m'.held) := by
  obtain ⟨entry, hentry, rfl⟩ := List.mem_map.1 hkey
  have hid : entry.2.event.id = entry.1 := (hc.keyed entry hentry).symm
  obtain ⟨front, back, hsplit⟩ := List.append_of_mem hentry
  rw [hc.filter_key hsplit] at hmailbox
  obtain rfl := hmailbox
  have hheld : m.held.Perm
      (entry.2.event :: (m.available ++ (front ++ back).map (·.2.event))) := by
    rw [held, hsplit, List.map_append, List.map_append, List.map_cons, ← List.append_assoc,
      ← List.append_assoc]
    exact List.perm_middle
  refine ⟨⟨?_, ?_, ?_⟩, entry.2.event, hid, hheld⟩
  · exact (List.nodup_cons.1 ((hheld.map Event.id).nodup_iff.1 hc.distinct)).2
  · intro other hother
    refine hc.keyed other ?_
    rw [hsplit]
    rcases List.mem_append.1 hother with hl | hr
    · exact List.mem_append_left _ hl
    · exact List.mem_append_right _ (List.mem_cons_of_mem _ hr)
  · have hrest := (hc.tracked.trans (hheld.map Event.id)).erase entry.1
    rw [List.map_cons, hid, List.erase_cons_head] at hrest
    exact hrest

/-! ## Returning -/

/-- Returning overdue events moves them from one place to the other. -/
theorem rearranged_returnOverdue (m : Mailbox α) (now : Instant) :
    Rearranged m (m.returnOverdue now).2 := by
  let overdue := m.inFlight.filter (InFlight.isOverdue ·.2 now)
  let kept := m.inFlight.filter (fun entry => ! InFlight.isOverdue entry.2 now)
  have hsort : ((overdue.mergeSort returnsBefore).map (·.2.event)).Perm
      (overdue.map (·.2.event)) := (List.mergeSort_perm ..).map _
  have hparts : (overdue.map (·.2.event) ++ kept.map (·.2.event)).Perm
      (m.inFlight.map (·.2.event)) := by
    rw [← List.map_append]
    exact (List.filter_append_perm ..).map _
  refine ⟨?_, rfl, rfl, rfl⟩
  change ((m.available ++ (overdue.mergeSort returnsBefore).map (·.2.event)) ++
    kept.map (·.2.event)).Perm _
  rw [List.append_assoc]
  exact ((hsort.append_right _).trans hparts).append_left _

theorem Coherent.returnOverdue {m : Mailbox α} (h : Coherent m) (now : Instant) :
    Coherent (m.returnOverdue now).2 :=
  h.of_perm (rearranged_returnOverdue m now).held
    (fun entry hentry => h.keyed entry (List.mem_of_mem_filter hentry)) rfl

/-- A pass of the requeue loop moves overdue events, if there is a loop. -/
theorem rearranged_pass {m : Mailbox α} (h : Coherent m) (now : Instant) :
    Coherent (m.pass now) ∧ Rearranged m (m.pass now) := by
  unfold pass
  split
  · exact ⟨h, .refl m⟩
  · have hreturn := rearranged_returnOverdue m now
    have hcoherent := h.returnOverdue now
    exact ⟨⟨hcoherent.distinct, hcoherent.keyed, hcoherent.tracked⟩,
      ⟨hreturn.held, hreturn.accepted, hreturn.dropped, hreturn.acknowledged⟩⟩

/-- So do all passes that are due while time moves on. -/
theorem rearranged_passes {m : Mailbox α} (h : Coherent m) (limit now : Instant) :
    Coherent ((passes α).runUntil limit now m) ∧
      Rearranged m ((passes α).runUntil limit now m) := by
  have hstart : Coherent m ∧ Rearranged m m := ⟨h, .refl m⟩
  obtain ⟨_, hrun⟩ := (passes α).runUntil_invariant
    (P := fun _ m' => Coherent m' ∧ Rearranged m m')
    (fun hm' _ _ => ⟨(rearranged_pass hm'.1 _).1, hm'.2.trans (rearranged_pass hm'.1 _).2⟩)
    hstart
  exact hrun

/-- Disposing a mailbox leaves the events where they are. -/
theorem rearranged_dispose {m : Mailbox α} (h : Coherent m) :
    Coherent m.dispose ∧ Rearranged m m.dispose := by
  unfold dispose
  split
  · exact ⟨h, .refl m⟩
  · exact ⟨⟨h.distinct, h.keyed, h.tracked⟩, ⟨.refl _, rfl, rfl, rfl⟩⟩

end Courier.Mailbox
