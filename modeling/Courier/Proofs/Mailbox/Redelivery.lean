import Courier.Proofs.Mailbox.Turns
import Mathlib.Data.List.TakeWhile

/-!
# Redelivery

The turns that are taken under one identifier follow one another in a fixed order: an event is
accepted when the identifier is free; it is handed out; and then it returns, not before its time is
over, to be handed out again, or it is acknowledged, which frees the identifier.

> `ordered_run`: the log of a run keeps to that order under every identifier, and the mailbox stands
> where the log ends.

> `disciplined_run`: what this means for any two deliveries of an event, and for what follows its
> acknowledgement.
-/

namespace Courier.Mailbox

variable {α : Type}

/-! ## The order of turns -/

/-- How things stand under an identifier. -/
inductive Life (α : Type) where
  /-- No event with the identifier is held. -/
  | free
  /-- The event is available. -/
  | waiting (e : Event α)
  /-- The event is in flight. -/
  | out (e : Event α) (takenAt : Instant)

/-- The turns that can be taken next. -/
inductive Life.Next (timeout : Span) : Life α → Note α → Life α → Prop where
  | accepted (t : Instant) (e : Event α) : Next timeout .free ⟨t, .accepted e⟩ (.waiting e)
  | delivered (t : Instant) (e : Event α) : Next timeout (.waiting e) ⟨t, .delivered e⟩ (.out e t)
  | returned {t u : Instant} (e : Event α) (expired : t.after timeout ≤ u) :
      Next timeout (.out e t) ⟨u, .returned e⟩ (.waiting e)
  | acknowledged (t u : Instant) (e : Event α) :
      Next timeout (.out e t) ⟨u, .acknowledged e.id⟩ .free

/-- Turns taken one after the other. -/
inductive Life.Leads (timeout : Span) : Life α → List (Note α) → Life α → Prop where
  | nil (life : Life α) : Leads timeout life [] life
  | cons {life life' life'' : Life α} {note : Note α} {notes : List (Note α)}
      (next : Next timeout life note life') (rest : Leads timeout life' notes life'') :
      Leads timeout life (note :: notes) life''

section Leads

variable {timeout : Span} {life life' life'' : Life α} {notes notes' : List (Note α)}

/-- Turns can follow turns. -/
theorem Life.Leads.append (h : Leads timeout life notes life')
    (h' : Leads timeout life' notes' life'') : Leads timeout life (notes ++ notes') life'' := by
  induction h with
  | nil => exact h'
  | cons next _ ih => exact .cons next (ih h')

/-- Turns can be told in two parts. -/
theorem Life.Leads.split (h : Leads timeout life (notes ++ notes') life'') :
    ∃ life', Leads timeout life notes life' ∧ Leads timeout life' notes' life'' := by
  induction notes generalizing life with
  | nil => exact ⟨life, .nil life, h⟩
  | cons note rest ih =>
    cases h with
    | cons next hrest =>
      obtain ⟨life', hfront, hback⟩ := ih hrest
      exact ⟨life', .cons next hfront, hback⟩

/-- From one delivery to the next there is a return and nothing else. -/
theorem Life.Leads.return_of_deliveries {t u : Instant} {e e' : Event α}
    (h : Leads timeout (.out e t) (notes ++ ⟨u, .delivered e'⟩ :: notes') life)
    (hid : ∀ note ∈ notes, note.turn.id = e.id)
    (hquiet : ∀ note ∈ notes, ¬ note.turn.accepts e.id ∧ ¬ note.turn.delivers e.id) :
    e' = e ∧ ∃ back, notes = [⟨back, .returned e⟩] ∧ t.after timeout ≤ back := by
  obtain ⟨middle, hbetween, hafter⟩ := h.split
  cases hafter with
  | cons next _ =>
  cases next with
  | delivered =>
  cases hbetween with
  | cons next rest =>
  cases next with
  | acknowledged _ u =>
    -- After an acknowledgement the event would have to be accepted again.
    cases rest with
    | cons next _ =>
    cases next with
    | accepted _ f =>
      have hf := hid _ (List.mem_cons_of_mem _ List.mem_cons_self)
      have hnot := (hquiet _ (List.mem_cons_of_mem _ List.mem_cons_self)).1
      exact absurd (decide_eq_true hf) hnot
  | returned _ expired =>
    cases rest with
    | nil => exact ⟨rfl, _, rfl, expired⟩
    | cons next _ =>
    cases next with
    | delivered =>
      have hnot := (hquiet _ (List.mem_cons_of_mem _ List.mem_cons_self)).2
      exact absurd (decide_eq_true rfl) hnot

/-- Under a free identifier nothing happens until an event is accepted. -/
theorem Life.Leads.eq_nil_of_free {id : Event.Id} (h : Leads timeout .free notes life)
    (hid : ∀ note ∈ notes, note.turn.id = id)
    (hquiet : ∀ note ∈ notes, ¬ note.turn.accepts id) : notes = [] ∧ life = .free := by
  cases h with
  | nil => exact ⟨rfl, rfl⟩
  | cons next _ =>
  cases next with
  | accepted _ e =>
    exact absurd (decide_eq_true (hid _ List.mem_cons_self)) (hquiet _ List.mem_cons_self)

end Leads

/-! ## Where an event stands -/

/-- How a mailbox stands under an identifier. -/
def Stands (settings : QueueSettings) (m : Mailbox α) (id : Event.Id) : Life α → Prop
  | .free => (∀ e ∈ m.available, e.id ≠ id) ∧ ∀ entry ∈ m.inFlight, entry.1 ≠ id
  | .waiting e => e.id = id ∧ e ∈ m.available
  | .out e t => e.id = id ∧ (id, ⟨e, t, t.after settings.ackTimeout⟩) ∈ m.inFlight

/-- The notes about one identifier. -/
def about (id : Event.Id) (log : List (Note α)) : List (Note α) := log.filter (·.turn.id = id)

theorem turn_id_of_mem_about {id : Event.Id} {log : List (Note α)} {note : Note α}
    (h : note ∈ about id log) : note.turn.id = id :=
  of_decide_eq_true (List.mem_filter.1 h).2

theorem about_append (id : Event.Id) (log log' : List (Note α)) :
    about id (log ++ log') = about id log ++ about id log' :=
  List.filter_append ..

theorem about_cons {id : Event.Id} {turn : Turn α} (h : turn.id = id) (now : Instant)
    (log : List (Note α)) : about id (⟨now, turn⟩ :: log) = ⟨now, turn⟩ :: about id log :=
  List.filter_cons_of_pos (decide_eq_true h)

theorem about_of_eq {id : Event.Id} (turn : Turn α) (h : turn.id = id) (now : Instant) :
    about id ([turn].map fun turn => ⟨now, turn⟩) = [⟨now, turn⟩] :=
  List.filter_cons_of_pos (decide_eq_true h)

theorem about_of_ne {id : Event.Id} (turn : Turn α) (h : turn.id ≠ id) (now : Instant) :
    about id ([turn].map fun turn => ⟨now, turn⟩) = [] :=
  List.filter_cons_of_neg (by simpa using h)

section Stands

variable {settings : QueueSettings} {m m' : Mailbox α} {id : Event.Id} {now : Instant}
  {life : Life α}

/-- Where the identifier is not concerned, the mailbox stands as it did. -/
theorem Stands.of_mem_iff (h : Stands settings m id life)
    (havailable : ∀ e, e.id = id → (e ∈ m'.available ↔ e ∈ m.available))
    (hinFlight : ∀ entry, entry.1 = id → (entry ∈ m'.inFlight ↔ entry ∈ m.inFlight)) :
    Stands settings m' id life := by
  cases life with
  | free =>
    obtain ⟨hnone, hnone'⟩ := h
    refine ⟨fun e he hid => ?_, fun entry hentry hid => ?_⟩
    · exact hnone e ((havailable e hid).1 he) hid
    · exact hnone' entry ((hinFlight entry hid).1 hentry) hid
  | waiting e => exact ⟨h.1, (havailable e h.1).2 h.2⟩
  | out e t => exact ⟨h.1, (hinFlight _ rfl).2 h.2⟩

/-- Under the identifier of an available event, that event waits. -/
theorem Stands.of_available (hc : Coherent m) (h : Stands settings m id life) {e : Event α}
    (he : e ∈ m.available) (hid : e.id = id) : life = .waiting e := by
  cases life with
  | free => exact absurd hid (h.1 e he)
  | waiting f =>
    have hids : f.id = e.id := h.1.trans hid.symm
    exact congrArg _ (List.inj_on_of_nodup_map hc.distinct (List.mem_append_left _ h.2)
      (List.mem_append_left _ he) hids)
  | out f t =>
    have hkey : e.id ∈ m.inFlight.map (·.1) := hid ▸ List.mem_map_of_mem h.2
    exact absurd hkey (hc.not_key_of_available he)

/-- Under a key of the records, the event recorded is out. -/
theorem Stands.of_inFlight (hc : Coherent m) (h : Stands settings m id life)
    {entry : Event.Id × InFlight α} (hentry : entry ∈ m.inFlight) (hid : entry.1 = id) :
    ∃ t, life = .out entry.2.event t ∧ entry.2.deadline = t.after settings.ackTimeout := by
  cases life with
  | free => exact absurd hid (h.2 entry hentry)
  | waiting e =>
    have hkey : e.id ∈ m.inFlight.map (·.1) := (hid.trans h.1.symm) ▸ List.mem_map_of_mem hentry
    exact absurd hkey (hc.not_key_of_available h.2)
  | out e t =>
    have hrecord := List.inj_on_of_nodup_map hc.nodup_keys h.2 hentry hid.symm
    exact ⟨t, by rw [← hrecord], by rw [← hrecord]⟩

/-! ## One turn -/

/-- No event is overdue twice. -/
theorem nodup_overdue (hc : Coherent m) (now : Instant) :
    ((m.overdue now).map Event.id).Nodup := by
  unfold overdue
  rw [List.map_map]
  refine ((List.mergeSort_perm _ _).map _).nodup_iff.2 ?_
  refine (List.filter_sublist.map _).nodup ?_
  have hkeys := hc.nodup_keys
  rw [hc.keys] at hkeys
  exact hkeys

/-- When events return, there is a note about each of them. -/
theorem about_returned (now : Instant) (id : Event.Id) (events : List (Event α)) :
    about id ((events.map .returned).map fun turn => ⟨now, turn⟩) =
      (events.filter (·.id = id)).map fun e => ⟨now, .returned e⟩ := by
  unfold about
  rw [List.map_map, List.filter_map]
  rfl

/-- When overdue events return, it is each of them once. -/
theorem leads_returned (hc : Coherent m) (h : Stands settings m id life)
    (havailable : m'.available = m.available ++ m.overdue now)
    (hinFlight : m'.inFlight = m.inFlight.filter fun entry => ! entry.2.isOverdue now) :
    ∃ life', life.Leads settings.ackTimeout
        (about id (((m.overdue now).map .returned).map fun turn => ⟨now, turn⟩)) life' ∧
      Stands settings m' id life' := by
  rw [about_returned]
  by_cases hdue : ∃ e ∈ m.overdue now, e.id = id
  · obtain ⟨e, he, rfl⟩ := hdue
    obtain ⟨entry, hentry, hover, rfl⟩ := mem_overdue.1 he
    obtain ⟨t, rfl, hdeadline⟩ := h.of_inFlight hc hentry (hc.keyed entry hentry)
    rw [hdeadline] at hover
    refine ⟨.waiting entry.2.event, ?_, rfl, ?_⟩
    · rw [filter_key_eq (nodup_overdue hc now) he]
      exact .cons (.returned _ hover) (.nil _)
    · rw [havailable]
      exact List.mem_append_right _ he
  · have hnone : (m.overdue now).filter (·.id = id) = [] :=
      List.filter_eq_nil_iff.2 fun e he hid => hdue ⟨e, he, of_decide_eq_true hid⟩
    rw [hnone]
    refine ⟨life, .nil life, h.of_mem_iff ?_ ?_⟩
    · intro e hid
      rw [havailable, List.mem_append]
      exact or_iff_left fun he => hdue ⟨e, he, hid⟩
    · intro entry hid
      rw [hinFlight, List.mem_filter]
      refine and_iff_left_of_imp fun hentry => ?_
      have hnot : ¬ entry.2.deadline ≤ now := fun hover =>
        hdue ⟨_, mem_overdue.2 ⟨entry, hentry, hover, rfl⟩, (hc.keyed entry hentry).symm.trans hid⟩
      unfold InFlight.isOverdue
      rw [decide_eq_false hnot]
      rfl

/-- Every turn is one that can be taken next. -/
theorem Turned.leads (hc : Coherent m) (hfixed : m.settings = settings)
    {turns : List (Turn α)} (hturned : Turned now m m' turns) (h : Stands settings m id life) :
    ∃ life', life.Leads settings.ackTimeout (about id (turns.map fun turn => ⟨now, turn⟩)) life' ∧
      Stands settings m' id life' := by
  cases hturned with
  | none havailable hinFlight _ =>
    refine ⟨life, .nil life, h.of_mem_iff ?_ ?_⟩
    · intro e _
      rw [havailable]
    · intro entry _
      rw [hinFlight]
  | accepted e hfree havailable hinFlight _ =>
    by_cases hid : e.id = id
    · rw [about_of_eq (.accepted e) hid]
      subst hid
      -- An event that is accepted has an identifier under which none is held.
      rw [hc.heldIds_eq, List.mem_append, not_or] at hfree
      have hlife : life = .free := by
        cases life with
        | free => rfl
        | waiting f => exact absurd (h.1 ▸ List.mem_map_of_mem h.2) hfree.1
        | out f t => exact absurd (List.mem_map_of_mem h.2) hfree.2
      subst hlife
      refine ⟨.waiting e, .cons (.accepted now e) (.nil _), rfl, ?_⟩
      rw [havailable]
      exact List.mem_append_right _ (List.mem_singleton_self e)
    · rw [about_of_ne (.accepted e) hid]
      refine ⟨life, .nil life, h.of_mem_iff ?_ ?_⟩
      · intro f hf
        rw [havailable, List.mem_append, List.mem_singleton]
        exact or_iff_left fun heq => hid (heq ▸ hf)
      · intro entry _
        rw [hinFlight]
  | delivered e out =>
    have hflight := out.inFlight_eq hc
    by_cases hid : e.id = id
    · rw [about_of_eq (.delivered e) hid]
      subst hid
      obtain rfl := h.of_available hc out.mem_available rfl
      refine ⟨.out e now, .cons (.delivered now e) (.nil _), rfl, ?_⟩
      rw [hflight, hfixed]
      exact List.mem_cons_self
    · rw [about_of_ne (.delivered e) hid]
      obtain ⟨front, back, hsplit, rfl⟩ := out
      refine ⟨life, .nil life, h.of_mem_iff ?_ ?_⟩
      · intro f hf
        rw [hsplit]
        show f ∈ front ++ back ↔ _
        rw [List.mem_append, List.mem_append, List.mem_cons]
        have hne : f ≠ e := fun heq => hid (heq ▸ hf)
        simp [hne]
      · intro entry hentry
        rw [hflight, List.mem_cons]
        exact or_iff_right fun heq => hid ((congrArg Prod.fst heq).symm.trans hentry)
  | acknowledged acked hkey havailable hinFlight _ =>
    by_cases hid : acked = id
    · rw [about_of_eq (.acknowledged acked) hid]
      subst hid
      obtain ⟨entry, hentry, hentryId⟩ := List.mem_map.1 hkey
      obtain ⟨t, rfl, -⟩ := h.of_inFlight hc hentry hentryId
      have hevent : entry.2.event.id = acked := h.1
      refine ⟨.free, ?_, ?_, ?_⟩
      · rw [← hevent]
        exact .cons (.acknowledged t now _) (.nil _)
      · rw [havailable]
        exact fun e he heq => hc.not_key_of_available he (heq ▸ hkey)
      · rw [hinFlight]
        exact fun entry hentry => of_decide_eq_true (List.mem_filter.1 hentry).2
    · rw [about_of_ne (.acknowledged acked) hid]
      refine ⟨life, .nil life, h.of_mem_iff ?_ ?_⟩
      · intro e _
        rw [havailable]
      · intro entry hentry
        rw [hinFlight, List.mem_filter]
        refine and_iff_left (decide_eq_true fun heq => hid ?_)
        exact heq.symm.trans hentry
  | returned havailable hinFlight _ => exact leads_returned hc h havailable hinFlight

end Stands

/-! ## Whole runs -/

/-- A log that keeps to the order of turns, and a mailbox that stands where it ends. -/
structure Ordered (settings : QueueSettings) (now : Instant) (log : List (Note α))
    (m : Mailbox α) : Prop where
  lives : ∀ id, ∃ life, Life.free.Leads settings.ackTimeout (about id log) life ∧
    Stands settings m id life
  sorted : log.Pairwise fun note later => note.instant ≤ later.instant
  past : ∀ note ∈ log, note.instant ≤ now
  returned : m.returned = log.countP (·.turn.isReturn)

/-- The counter of returns counts each turn that is one. -/
theorem Turned.returned_eq {now : Instant} {m m' : Mailbox α} {turns : List (Turn α)}
    (h : Turned now m m' turns) : m'.returned = m.returned + turns.countP (·.isReturn) := by
  cases h with
  | none _ _ returned => exact returned
  | accepted e _ _ _ returned => exact returned
  | delivered e out =>
    obtain ⟨front, back, -, rfl⟩ := out
    rfl
  | acknowledged id _ _ _ returned => exact returned
  | returned _ _ returned =>
    rw [returned, List.countP_map, List.countP_eq_length.2]
    exact fun _ _ => rfl

/-- Every request keeps the order of the turns. -/
theorem ordered_trail (settings : QueueSettings) :
    Trail (α := α) settings (Ordered settings) where
  later hle h := ⟨h.lives, h.sorted, fun note hnote => Nat.le_trans (h.past note hnote) hle,
    h.returned⟩
  turned {now log m m' turns} hc hfixed h hturned := by
    have hnow : ∀ note ∈ turns.map (fun turn => (⟨now, turn⟩ : Note α)), note.instant = now := by
      intro note hnote
      obtain ⟨turn, -, rfl⟩ := List.mem_map.1 hnote
      rfl
    refine ⟨?_, ?_, ?_, ?_⟩
    · intro id
      obtain ⟨life, hleads, hstands⟩ := h.lives id
      obtain ⟨life', hleads', hstands'⟩ := hturned.leads hc hfixed hstands
      refine ⟨life', ?_, hstands'⟩
      rw [about_append]
      exact hleads.append hleads'
    · refine List.pairwise_append.2 ⟨h.sorted, ?_, ?_⟩
      · refine List.pairwise_of_forall_mem_list fun note hnote later hlater => ?_
        rw [hnow note hnote, hnow later hlater]
        exact Nat.le_refl _
      · intro note hnote later hlater
        rw [hnow later hlater]
        exact h.past note hnote
    · intro note hnote
      rcases List.mem_append.1 hnote with hold | hnew
      · exact h.past note hold
      · rw [hnow note hnew]
        exact Nat.le_refl _
    · rw [hturned.returned_eq, h.returned, List.countP_append, List.countP_map]
      rfl

/-- In a new mailbox no turn has been taken. -/
theorem ordered_empty (settings : QueueSettings) (now : Instant) (loop : Option RequeueLoop) :
    Ordered settings now [] ({ settings, loop } : Mailbox α) :=
  ⟨fun _ => ⟨.free, .nil _, List.forall_mem_nil _, List.forall_mem_nil _⟩, .nil,
    List.forall_mem_nil _, rfl⟩

/-- In every run the turns keep to their order. -/
theorem ordered_run {settings : QueueSettings} {clock : Clock} {s : Session α}
    (h : Session.create settings clock = .ok s) (requests : List (Request α)) :
    Coherent (s.run requests).2.mailbox ∧
      Ordered settings (s.run requests).2.clock.monotonic (s.log requests)
        (s.run requests).2.mailbox := by
  obtain ⟨loop, rfl⟩ := eq_of_sessionCreate h
  have hc : Coherent ({ settings, loop } : Mailbox α) := coherent_empty settings loop
  exact ⟨coherent_run (s := ⟨_, clock, none⟩) hc requests,
    (ordered_trail settings).run (s := ⟨_, clock, none⟩) hc rfl
      (ordered_empty settings clock.monotonic loop) requests⟩

/-! ## The discipline -/

/-- An identifier that no event of the mailbox has, so that a post under it is not refused as long
as there is a mailbox to post to, and room. -/
structure Unused (s : Session α) (id : Event.Id) : Prop where
  available : id ∉ s.mailbox.available.map Event.id
  inFlight : id ∉ s.mailbox.inFlight.map (·.1)
  post : ∀ fresh kind data supplied, (postedProperties s.clock fresh kind supplied).id = id →
    (s.serve (.post fresh kind data supplied)).1 = .posted
      (if s.mailbox.disposed then .error (.disposed .mailbox)
        else if s.mailbox.isFull then .ok none else .ok (some id))

/-- What the log of a run tells of redelivery, and how the session stands after it. -/
structure Disciplined (settings : QueueSettings) (log : List (Note α)) (s : Session α) :
    Prop where
  /-- From one delivery of an event to the next, the only turn under its identifier is its return,
  and the time for its acknowledgement has passed. -/
  redelivered : ∀ before first between second after e e',
    log = before ++ first :: between ++ second :: after → first.turn = .delivered e →
      second.turn = .delivered e' → e'.id = e.id →
      (∀ note ∈ between, ¬ note.turn.accepts e.id ∧ ¬ note.turn.delivers e.id) →
        e' = e ∧ (∃ back, about e.id between = [back] ∧ back.turn = .returned e) ∧
          first.instant.after settings.ackTimeout ≤ second.instant
  /-- Once an event is acknowledged there are no more turns under its identifier, until another
  event is accepted under it. -/
  acknowledged : ∀ before note after id, log = before ++ note :: after →
    note.turn = .acknowledged id →
      ∀ later ∈ after.takeWhile fun later => ! later.turn.accepts id, later.turn.id ≠ id
  unused : ∀ before note after id, log = before ++ note :: after →
    note.turn = .acknowledged id → (∀ later ∈ after, ¬ later.turn.accepts id) → Unused s id
  /-- An acknowledgement is answered by whether the event is in flight, and if it is not, changes
  nothing. -/
  answer : ∀ id, ∃ answer s', s.serve (.acknowledge id) = (.acknowledged answer, s') ∧
    (answer = true ↔ id ∈ s.mailbox.inFlight.map (·.1)) ∧ (answer = false → s' = s)
  /-- What is counted as returned are the returns in the log. -/
  returned : s.mailbox.stats.returned = log.countP (·.turn.isReturn)
  count : (s.serve .returnOverdue).1 = .returned (s.notes .returnOverdue).length

/-- An identifier under which nothing is held can be used. -/
theorem unused_of_stands {settings : QueueSettings} {s : Session α} {id : Event.Id}
    (hc : Coherent s.mailbox) (h : Stands settings s.mailbox id .free) : Unused s id := by
  obtain ⟨havailable, hinFlight⟩ := h
  have havailable : id ∉ s.mailbox.available.map Event.id := by
    intro hmem
    obtain ⟨e, he, hid⟩ := List.mem_map.1 hmem
    exact havailable e he hid
  have hinFlight : id ∉ s.mailbox.inFlight.map (·.1) := by
    intro hmem
    obtain ⟨entry, hentry, hid⟩ := List.mem_map.1 hmem
    exact hinFlight entry hentry hid
  refine ⟨havailable, hinFlight, ?_⟩
  rintro fresh kind data supplied rfl
  have htracked : (postedProperties s.clock fresh kind supplied).id ∉ s.mailbox.tracked := by
    rw [hc.tracked.mem_iff, hc.heldIds_eq, List.mem_append, not_or]
    exact ⟨havailable, hinFlight⟩
  simp only [Session.serve, post, if_neg htracked]
  split
  next => rfl
  next =>
    split
    next => rfl
    next => rfl

/-- Between two deliveries of an event there is one return, after the timeout. -/
theorem Ordered.redelivered {settings : QueueSettings} {now : Instant} {m : Mailbox α}
    {before between after : List (Note α)} {t u : Instant} {e e' : Event α}
    (h : Ordered settings now
      (before ++ ⟨t, .delivered e⟩ :: between ++ ⟨u, .delivered e'⟩ :: after) m)
    (hid : e'.id = e.id)
    (hquiet : ∀ note ∈ between, ¬ note.turn.accepts e.id ∧ ¬ note.turn.delivers e.id) :
    e' = e ∧ (∃ back, about e.id between = [⟨back, .returned e⟩]) ∧
      t.after settings.ackTimeout ≤ u := by
  obtain ⟨life, hleads, -⟩ := h.lives e.id
  have hfirst : (Turn.delivered e).id = e.id := rfl
  have hsecond : (Turn.delivered e').id = e.id := hid
  rw [about_append, about_append, about_cons hfirst, about_cons hsecond,
    List.append_assoc] at hleads
  obtain ⟨life', -, hrest⟩ := hleads.split
  cases hrest with
  | cons next hrest =>
  cases next with
  | delivered =>
  obtain ⟨rfl, back, hback, hover⟩ := hrest.return_of_deliveries
    (fun note hnote => turn_id_of_mem_about hnote)
    (fun note hnote => hquiet note (List.mem_of_mem_filter hnote))
  have hmem : (⟨back, .returned e'⟩ : Note α) ∈ between :=
    List.mem_of_mem_filter (p := fun note => note.turn.id = e'.id)
      (by rw [← about, hback]; exact List.mem_cons_self)
  have hle : back ≤ u := (List.pairwise_append.1 h.sorted).2.2 _
    (List.mem_append_right _ (List.mem_cons_of_mem _ hmem)) _ List.mem_cons_self
  exact ⟨rfl, ⟨back, hback⟩, Nat.le_trans hover hle⟩

/-- After an acknowledgement the identifier is free. -/
theorem Ordered.free {settings : QueueSettings} {now : Instant} {m : Mailbox α}
    {before after : List (Note α)} {t : Instant} {id : Event.Id}
    (h : Ordered settings now (before ++ ⟨t, .acknowledged id⟩ :: after) m) :
    ∃ life, Life.free.Leads settings.ackTimeout (about id after) life ∧
      Stands settings m id life := by
  obtain ⟨life, hleads, hstands⟩ := h.lives id
  have hid : (Turn.acknowledged id : Turn α).id = id := rfl
  rw [about_append, about_cons hid] at hleads
  obtain ⟨life', -, hrest⟩ := hleads.split
  cases hrest with
  | cons next hrest =>
  cases next with
  | acknowledged => exact ⟨life, hrest, hstands⟩

/-- After any run from a new mailbox, redelivery has kept to its discipline. -/
theorem disciplined_run {settings : QueueSettings} {clock : Clock} {s : Session α}
    (h : Session.create settings clock = .ok s) (requests : List (Request α)) :
    Disciplined settings (s.log requests) (s.run requests).2 := by
  obtain ⟨hc, hordered⟩ := ordered_run h requests
  generalize s.log requests = log at hordered ⊢
  generalize (s.run requests).2 = t at hc hordered ⊢
  refine ⟨?_, ?_, ?_, ?_, hordered.returned, ?_⟩
  · rintro before ⟨_, _⟩ between ⟨_, _⟩ after e e' rfl rfl rfl hid hquiet
    obtain ⟨heq, ⟨back, hback⟩, hover⟩ := hordered.redelivered hid hquiet
    exact ⟨heq, ⟨_, hback, rfl⟩, hover⟩
  · rintro before ⟨_, _⟩ after id rfl rfl later hlater hid
    -- Up to the next acceptance no turn can be taken under the identifier.
    obtain ⟨life, hleads, -⟩ := hordered.free
    rw [← List.takeWhile_append_dropWhile (p := fun later => ! later.turn.accepts id) (l := after),
      about_append] at hleads
    obtain ⟨life', hfront, -⟩ := hleads.split
    have hnil := (hfront.eq_nil_of_free (fun note hnote => turn_id_of_mem_about hnote)
      fun note hnote => by
        simpa using List.mem_takeWhile_imp (List.mem_of_mem_filter hnote)).1
    have hmem : later ∈ about id (after.takeWhile fun later => ! later.turn.accepts id) :=
      List.mem_filter.2 ⟨hlater, decide_eq_true hid⟩
    rw [hnil] at hmem
    cases hmem
  · rintro before ⟨_, _⟩ after id rfl rfl hquiet
    obtain ⟨life, hleads, hstands⟩ := hordered.free
    obtain ⟨-, rfl⟩ := hleads.eq_nil_of_free (fun note hnote => turn_id_of_mem_about hnote)
      fun note hnote => hquiet note (List.mem_of_mem_filter hnote)
    exact unused_of_stands hc hstands
  · intro id
    rcases acknowledge_eq t.mailbox id with ⟨hkey, hack⟩ | ⟨hkey, hack⟩
    · refine ⟨false, t, ?_, by simpa using hkey, fun _ => rfl⟩
      simp only [Session.serve, hack]
    · refine ⟨true, (t.serve (.acknowledge id)).2, ?_, by simpa using hkey,
        fun h => Bool.noConfusion h⟩
      simp only [Session.serve, hack]
  · show _ = Reply.returned (returns _ _).length
    unfold returns
    rw [List.length_map, length_overdue]
    rfl

/-- An event returns in a pass, is handed out again and acknowledged, and another one is accepted
under its identifier. -/
theorem disciplined_run_brisk :
    ∃ s : Session Nat, Session.create brisk ⟨⟨5⟩, 0⟩ = .ok s ∧
      let requests := [.post (.ofNat 7) ⟨"Order"⟩ 1 none, .takeAny, .pass 1500000000, .takeAny,
        .acknowledge (.ofNat 7), .post (.ofNat 7) ⟨"Order"⟩ 2 none]
      (s.log requests).map (fun note => (note.instant.nanos, note.turn.isReturn)) =
          [(5, false), (5, false), (1400000005, true), (1500000005, false), (1500000005, false),
            (1500000005, false)] ∧
        Disciplined brisk (s.log requests) (s.run requests).2 := by
  refine ⟨_, rfl, ?_⟩
  intro requests
  exact ⟨by decide +kernel, @disciplined_run Nat brisk ⟨⟨5⟩, 0⟩ _ rfl requests⟩

end Courier.Mailbox
