import Courier.Proofs.Mailbox.Conservation

/-!
# The records of events in flight

An event that is handed out is put on record with the instant and with its deadline. It stays there
until it is acknowledged or returns, and the record is not touched meanwhile: the next event that is
handed out has another identifier.

> `motion_serve`: how events move between the two places of a mailbox in one request.

> `wellKept_run`: after any run the available events and the records have pairwise different
> identifiers, which are those tracked, and each record is that of the latest delivery.
-/

namespace Courier.Mailbox

variable {α : Type}

/-! ## Motions -/

/-- From `m` to `m'` the events `back` have returned, and nothing else has moved. -/
structure Returned (m m' : Mailbox α) (back : List (Event α)) : Prop where
  settings : m'.settings = m.settings
  available : m'.available = m.available ++ back
  inFlight : m'.inFlight ⊆ m.inFlight
  source : back ⊆ m.inFlight.map (·.2.event)
  returned : m'.returned = m.returned + back.length

/-- Where nothing changes, nothing has returned. -/
theorem Returned.nothing {m m' : Mailbox α} (hsettings : m'.settings = m.settings)
    (havailable : m'.available = m.available) (hinFlight : m'.inFlight = m.inFlight)
    (hreturned : m'.returned = m.returned) : Returned m m' [] where
  settings := hsettings
  available := havailable.trans (List.append_nil _).symm
  inFlight := hinFlight ▸ List.Subset.refl _
  source := List.nil_subset _
  returned := hreturned

/-- What returns at first and what returns then have returned together. -/
theorem Returned.trans {m m' m'' : Mailbox α} {back back' : List (Event α)}
    (h : Returned m m' back) (h' : Returned m' m'' back') : Returned m m'' (back ++ back') where
  settings := h'.settings.trans h.settings
  available := by rw [h'.available, h.available, List.append_assoc]
  inFlight := List.Subset.trans h'.inFlight h.inFlight
  source := by
    refine List.append_subset.2 ⟨h.source, ?_⟩
    exact List.Subset.trans h'.source (List.map_subset _ h.inFlight)
  returned := by rw [h'.returned, h.returned, List.length_append, Nat.add_assoc]

/-- A sweep moves events by returns only. -/
theorem returned_returnOverdue (m : Mailbox α) (now : Instant) :
    ∃ back, Returned m (m.returnOverdue now).2 back := by
  refine ⟨_, rfl, rfl, List.filter_sublist.subset, ?_, ?_⟩
  · refine List.map_subset _ ?_
    intro entry hentry
    exact List.mem_of_mem_filter (List.mem_mergeSort.1 hentry)
  · show m.returned + _ = m.returned + _
    rw [List.length_map, List.length_mergeSort]

theorem returned_pass (m : Mailbox α) (now : Instant) : ∃ back, Returned m (m.pass now) back := by
  unfold pass
  split
  next => exact ⟨[], .nothing rfl rfl rfl rfl⟩
  next =>
    obtain ⟨back, h⟩ := returned_returnOverdue m now
    exact ⟨back, h.settings, h.available, h.inFlight, h.source, h.returned⟩

theorem returned_passes (m : Mailbox α) (limit now : Instant) :
    ∃ back, Returned m ((passes α).runUntil limit now m) back := by
  have hstart : ∃ back, Returned m m back := ⟨[], .nothing rfl rfl rfl rfl⟩
  obtain ⟨_, hrun⟩ := (passes α).runUntil_invariant
    (P := fun _ m' => ∃ back, Returned m m' back)
    (fun {now d m'} h _ _ => by
      obtain ⟨back, h⟩ := h
      obtain ⟨back', h'⟩ := returned_pass m' (now.later d)
      exact ⟨back ++ back', h.trans h'⟩)
    hstart
  exact hrun

/-- How events move in one request, by what happens. -/
inductive Motion (now : Instant) (m m' : Mailbox α) : Happening α → Prop where
  | accepted (e : Event α) (room : m.isFull = false) (free : e.id ∉ m.tracked)
      (settings : m'.settings = m.settings) (available : m'.available = m.available ++ [e])
      (inFlight : m'.inFlight = m.inFlight) (returned : m'.returned = m.returned) :
      Motion now m m' (.accepted e)
  | turnedAway (settings : m'.settings = m.settings) (available : m'.available = m.available)
      (inFlight : m'.inFlight = m.inFlight) (returned : m'.returned = m.returned) :
      Motion now m m' .turnedAway
  | delivered (e : Event α) (out : HandedOut m now e m') : Motion now m m' (.delivered e)
  | acknowledged (id : Event.Id) (settings : m'.settings = m.settings)
      (available : m'.available = m.available) (inFlight : m'.inFlight ⊆ m.inFlight)
      (returned : m'.returned = m.returned) : Motion now m m' (.acknowledged id)
  | returned (back : List (Event α)) (back_eq : Returned m m' back) : Motion now m m' .other

/-- What a request does moves events. -/
theorem Served.motion {s : Session α} {request : Request α} {m' : Mailbox α} {h : Happening α}
    (hserved : Served s request m' h) : Motion s.clock.monotonic s.mailbox m' h := by
  cases hserved with
  | accepted e room free mailbox =>
    obtain rfl := mailbox
    exact .accepted e room free rfl rfl rfl rfl
  | turnedAway mailbox =>
    obtain rfl := mailbox
    exact .turnedAway rfl rfl rfl rfl
  | delivered e out => exact .delivered e out
  | acknowledged id key mailbox =>
    obtain rfl := mailbox
    exact .acknowledged id rfl rfl List.filter_sublist.subset rfl
  | swept made mailbox =>
    obtain ⟨back, h⟩ := returned_returnOverdue s.mailbox s.clock.monotonic
    exact .returned back (mailbox ▸ h)
  | disposed made mailbox =>
    refine .returned [] ?_
    rw [mailbox]
    unfold dispose
    split
    next => exact .nothing rfl rfl rfl rfl
    next => exact .nothing rfl rfl rfl rfl
  | passed nanos made mailbox =>
    obtain ⟨back, h⟩ :=
      returned_passes s.mailbox (s.clock.advance nanos).monotonic s.clock.monotonic
    exact .returned back (mailbox ▸ h)
  | nothing mailbox =>
    obtain rfl := mailbox
    exact .returned [] (.nothing rfl rfl rfl rfl)

/-- Every request moves events as its answer says. -/
theorem motion_serve (s : Session α) (request : Request α) :
    Motion s.clock.monotonic s.mailbox (s.serve request).2.mailbox
      (Exchange.happening ⟨s.clock, request, (s.serve request).1⟩) :=
  (served_serve s request).motion

/-- No request changes the settings. -/
theorem Motion.settings {now : Instant} {m m' : Mailbox α} {h : Happening α}
    (hmotion : Motion now m m' h) : m'.settings = m.settings := by
  cases hmotion with
  | accepted _ _ _ settings => exact settings
  | turnedAway settings => exact settings
  | delivered e out =>
    obtain ⟨front, back, -, rfl⟩ := out
    rfl
  | acknowledged _ settings => exact settings
  | returned back h => exact h.settings

/-! ## The latest exchanges -/

/-- Whether the event with the identifier is handed out. -/
def Happening.delivers (id : Event.Id) : Happening α → Bool
  | .delivered e => e.id = id
  | _ => false

/-- The latest exchange of a history in which something has happened. -/
def latest? (p : Happening α → Bool) (history : List (Exchange α)) : Option (Exchange α) :=
  history.reverse.find? fun x => p x.happening

/-- The latest exchange is that at the end, if something has happened in it. -/
theorem latest?_concat (p : Happening α → Bool) (past : List (Exchange α)) (x : Exchange α) :
    latest? p (past ++ [x]) = if p x.happening then some x else latest? p past := by
  unfold latest?
  rw [List.reverse_append, List.reverse_singleton, List.singleton_append, List.find?_cons]
  cases p x.happening <;> rfl

/-! ## Records -/

/-- A record is that of the latest delivery of its event. -/
structure Recorded (settings : QueueSettings) (history : List (Exchange α))
    (entry : Event.Id × InFlight α) : Prop where
  deadline : entry.2.deadline = entry.2.takenAt.after settings.ackTimeout
  latest : ∃ x, latest? (Happening.delivers entry.1) history = some x ∧
    x.happening = .delivered entry.2.event ∧ x.clock.monotonic = entry.2.takenAt

/-- Another event is not concerned. -/
theorem Recorded.concat {settings : QueueSettings} {past : List (Exchange α)}
    {entry : Event.Id × InFlight α} (h : Recorded settings past entry) {x : Exchange α}
    (hx : x.happening.delivers entry.1 = false) : Recorded settings (past ++ [x]) entry := by
  obtain ⟨hdeadline, y, hlatest, hy⟩ := h
  refine ⟨hdeadline, y, ?_, hy⟩
  rw [latest?_concat, hx, if_neg Bool.false_ne_true]
  exact hlatest

/-- A mailbox whose records are those of a history. -/
structure OnRecord (settings : QueueSettings) (past : List (Exchange α)) (m : Mailbox α) :
    Prop where
  coherent : Coherent m
  fixed : m.settings = settings
  records : ∀ entry ∈ m.inFlight, Recorded settings past entry

section OnRecord

variable {settings : QueueSettings} {past : List (Exchange α)} {s : Session α}

/-- A request keeps the records up with its exchange. -/
theorem OnRecord.serve (h : OnRecord settings past s.mailbox) (request : Request α) :
    OnRecord settings (past ++ [⟨s.clock, request, (s.serve request).1⟩])
      (s.serve request).2.mailbox := by
  obtain ⟨hcoherent, -⟩ := effect_serve h.coherent request
  have hmotion := motion_serve s request
  refine ⟨hcoherent, hmotion.settings.trans h.fixed, ?_⟩
  -- What is no delivery leaves the records that stay as they are.
  have hkept (hsub : (s.serve request).2.mailbox.inFlight ⊆ s.mailbox.inFlight)
      (hquiet : ∀ id, Happening.delivers id
        (Exchange.happening ⟨s.clock, request, (s.serve request).1⟩) = false) :
      ∀ entry ∈ (s.serve request).2.mailbox.inFlight,
        Recorded settings (past ++ [⟨s.clock, request, (s.serve request).1⟩]) entry := by
    intro entry hentry
    exact (h.records entry (hsub hentry)).concat (hquiet entry.1)
  generalize hx : Exchange.happening ⟨s.clock, request, (s.serve request).1⟩ = happening at hmotion
  rw [hx] at hkept
  cases hmotion with
  | accepted e _ _ _ _ inFlight =>
    refine hkept ?_ fun _ => rfl
    rw [inFlight]
    exact List.Subset.refl _
  | turnedAway _ _ inFlight =>
    refine hkept ?_ fun _ => rfl
    rw [inFlight]
    exact List.Subset.refl _
  | acknowledged _ _ _ inFlight => exact hkept inFlight fun _ => rfl
  | returned back hreturned => exact hkept hreturned.inFlight fun _ => rfl
  | delivered e out =>
    rw [out.inFlight_eq h.coherent, h.fixed]
    intro entry hentry
    rcases List.mem_cons.1 hentry with rfl | hentry
    · refine ⟨rfl, _, ?_, hx, rfl⟩
      rw [latest?_concat, hx]
      simp [Happening.delivers]
    · refine (h.records entry hentry).concat ?_
      rw [hx]
      refine decide_eq_false fun hid => ?_
      refine h.coherent.not_key_of_available out.mem_available ?_
      rw [hid]
      exact List.mem_map_of_mem hentry

/-- So does a run. -/
theorem OnRecord.run (h : OnRecord settings past s.mailbox) (requests : List (Request α)) :
    OnRecord settings (past ++ (s.run requests).1) (s.run requests).2.mailbox := by
  induction requests generalizing past s with
  | nil =>
    rw [Session.run, List.append_nil]
    exact h
  | cons request rest ih =>
    have hrest := ih (h.serve request)
    rw [List.append_assoc] at hrest
    rw [Session.run_cons]
    exact hrest

/-- A new mailbox has no records. -/
theorem onRecord_create {clock : Clock} (h : Session.create settings clock = .ok s) :
    OnRecord settings [] s.mailbox := by
  obtain ⟨loop, rfl⟩ := eq_of_sessionCreate h
  exact ⟨coherent_empty settings loop, rfl, List.forall_mem_nil _⟩

end OnRecord

/-- A session whose mailbox keeps its books. -/
structure WellKept (settings : QueueSettings) (history : List (Exchange α)) (s : Session α) :
    Prop where
  available : (s.mailbox.available.map Event.id).Nodup
  apart : (s.mailbox.available.map Event.id).Disjoint (s.mailbox.inFlight.map (·.1))
  keys : (s.mailbox.inFlight.map (·.1)).Nodup
  keyed : ∀ entry ∈ s.mailbox.inFlight, entry.1 = entry.2.event.id
  tracked : s.mailbox.tracked.Nodup ∧ ∀ id, id ∈ s.mailbox.tracked ↔
    id ∈ s.mailbox.available.map Event.id ∨ id ∈ s.mailbox.inFlight.map (·.1)
  records : ∀ entry ∈ s.mailbox.inFlight, Recorded settings history entry
  /-- Whatever request hands an event out next, its record is added to the others. -/
  next : ∀ request e,
    Exchange.happening ⟨s.clock, request, (s.serve request).1⟩ = .delivered e →
      e.id ∉ s.mailbox.inFlight.map (·.1) ∧
        (s.serve request).2.mailbox.inFlight =
          (e.id, ⟨e, s.clock.monotonic, s.clock.monotonic.after settings.ackTimeout⟩) ::
            s.mailbox.inFlight

/-- After any run from a new mailbox its books are kept. -/
theorem wellKept_run {settings : QueueSettings} {clock : Clock} {s : Session α}
    (h : Session.create settings clock = .ok s) (requests : List (Request α)) :
    WellKept settings (s.run requests).1 (s.run requests).2 := by
  obtain ⟨hcoherent, hfixed, hrecords⟩ := (onRecord_create h).run requests
  rw [List.nil_append] at hrecords
  generalize (s.run requests).1 = history at hrecords ⊢
  generalize (s.run requests).2 = t at hcoherent hfixed hrecords ⊢
  have hnodup := hcoherent.distinct
  have htracked := hcoherent.tracked
  rw [hcoherent.heldIds_eq] at hnodup htracked
  refine ⟨hnodup.of_append_left, List.disjoint_of_nodup_append hnodup, hcoherent.nodup_keys,
    hcoherent.keyed, ⟨htracked.nodup_iff.2 hnodup, ?_⟩, hrecords, ?_⟩
  · intro id
    rw [htracked.mem_iff, List.mem_append]
  · intro request e hdelivered
    have hmotion := motion_serve t request
    rw [hdelivered] at hmotion
    cases hmotion with
    | delivered _ out =>
      rw [out.inFlight_eq hcoherent, hfixed]
      exact ⟨hcoherent.not_key_of_available out.mem_available, rfl⟩

/-- Two events are in flight; the first one has returned once, so that its record is the later
one. -/
theorem wellKept_run_returned :
    ∃ (s : Session Nat) (r : List (Exchange Nat) × Session Nat),
      Session.create { ackTimeoutMs := 1000 } ⟨⟨0⟩, 0⟩ = .ok s ∧
        s.run [.post (.ofNat 7) ⟨"Order"⟩ 1 none, .takeAny, .pass 1000000000, .returnOverdue,
          .post (.ofNat 8) ⟨"Order"⟩ 2 none, .takeAny, .pass 5, .take ⟨"Order"⟩] = r ∧
        r.2.mailbox.inFlight.map (fun entry => (entry.1, entry.2.takenAt, entry.2.deadline)) =
          [(.ofNat 8, ⟨1000000005⟩, ⟨2000000005⟩), (.ofNat 7, ⟨1000000000⟩, ⟨2000000000⟩)] ∧
        WellKept { ackTimeoutMs := 1000 } r.1 r.2 := by
  refine ⟨_, _, rfl, rfl, ?_, @wellKept_run Nat { ackTimeoutMs := 1000 } ⟨⟨0⟩, 0⟩ _ rfl _⟩
  decide +kernel

end Courier.Mailbox
