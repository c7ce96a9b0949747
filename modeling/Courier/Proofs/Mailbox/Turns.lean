import Courier.Proofs.Mailbox.Passes

/-!
# The turns of events

An event takes a turn when it is accepted, handed out, returned or acknowledged. The log of a run
notes each of them with its instant: those that a request asks for, and those of the passes that
come while time passes.

> `turned_serve`, `turned_pass`: what becomes of the available events and of the records, by the
> turns that are noted.

> `Trail.run`: what every turn keeps holds after every run, of the whole log.
-/

namespace Courier.Mailbox

variable {α : Type}

/-! ## The log -/

/-- A turn in the life of an event. -/
inductive Turn (α : Type) where
  | accepted (e : Event α)
  | delivered (e : Event α)
  | returned (e : Event α)
  | acknowledged (id : Event.Id)

namespace Turn

/-- The identifier of the event. -/
def id : Turn α → Event.Id
  | accepted e | delivered e | returned e => e.id
  | acknowledged id => id

/-- Whether the event with the identifier is accepted. -/
def accepts (id : Event.Id) : Turn α → Bool
  | accepted e => e.id = id
  | _ => false

/-- Whether the event with the identifier is handed out. -/
def delivers (id : Event.Id) : Turn α → Bool
  | delivered e => e.id = id
  | _ => false

/-- Whether an event returns. -/
def isReturn : Turn α → Bool
  | returned _ => true
  | _ => false

end Turn

/-- A turn, and when it was taken. -/
structure Note (α : Type) where
  instant : Instant
  turn : Turn α

/-- The turn that a happening is, if it concerns an event of the mailbox. -/
def Happening.turn? : Happening α → Option (Turn α)
  | .accepted e => some (.accepted e)
  | .delivered e => some (.delivered e)
  | .acknowledged id => some (.acknowledged id)
  | .turnedAway | .other => none

/-- The events that are overdue, in the order in which they return. -/
def overdue (m : Mailbox α) (now : Instant) : List (Event α) :=
  ((m.inFlight.filter (InFlight.isOverdue ·.2 now)).mergeSort returnsBefore).map (·.2.event)

/-- A request to return them is answered with their number. -/
theorem length_overdue (m : Mailbox α) (now : Instant) :
    (m.overdue now).length = (m.returnOverdue now).1 := by
  unfold overdue
  rw [List.length_map, List.length_mergeSort]
  rfl

/-- An event is overdue if its record is in flight and says so. -/
theorem mem_overdue {m : Mailbox α} {now : Instant} {e : Event α} :
    e ∈ m.overdue now ↔ ∃ entry ∈ m.inFlight, entry.2.deadline ≤ now ∧ entry.2.event = e := by
  unfold overdue
  rw [List.mem_map]
  constructor
  · rintro ⟨entry, hentry, he⟩
    obtain ⟨hmem, hdue⟩ := List.mem_filter.1 (List.mem_mergeSort.1 hentry)
    exact ⟨entry, hmem, of_decide_eq_true hdue, he⟩
  · rintro ⟨entry, hmem, hdue, he⟩
    exact ⟨entry, List.mem_mergeSort.2 (List.mem_filter.2 ⟨hmem, decide_eq_true hdue⟩), he⟩

/-- The return of every event that is overdue. -/
def returns (now : Instant) (m : Mailbox α) : List (Note α) :=
  (m.overdue now).map fun e => ⟨now, .returned e⟩

/-- The turns that events take while a request is answered. -/
def Session.notes (s : Session α) (request : Request α) : List (Note α) :=
  match request with
  | .returnOverdue => returns s.clock.monotonic s.mailbox
  | .pass nanos => (s.passesIn (.pass nanos)).flatMap fun p => returns p.1 p.2
  | request =>
    (Exchange.happening ⟨s.clock, request, (s.serve request).1⟩).turn?.toList.map
      fun turn => ⟨s.clock.monotonic, turn⟩

/-- The turns that events take in a run. -/
def Session.log (s : Session α) : List (Request α) → List (Note α)
  | [] => []
  | request :: rest => s.notes request ++ (s.serve request).2.log rest

/-! ## One request -/

/-- From `m` to `m'` events have taken these turns, and the others have stayed where they were. -/
inductive Turned (now : Instant) (m m' : Mailbox α) : List (Turn α) → Prop where
  | none (available : m'.available = m.available) (inFlight : m'.inFlight = m.inFlight)
      (returned : m'.returned = m.returned) : Turned now m m' []
  | accepted (e : Event α) (free : e.id ∉ m.heldIds) (available : m'.available = m.available ++ [e])
      (inFlight : m'.inFlight = m.inFlight) (returned : m'.returned = m.returned) :
      Turned now m m' [.accepted e]
  | delivered (e : Event α) (out : HandedOut m now e m') : Turned now m m' [.delivered e]
  | acknowledged (id : Event.Id) (key : id ∈ m.inFlight.map (·.1))
      (available : m'.available = m.available)
      (inFlight : m'.inFlight = m.inFlight.filter (·.1 ≠ id))
      (returned : m'.returned = m.returned) : Turned now m m' [.acknowledged id]
  | returned (available : m'.available = m.available ++ m.overdue now)
      (inFlight : m'.inFlight = m.inFlight.filter fun entry => ! entry.2.isOverdue now)
      (returned : m'.returned = m.returned + (m.overdue now).length) :
      Turned now m m' ((m.overdue now).map .returned)

/-- A sweep takes a turn for each event that is overdue. -/
theorem turned_returnOverdue (m : Mailbox α) (now : Instant) :
    Turned now m (m.returnOverdue now).2 ((m.overdue now).map .returned) :=
  .returned rfl rfl (by rw [length_overdue]; rfl)

/-- A pass returns what is overdue, if there is a loop. -/
theorem turned_pass {m : Mailbox α} {now d : Instant} (h : m.nextPass? = some d) :
    Turned now m (m.pass now) ((m.overdue now).map .returned) := by
  unfold pass
  split
  next hl =>
    unfold nextPass? at h
    rw [hl] at h
    cases h
  next => exact .returned rfl rfl (by rw [length_overdue]; rfl)

/-- A request for a single turn notes it if it is taken. -/
theorem notes_eq (s : Session α) {request : Request α} (hsweep : request ≠ .returnOverdue)
    (hpass : ∀ nanos, request ≠ .pass nanos) :
    s.notes request =
      (Exchange.happening ⟨s.clock, request, (s.serve request).1⟩).turn?.toList.map
        fun turn => ⟨s.clock.monotonic, turn⟩ := by
  cases request with
  | returnOverdue => exact absurd rfl hsweep
  | pass nanos => exact absurd rfl (hpass nanos)
  | _ => rfl

/-- What a request at one instant notes, and what becomes of the events. -/
theorem turned_serve {s : Session α} (hc : Coherent s.mailbox) {request : Request α}
    (h : ∀ nanos, request ≠ .pass nanos) :
    ∃ turns, s.notes request = turns.map (fun turn => ⟨s.clock.monotonic, turn⟩) ∧
      Turned s.clock.monotonic s.mailbox (s.serve request).2.mailbox turns := by
  by_cases hsweep : request = .returnOverdue
  · obtain rfl := hsweep
    refine ⟨(s.mailbox.overdue s.clock.monotonic).map .returned, ?_, turned_returnOverdue ..⟩
    rw [List.map_map]
    rfl
  refine ⟨_, notes_eq s hsweep h, ?_⟩
  have hserved := served_serve s request
  generalize (s.serve request).2.mailbox = m', Exchange.happening _ = happening at hserved ⊢
  cases hserved with
  | accepted e room free mailbox =>
    obtain rfl := mailbox
    have hheld := fun hmem => free (hc.tracked.mem_iff.2 hmem)
    exact .accepted e hheld rfl rfl rfl
  | delivered e out => exact .delivered e out
  | acknowledged id key mailbox =>
    obtain rfl := mailbox
    exact .acknowledged id key rfl rfl rfl
  | swept made => exact absurd made hsweep
  | passed nanos made => exact absurd made (h nanos)
  | disposed made mailbox =>
    rw [mailbox]
    unfold dispose
    split
    next => exact .none rfl rfl rfl
    next => exact .none rfl rfl rfl
  | turnedAway mailbox =>
    obtain rfl := mailbox
    exact .none rfl rfl rfl
  | nothing mailbox =>
    obtain rfl := mailbox
    exact .none rfl rfl rfl

/-- The returns of a sweep are noted at its instant. -/
theorem returns_eq (m : Mailbox α) (now : Instant) :
    returns now m = ((m.overdue now).map .returned).map fun turn => ⟨now, turn⟩ := by
  rw [List.map_map]
  rfl

/-! ## Whole runs -/

/-- What holds of the log of a run and of the mailbox at the end of it, as every turn keeps it. -/
structure Trail (settings : QueueSettings) (P : Instant → List (Note α) → Mailbox α → Prop) :
    Prop where
  /-- Time goes on. -/
  later : ∀ {now now' : Instant} {log : List (Note α)} {m : Mailbox α}, now ≤ now' →
    P now log m → P now' log m
  turned : ∀ {now : Instant} {log : List (Note α)} {m m' : Mailbox α} {turns : List (Turn α)},
    Coherent m → m.settings = settings → P now log m → Turned now m m' turns →
      P now (log ++ turns.map fun turn => ⟨now, turn⟩) m'

section Trail

variable {settings : QueueSettings} {P : Instant → List (Note α) → Mailbox α → Prop}
  {log : List (Note α)} {s : Session α}

theorem settings_pass (m : Mailbox α) (now : Instant) : (m.pass now).settings = m.settings := by
  obtain ⟨_, h⟩ := returned_pass m now
  exact h.settings

/-- What every turn keeps is kept while time passes. -/
theorem Trail.pass (hP : Trail settings P) (hc : Coherent s.mailbox)
    (hfixed : s.mailbox.settings = settings) (h : P s.clock.monotonic log s.mailbox)
    (nanos : Nat) :
    P (s.clock.advance nanos).monotonic (log ++ s.notes (.pass nanos)) (s.pass nanos).mailbox := by
  have hle : s.clock.monotonic ≤ (s.clock.advance nanos).monotonic := Nat.le_add_right _ _
  obtain ⟨t, -, -, hrun, ht⟩ := (passes α).firings_invariant returns
    (s.clock.advance nanos).monotonic
    (P := fun now log m => Coherent m ∧ m.settings = settings ∧ P now log m ∧
      now ≤ (s.clock.advance nanos).monotonic)
    (fun {now d past m} h hdue hd => by
      obtain ⟨hc, hfixed, hP', hnow⟩ := h
      have hnanos := Instant.nanos_later now d
      have hlater : now ≤ now.later d := by
        rw [Instant.le_iff]
        omega
      have hlimit : now.later d ≤ (s.clock.advance nanos).monotonic := by
        rw [Instant.le_iff] at hd hnow ⊢
        omega
      rw [returns_eq]
      exact ⟨(rearranged_pass hc _).1, (settings_pass m _).trans hfixed,
        hP.turned hc hfixed (hP.later hlater hP') (turned_pass hdue), hlimit⟩)
    ⟨hc, hfixed, h, hle⟩
  exact hP.later ht hrun

/-- It is kept by every request. -/
theorem Trail.serve (hP : Trail settings P) (hc : Coherent s.mailbox)
    (hfixed : s.mailbox.settings = settings) (h : P s.clock.monotonic log s.mailbox)
    (request : Request α) :
    P (s.serve request).2.clock.monotonic (log ++ s.notes request)
      (s.serve request).2.mailbox := by
  by_cases hpass : ∃ nanos, request = .pass nanos
  · obtain ⟨nanos, rfl⟩ := hpass
    exact hP.pass hc hfixed h nanos
  · obtain ⟨turns, hnotes, hturned⟩ := turned_serve hc fun nanos heq => hpass ⟨nanos, heq⟩
    rw [hnotes]
    exact hP.later (monotonic_le_serve s request) (hP.turned hc hfixed h hturned)

/-- What every turn keeps holds after every run. -/
theorem Trail.run (hP : Trail settings P) (hc : Coherent s.mailbox)
    (hfixed : s.mailbox.settings = settings) (h : P s.clock.monotonic log s.mailbox)
    (requests : List (Request α)) :
    P (s.run requests).2.clock.monotonic (log ++ s.log requests)
      (s.run requests).2.mailbox := by
  induction requests generalizing log s with
  | nil =>
    rw [Session.log, List.append_nil]
    exact h
  | cons request rest ih =>
    have hrest := ih (effect_serve hc request).1
      ((motion_serve s request).settings.trans hfixed) (hP.serve hc hfixed h request)
    rw [List.append_assoc] at hrest
    rw [Session.run_cons]
    exact hrest

end Trail

end Courier.Mailbox
