import Courier.Proofs.Alarm.Moments
import Mathlib.Algebra.Ring.Nat

/-!
# A reference for the firings of an alarm

The reference keeps one pending deadline and nothing else. Its input is an agenda: the starts and
disposals from outside, each with the instant at which it comes. It knows no clock, so it cannot see
in how many steps time passes from one of them to the next.

> `Reference.fireUntil_trans`: firing up to one instant and then up to a later one is firing up to
> the later one.

> `firings_eq_reference`: the firings of a run are those of the reference.
-/

namespace Courier.Alarm

open Session (Request)

/-- One pending deadline, until the alarm is disposed. -/
inductive Reference where
  | live (pending : Option Instant)
  | disposed

/-- What comes from outside. -/
inductive Input where
  | start (interval : Span)
  | dispose

namespace Reference

/-- The deadline at which the callback runs next. -/
def pending? : Reference → Option Instant
  | live pending => pending
  | disposed => none

/-- A start overwrites the pending deadline, if the clock can show the new one. -/
def start (now : Instant) (interval : Span) : Reference → Except Failure Reference
  | live _ =>
    if Instant.lastSecond < (now.after interval).seconds then .error (.intervalOutOfRange interval)
    else .ok (live (some (now.after interval)))
  | disposed => .error (refusal now interval)

/-- Takes one step of a callback. -/
def step (now : Instant) (r : Reference) : Action → Option Observation × Reference
  | .start interval =>
    match r.start now interval with
    | .ok r' => (some (.started (.ok ())), r')
    | .error e => (some (.started (.error e)), r)
  | .dispose => (some .disposed, disposed)
  | .awaitDisposal => (some (.disposalSeen .running), disposed)
  | .lookAtPhase => (some (.phase .running), r)
  | .askThread => (some (.onAlarmThread true), r)
  | .panic => (none, r)

/-- What a callback sees, up to the first panic, and the reference after it. -/
def callback (now : Instant) : List Action → Reference → List Observation × Reference
  | [], r => ([], r)
  | action :: rest, r =>
    match r.step now action with
    | (none, r') => ([], r')
    | (some seen, r') =>
      let (later, r'') := callback now rest r'
      (seen :: later, r'')

/-- The firings at pending deadlines up to `limit`, with the scripts and the reference after them.
When a firing begins, nothing is pending. -/
def fireUntil (limit : Instant) :
    (scripts : List (List Action)) → (fired : Nat) → Reference →
      List Firing × List (List Action) × Reference
  | [], fired, r =>
    match r.pending? with
    | none => ([], [], r)
    | some d => if d ≤ limit then ([⟨fired + 1, d, []⟩], [], live none) else ([], [], r)
  | script :: rest, fired, r =>
    match r.pending? with
    | none => ([], script :: rest, r)
    | some d =>
      if d ≤ limit then
        let (seen, r) := callback d script (live none)
        let (firings, left) := fireUntil limit rest (fired + 1) r
        (⟨fired + 1, d, seen⟩ :: firings, left)
      else ([], script :: rest, r)

/-- What comes from outside. A start that fails changes nothing. -/
def accept (now : Instant) (r : Reference) : Input → Reference
  | .start interval => (r.start now interval).toOption.getD r
  | .dispose => disposed

/-- The firings up to the instant `last`. What is due when an input comes, fires before it. -/
def firings (last : Instant) :
    (agenda : List (Instant × Input)) → (scripts : List (List Action)) → (fired : Nat) →
      Reference → List Firing
  | [], scripts, fired, r => (r.fireUntil last scripts fired).1
  | (now, input) :: rest, scripts, fired, r =>
    let (earlier, scripts, r) := r.fireUntil now scripts fired
    earlier ++ firings last rest scripts (fired + earlier.length) (r.accept now input)

variable {limit : Instant} {r : Reference}

/-- A deadline is either due up to the limit, or lies behind it. -/
theorem due_or_quiet (r : Reference) (limit : Instant) :
    (∃ d, r.pending? = some d ∧ d ≤ limit) ∨ ∀ d ∈ r.pending?, limit < d := by
  by_cases hdue : ∃ d, r.pending? = some d ∧ d ≤ limit
  · exact .inl hdue
  · exact .inr fun d hd => Nat.lt_of_not_le fun hlimit => hdue ⟨d, hd, hlimit⟩

/-- With nothing due up to the limit nothing fires. -/
theorem fireUntil_of_quiet (h : ∀ d ∈ r.pending?, limit < d) (scripts : List (List Action))
    (fired : Nat) : r.fireUntil limit scripts fired = ([], scripts, r) := by
  rcases hpending : r.pending? with _ | d
  · cases scripts <;> rw [fireUntil, hpending]
  · have hlate : ¬ d ≤ limit := Nat.not_le_of_lt (h d hpending)
    cases scripts <;> rw [fireUntil, hpending] <;> exact if_neg hlate

/-- What is due fires at its deadline, and without a script the callback does nothing. -/
theorem fireUntil_nil_of_due {d : Instant} (h : r.pending? = some d) (hd : d ≤ limit)
    (fired : Nat) : r.fireUntil limit [] fired = ([⟨fired + 1, d, []⟩], [], live none) := by
  rw [fireUntil, h]
  exact if_pos hd

/-- What is due fires at its deadline and runs the next script, and then whatever is due by its
steps. -/
theorem fireUntil_cons_of_due {d : Instant} (h : r.pending? = some d) (hd : d ≤ limit)
    (script : List Action) (rest : List (List Action)) (fired : Nat) :
    r.fireUntil limit (script :: rest) fired =
      let called := (live none).callback d script
      let left := called.2.fireUntil limit rest (fired + 1)
      (⟨fired + 1, d, called.1⟩ :: left.1, left.2) := by
  rw [fireUntil, h]
  exact if_pos hd

end Reference

namespace Session

/-- The instant at which requests that are made from `now` on are answered. -/
def ending (now : Instant) : List Request → Instant
  | [] => now
  | .pass nanos :: rest => ending ⟨now.nanos + nanos⟩ rest
  | _ :: rest => ending now rest

/-- What requests that are made from `now` on bring from outside, and when. -/
def agenda (now : Instant) : List Request → List (Instant × Input)
  | [] => []
  | .pass nanos :: rest => agenda ⟨now.nanos + nanos⟩ rest
  | .start interval :: rest => (now, .start interval) :: agenda now rest
  | .dispose :: rest | .drop :: rest => (now, .dispose) :: agenda now rest
  | .disposeDuringCallback :: rest => (now, .start .zero) :: (now, .dispose) :: agenda now rest
  | .name :: rest | .askThread :: rest => agenda now rest

end Session

/-! ## What is pending in an alarm -/

/-- The alarm, as far as the reference knows it. -/
def asReference (a : Alarm) : Reference := if a.disposing then .disposed else .live a.due

section Alarm

variable {a : Alarm} {now : Instant}

theorem asReference_of_disposing (h : a.disposing = true) : a.asReference = .disposed := if_pos h

/-- What is pending in the reference is the deadline of the alarm. -/
theorem pending?_asReference (a : Alarm) : a.asReference.pending? = a.deadline? := by
  unfold asReference deadline?
  split
  next => rfl
  next => rfl

/-- Of any other alarm the deadline is known. -/
theorem asReference_of_live (h : a.disposing = false) : a.asReference = .live a.due :=
  if_neg (by rw [h]; exact Bool.noConfusion)

/-- A start has the same answer in the reference as in the alarm. -/
theorem start_asReference (a : Alarm) (now : Instant) (interval : Span) :
    a.asReference.start now interval = (a.start now interval).map asReference := by
  rcases hdisposing : a.disposing with _ | _
  · rw [asReference_of_live hdisposing, start_eq, Reference.start, hdisposing]
    by_cases hrange : Instant.lastSecond < (now.after interval).seconds
    · rw [if_pos hrange, if_pos hrange]
      rfl
    · rw [if_neg hrange, if_neg hrange]
      rfl
  · rw [asReference_of_disposing hdisposing, start_of_disposing hdisposing]
    rfl

/-- A step of the callback does to the pending deadline what the reference says. -/
theorem step_asReference (hphase : a.phase = .running) (now : Instant) (action : Action) :
    a.asReference.step now action = ((act now a action).1, (act now a action).2.asReference) := by
  cases action with
  | start interval =>
    rw [Reference.step, start_asReference, act]
    rcases a.start now interval with e | b
    · rfl
    · rfl
  | dispose => exact congrArg _ (asReference_of_disposing a.disposing_dispose).symm
  | awaitDisposal =>
    have hrunning : a.disposeAndWait.phase = .running := phase_act now hphase .awaitDisposal
    rw [act, hrunning]
    exact congrArg _ (asReference_of_disposing a.disposing_disposeAndWait).symm
  | lookAtPhase =>
    rw [act, hphase]
    rfl
  | askThread | panic => rfl

/-- A callback sees the same in the reference as in the alarm. -/
theorem callback_asReference (hphase : a.phase = .running) (now : Instant) (script : List Action) :
    a.asReference.callback now script =
      ((perform now script a).1, (perform now script a).2.asReference) := by
  induction script generalizing a with
  | nil => rfl
  | cons action rest ih =>
    have hrunning := phase_act now hphase action
    rw [Reference.callback, perform, step_asReference hphase]
    rcases hact : act now a action with ⟨_ | seen, b⟩
    · rfl
    · rw [hact] at hrunning
      simp only [ih hrunning]

/-- So does a whole firing. -/
theorem fire_asReference (hlive : a.disposing = false) (now : Instant) (script : List Action) :
    (Reference.live none).callback now script =
      ((fire now script a).1, (fire now script a).2.asReference) := by
  have henter : a.enter.asReference = .live none := asReference_of_live hlive
  rw [← henter]
  exact callback_asReference rfl now script

/-- An alarm with a deadline is not disposed. -/
theorem disposing_of_due {d : Instant} (h : a.deadline? = some d) : a.disposing = false := by
  rw [deadline?] at h
  split at h
  next => cases h
  next hlive => exact Bool.eq_false_iff.2 hlive

/-- If the alarm has nothing due up to a limit, neither has the reference. -/
theorem quiet_asReference {limit : Instant} {clock : Clock}
    (h : clockAtNext? limit clock a = none) : ∀ d ∈ a.asReference.pending?, limit < d := by
  rw [pending?_asReference]
  exact clockAtNext?_eq_none h

/-- And so do all the firings up to an instant. -/
theorem fireUntil_asReference {limit : Instant} {clock : Clock} (hphase : a.phase ≠ .running)
    (hunpassed : a.Unpassed clock.monotonic) (scripts : List (List Action)) (fired : Nat) :
    a.asReference.fireUntil limit scripts fired =
      let left := fireUntil limit scripts fired clock a
      (left.1, left.2.1, left.2.2.2.asReference) := by
  induction scripts generalizing fired clock a with
  | nil =>
    rw [fireUntil]
    rcases hnext : clockAtNext? limit clock a with _ | clock₁
    · exact Reference.fireUntil_of_quiet (quiet_asReference hnext) [] fired
    · obtain ⟨hdue, -, hlimit⟩ := clockAtNext?_eq_some hunpassed hnext
      have hlive : a.disposing = false := disposing_of_due hdue
      have hempty : a.enter.leave.asReference = .live none := asReference_of_live hlive
      rw [Reference.fireUntil_nil_of_due ((pending?_asReference a).trans hdue) hlimit, ← hempty]
      rfl
  | cons script rest ih =>
    rw [fireUntil]
    rcases hnext : clockAtNext? limit clock a with _ | clock₁
    · exact Reference.fireUntil_of_quiet (quiet_asReference hnext) (script :: rest) fired
    · obtain ⟨hdue, hle, hlimit⟩ := clockAtNext?_eq_some hunpassed hnext
      obtain ⟨-, hphase', hunpassed'⟩ := course_firing hle hphase hdue script
      have hfire := fire_asReference (disposing_of_due hdue) clock₁.monotonic script
      rw [Reference.fireUntil_cons_of_due ((pending?_asReference a).trans hdue) hlimit, hfire]
      dsimp only
      rw [ih hphase' hunpassed']

end Alarm

/-! ## The agenda -/

namespace Reference

variable {limit later : Instant}

/-- Firing up to one instant and then up to a later one is firing up to the later one. -/
theorem fireUntil_trans (hle : limit ≤ later) (scripts : List (List Action)) (fired : Nat)
    (r : Reference) :
    r.fireUntil later scripts fired =
      let left := r.fireUntil limit scripts fired
      let right := left.2.2.fireUntil later left.2.1 (fired + left.1.length)
      (left.1 ++ right.1, right.2) := by
  induction scripts generalizing fired r with
  | nil =>
    rcases r.due_or_quiet limit with ⟨d, hd, hlimit⟩ | hquiet
    · rw [fireUntil_nil_of_due hd hlimit, fireUntil_nil_of_due hd (Nat.le_trans hlimit hle)]
      rfl
    · rw [fireUntil_of_quiet hquiet]
      rfl
  | cons script rest ih =>
    -- Nothing changes before the first firing that the earlier limit shuts out.
    rcases r.due_or_quiet limit with ⟨d, hd, hlimit⟩ | hquiet
    · rw [fireUntil_cons_of_due hd hlimit, fireUntil_cons_of_due hd (Nat.le_trans hlimit hle)]
      dsimp only
      rw [ih]
      dsimp only
      rw [List.cons_append, List.length_cons, Nat.add_right_comm, Nat.add_assoc fired]
    · rw [fireUntil_of_quiet hquiet]
      rfl

/-- What is due before anything else comes, can be fired first. -/
theorem firings_settle {now last : Instant} (hlast : now ≤ last) {agenda : List (Instant × Input)}
    (hagenda : ∀ entry ∈ agenda, now ≤ entry.1) (scripts : List (List Action)) (fired : Nat)
    (r : Reference) :
    firings last agenda scripts fired r =
      let left := r.fireUntil now scripts fired
      left.1 ++ firings last agenda left.2.1 (fired + left.1.length) left.2.2 := by
  cases agenda with
  | nil =>
    rw [firings, fireUntil_trans hlast]
    rfl
  | cons entry rest =>
    have hentry := hagenda entry List.mem_cons_self
    dsimp only
    rw [firings, firings, fireUntil_trans hentry]
    simp only [List.append_assoc, List.length_append, Nat.add_assoc]

/-- If nothing is due, what comes from outside comes first. -/
theorem firings_of_quiet {now last : Instant} {r : Reference} (h : ∀ d ∈ r.pending?, now < d)
    (input : Input) (agenda : List (Instant × Input)) (scripts : List (List Action))
    (fired : Nat) :
    firings last ((now, input) :: agenda) scripts fired r =
      firings last agenda scripts fired (r.accept now input) := by
  rw [firings, fireUntil_of_quiet h]
  rfl

/-- A disposed reference does not fire any more. -/
theorem firings_disposed (last : Instant) (agenda : List (Instant × Input))
    (scripts : List (List Action)) (fired : Nat) :
    firings last agenda scripts fired disposed = [] := by
  have hquiet (limit : Instant) : ∀ d ∈ disposed.pending?, limit < d := by
    intro d hd
    cases hd
  induction agenda with
  | nil => rw [firings, fireUntil_of_quiet (hquiet last)]
  | cons entry rest ih =>
    obtain ⟨now, input⟩ := entry
    rw [firings_of_quiet (hquiet now)]
    cases input with
    | start | dispose => exact ih

end Reference

namespace Session

/-- Requests do not take time back. -/
theorem le_ending (now : Instant) (requests : List Request) : now ≤ ending now requests := by
  induction requests generalizing now with
  | nil => exact Nat.le_refl _
  | cons request rest ih =>
    cases request with
    | pass nanos =>
      have hrest : (⟨now.nanos + nanos⟩ : Instant) ≤ ending ⟨now.nanos + nanos⟩ rest := ih _
      exact Nat.le_trans (Nat.le_add_right _ _) hrest
    | start | dispose | disposeDuringCallback | name | askThread | drop => exact ih now

/-- Nothing comes from outside before the first request. -/
theorem le_of_mem_agenda {now : Instant} {requests : List Request} {entry : Instant × Input}
    (h : entry ∈ agenda now requests) : now ≤ entry.1 := by
  induction requests generalizing now with
  | nil => cases h
  | cons request rest ih =>
    cases request with
    | pass nanos =>
      have hrest : (⟨now.nanos + nanos⟩ : Instant) ≤ entry.1 := ih h
      exact Nat.le_trans (Nat.le_add_right _ _) hrest
    | name | askThread => exact ih h
    | start | dispose | drop =>
      rcases List.mem_cons.1 h with rfl | h
      · exact Nat.le_refl _
      · exact ih h
    | disposeDuringCallback =>
      rcases List.mem_cons.1 h with rfl | h
      · exact Nat.le_refl _
      · rcases List.mem_cons.1 h with rfl | h
        · exact Nat.le_refl _
        · exact ih h

/-- The session, as far as the reference knows it. -/
def asReference (s : Session) : Reference :=
  match s.alarm with
  | none => .disposed
  | some a => a.asReference

/-- The firings of the reference for requests that are still to be answered. -/
def foreseen (s : Session) (requests : List Request) : List Firing :=
  Reference.firings (ending s.clock.monotonic requests) (agenda s.clock.monotonic requests)
    s.scripts s.fired s.asReference

end Session

section Session

variable {s : Session} {a : Alarm}

/-- The reference of a session is that of its alarm. -/
theorem asReference_of_alarm (h : s.alarm = some a) : s.asReference = a.asReference := by
  rw [Session.asReference, h]

theorem asReference_of_none (h : s.alarm = none) : s.asReference = .disposed := by
  rw [Session.asReference, h]

/-- Nothing is due in the reference of a session that drives an alarm at rest. -/
theorem quiet_of_drives (h : s.Drives a) : ∀ d ∈ s.asReference.pending?, s.clock.monotonic < d := by
  intro d hd
  rcases h.alarm with halarm | ⟨halarm, -⟩
  · rw [asReference_of_alarm halarm, pending?_asReference] at hd
    exact h.rest.2 d hd
  · rw [asReference_of_none halarm] at hd
    cases hd

/-- Running an alarm up to a limit brings the firings of the reference. -/
theorem fireUntil_of_runUntil (halarm : s.alarm = some a) (hphase : a.phase ≠ .running)
    (hunpassed : a.Unpassed s.clock.monotonic) (limit : Instant) :
    a.asReference.fireUntil limit s.scripts s.fired =
        ((s.runUntil limit).1, (s.runUntil limit).2.scripts, (s.runUntil limit).2.asReference) ∧
      (s.runUntil limit).2.fired = s.fired + (s.runUntil limit).1.length := by
  rw [fireUntil_asReference hphase hunpassed, Session.runUntil, halarm]
  exact ⟨rfl, rfl⟩

/-- The firings that are due come first, as the session runs them. -/
theorem firings_runUntil {now last : Instant} (halarm : s.alarm = some a)
    (hphase : a.phase ≠ .running) (hunpassed : a.Unpassed s.clock.monotonic) (hlast : now ≤ last)
    {agenda : List (Instant × Input)} (hagenda : ∀ entry ∈ agenda, now ≤ entry.1) :
    Reference.firings last agenda s.scripts s.fired a.asReference =
      (s.runUntil now).1 ++ Reference.firings last agenda (s.runUntil now).2.scripts
        (s.runUntil now).2.fired (s.runUntil now).2.asReference := by
  obtain ⟨hfireUntil, hfired⟩ := fireUntil_of_runUntil halarm hphase hunpassed now
  rw [Reference.firings_settle hlast hagenda, hfireUntil, hfired]

/-- A start from outside does the same to the reference as to the alarm. -/
theorem accept_start_asReference (a : Alarm) (now : Instant) (interval : Span) :
    a.asReference.accept now (.start interval) =
      (⟨now, .start interval, a⟩ : Moment).after.asReference := by
  rw [Reference.accept, start_asReference, Moment.after]
  dsimp only
  rcases a.start now interval with e | b
  · rfl
  · rfl

/-- A start and what it makes due are the first input of an agenda. -/
theorem firings_start {last : Instant} (h : s.Drives a) (halarm : s.alarm = some a)
    (interval : Span) (hlast : s.clock.monotonic ≤ last) {agenda : List (Instant × Input)}
    (hagenda : ∀ entry ∈ agenda, s.clock.monotonic ≤ entry.1) :
    Reference.firings last ((s.clock.monotonic, .start interval) :: agenda) s.scripts s.fired
        s.asReference =
      (s.start a interval).2.1 ++ Reference.firings last agenda (s.start a interval).2.2.scripts
        (s.start a interval).2.2.fired (s.start a interval).2.2.asReference := by
  have hquiet := quiet_of_drives h
  rw [asReference_of_alarm halarm] at hquiet ⊢
  rw [Reference.firings_of_quiet hquiet, accept_start_asReference, start_eq_settle halarm]
  have hunpassed := Moment.unpassed_after ⟨s.clock.monotonic, .start interval, a⟩ h.rest.unpassed
  exact firings_runUntil (s := { s with alarm := some _ }) rfl
    (mt (phase_started_iff a _ interval).1 h.rest.1) hunpassed hlast hagenda

/-- The reference foresees nothing of a disposed alarm. -/
theorem foreseen_of_disposed (h : s.asReference = .disposed) (requests : List Request) :
    s.foreseen requests = [] := by
  rw [Session.foreseen, h]
  exact Reference.firings_disposed ..

/-- It foresees what fires while time passes, and then the rest. -/
theorem foreseen_pass (h : s.Drives a) (nanos : Nat) (rest : List Request) :
    s.foreseen (.pass nanos :: rest) = (s.pass nanos).1 ++ (s.pass nanos).2.foreseen rest := by
  have hclock := monotonic_pass h nanos
  rw [Session.foreseen, Session.foreseen, hclock]
  rcases h.alarm with halarm | ⟨halarm, -⟩
  · rw [asReference_of_alarm halarm]
    exact firings_runUntil halarm h.rest.1 h.rest.unpassed (Session.le_ending _ rest)
      fun _ hentry => Session.le_of_mem_agenda hentry
  · rw [Session.pass, runUntil_of_none halarm]
    rfl

/-- The reference foresees what the session does with a request. -/
theorem foreseen_cons (h : s.Drives a) (request : Request) (rest : List Request) :
    s.foreseen (request :: rest) =
      (s.serve request).2.1 ++ (s.serve request).2.2.foreseen rest := by
  have hlast := Session.le_ending s.clock.monotonic rest
  have hagenda (entry : Instant × Input) (hentry : entry ∈ Session.agenda s.clock.monotonic rest) :=
    Session.le_of_mem_agenda hentry
  -- A disposal: nothing is due before it, and nothing fires after it.
  have hdispose {t : Session} {b : Alarm} (ht : t.Drives b)
      (hclock : t.clock.monotonic = s.clock.monotonic) :
      Reference.firings (Session.ending s.clock.monotonic rest)
        ((s.clock.monotonic, .dispose) :: Session.agenda s.clock.monotonic rest) t.scripts t.fired
        t.asReference = [] := by
    have hquiet := quiet_of_drives ht
    rw [hclock] at hquiet
    rw [Reference.firings_of_quiet hquiet]
    exact Reference.firings_disposed ..
  by_cases hpass : ∃ nanos, request = .pass nanos
  · obtain ⟨nanos, rfl⟩ := hpass
    exact foreseen_pass h nanos rest
  · rcases h.alarm with halarm | ⟨halarm, -⟩
    · rw [Session.serve.eq_def, halarm]
      cases request with
      | pass nanos => exact absurd ⟨nanos, rfl⟩ hpass
      | start interval =>
        obtain ⟨b, -, -, hclock, -⟩ := course_start halarm h.rest interval
        dsimp only
        rw [Session.foreseen, Session.foreseen, hclock]
        exact firings_start h halarm interval hlast hagenda
      | dispose =>
        have hsettle := runUntil_of_disposing (s := { s with alarm := some a.disposeAndWait }) rfl
          a.disposing_disposeAndWait s.clock.monotonic
        have hrest := foreseen_of_disposed (s := { s with alarm := some a.disposeAndWait })
          (asReference_of_disposing a.disposing_disposeAndWait) rest
        dsimp only
        rw [Session.settle, hsettle, hrest]
        exact hdispose h rfl
      | disposeDuringCallback =>
        obtain ⟨b, halarm', hend, hclock, -⟩ := course_start halarm h.rest .zero
        have hdrives : (s.start a .zero).2.2.Drives b := ⟨.inl halarm', hclock.symm ▸ hend⟩
        have hrest := foreseen_of_disposed
          (s := { (s.start a .zero).2.2 with alarm := some b.disposeAndWait })
          (asReference_of_disposing b.disposing_disposeAndWait) rest
        have hstart := firings_start h halarm .zero hlast
          (List.forall_mem_cons (a := (s.clock.monotonic, .dispose)).2 ⟨Nat.le_refl _, hagenda⟩)
        rw [hdispose hdrives hclock] at hstart
        dsimp only
        rw [halarm', Option.map_some, hrest]
        exact hstart
      | name | askThread => rfl
      | drop =>
        have hrest := foreseen_of_disposed (s := { s with alarm := none }) rfl rest
        dsimp only
        rw [hrest]
        exact hdispose h rfl
    · have hdisposed := asReference_of_none halarm
      rw [serve_of_none halarm fun nanos heq => hpass ⟨nanos, heq⟩,
        foreseen_of_disposed hdisposed, foreseen_of_disposed hdisposed]
      rfl

/-- The reference foresees the firings of a run. -/
theorem firings_eq_foreseen (h : s.Drives a) (requests : List Request) :
    s.firings requests = s.foreseen requests := by
  induction requests generalizing s a with
  | nil =>
    have hquiet := Reference.fireUntil_of_quiet (quiet_of_drives h) s.scripts s.fired
    show [] = (s.asReference.fireUntil s.clock.monotonic s.scripts s.fired).1
    rw [hquiet]
  | cons request rest ih =>
    obtain ⟨b, -, hdrives⟩ := course_serve h request
    have hrest := ih hdrives
    rw [foreseen_cons h, ← hrest]
    rfl

end Session

/-- The firings of a run are those of the reference. -/
theorem firings_initial (name : String) (clock : Clock) (scripts : List (List Action))
    (requests : List Request) :
    (Session.initial name clock scripts).firings requests =
      Reference.firings (Session.ending clock.monotonic requests)
        (Session.agenda clock.monotonic requests) scripts 0 (.live none) :=
  firings_eq_foreseen (drives_initial name clock scripts) requests

/-! ## Time in several steps -/

namespace Session

/-- Requests can be answered in two parts, one beginning where the other ends. -/
theorem ending_append (now : Instant) (requests requests' : List Request) :
    ending now (requests ++ requests') = ending (ending now requests) requests' := by
  induction requests generalizing now with
  | nil => rfl
  | cons request rest ih =>
    cases request with
    | pass nanos => exact ih _
    | start | dispose | disposeDuringCallback | name | askThread | drop => exact ih now

/-- What comes from outside can be told in two parts as well. -/
theorem agenda_append (now : Instant) (requests requests' : List Request) :
    agenda now (requests ++ requests') =
      agenda now requests ++ agenda (ending now requests) requests' := by
  induction requests generalizing now with
  | nil => rfl
  | cons request rest ih =>
    cases request with
    | pass nanos => exact ih _
    | start | dispose | drop => exact congrArg (List.cons _) (ih now)
    | disposeDuringCallback => exact congrArg (fun entries => _ :: _ :: entries) (ih now)
    | name | askThread => exact ih now

/-- Time that passes in parts is their sum. -/
theorem ending_passes (now : Instant) (parts : List Nat) :
    ending now (parts.map .pass) = ⟨now.nanos + parts.sum⟩ := by
  induction parts generalizing now with
  | nil => rfl
  | cons nanos rest ih =>
    rw [List.sum_cons, ← Nat.add_assoc]
    exact ih _

/-- Nothing comes from outside while time passes. -/
theorem agenda_passes (now : Instant) (parts : List Nat) : agenda now (parts.map .pass) = [] := by
  induction parts generalizing now with
  | nil => rfl
  | cons nanos rest ih => exact ih _

end Session

/-- It does not matter in how many steps time passes. -/
theorem firings_split (name : String) (clock : Clock) (scripts : List (List Action))
    (earlier later : List Request) (parts : List Nat) :
    (Session.initial name clock scripts).firings (earlier ++ (parts.map .pass ++ later)) =
      (Session.initial name clock scripts).firings (earlier ++ .pass parts.sum :: later) := by
  have hending (now : Instant) : Session.ending now (parts.map .pass ++ later) =
      Session.ending now (.pass parts.sum :: later) := by
    rw [Session.ending_append, Session.ending_passes]
    rfl
  have hagenda (now : Instant) : Session.agenda now (parts.map .pass ++ later) =
      Session.agenda now (.pass parts.sum :: later) := by
    rw [Session.agenda_append, Session.agenda_passes, Session.ending_passes]
    rfl
  rw [firings_initial, firings_initial, Session.ending_append _ earlier,
    Session.ending_append _ earlier, Session.agenda_append _ earlier,
    Session.agenda_append _ earlier, hending, hagenda]

end Courier.Alarm
