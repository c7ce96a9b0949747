import Courier.Alarm.Session

/-!
# The moments of an alarm

A run of an alarm is a chain of moments: a start or a disposal from outside, the beginning of a
firing, a step of its callback, the end of it. Each moment changes the alarm at one instant, and
between two moments nothing happens but that time passes.

> `Moment.deadline?_after`: a start that succeeds sets the deadline, the beginning of a firing and a
> disposal clear it, and nothing else touches it.

> `course_run`: the moments of a run follow one another as `Moment.Next` says. In particular time
> never passes a deadline, a firing begins at its deadline, and only at rest does anything come from
> outside.
-/

namespace Courier.Alarm

open Session (Request)

/-! ## Moments -/

/-- What happens to an alarm. -/
inductive Deed where
  /-- A start from outside the callback. -/
  | start (interval : Span)
  /-- A disposal from outside, while the callback does not run. -/
  | dispose
  /-- The callback begins to run. -/
  | enter
  /-- A step of the callback. -/
  | act (action : Action)
  /-- The callback has returned, or has panicked. -/
  | leave
deriving DecidableEq

/-- A deed, when it was done and the alarm before it. -/
structure Moment where
  instant : Instant
  deed : Deed
  before : Alarm

namespace Moment

/-- The alarm after the moment. -/
def after (m : Moment) : Alarm :=
  match m.deed with
  | .start interval => (m.before.start m.instant interval).toOption.getD m.before
  | .dispose => m.before.disposeAndWait
  | .enter => m.before.enter
  | .act action => (act m.instant m.before action).2
  | .leave => m.before.leave

/-- The interval of a start, from outside or from the callback. -/
def interval? (m : Moment) : Option Span :=
  match m.deed with
  | .start interval | .act (.start interval) => some interval
  | _ => none

/-- The deadline that a start sets, if it succeeds. -/
def sets? (m : Moment) : Option Instant :=
  m.interval?.bind fun interval =>
    (m.before.start m.instant interval).toOption.map fun _ => m.instant.after interval

/-- Whether the alarm is disposed. A disposal from outside the callback that the callback waits for
is one of its steps. -/
def disposes (m : Moment) : Bool :=
  match m.deed with
  | .dispose | .act .dispose | .act .awaitDisposal => true
  | _ => false

/-- Whether there is no deadline afterwards, whatever it was before. -/
def clears (m : Moment) : Bool := m.deed = .enter || m.disposes

end Moment

/-- The alarm is not running, and its deadline is still to come. -/
def AtRest (a : Alarm) (now : Instant) : Prop := a.phase ≠ .running ∧ ∀ d ∈ a.deadline?, now < d

/-- The deadline has not passed. -/
def Unpassed (a : Alarm) (now : Instant) : Prop := ∀ d ∈ a.deadline?, now ≤ d

theorem AtRest.unpassed {a : Alarm} {now : Instant} (h : a.AtRest now) : a.Unpassed now :=
  fun d hd => Nat.le_of_lt (h.2 d hd)

/-! ## What a moment does -/

/-- A start looks at the range of the clock first, and then whether the alarm is disposed. -/
theorem start_eq (a : Alarm) (now : Instant) (interval : Span) :
    a.start now interval =
      if Instant.lastSecond < (now.after interval).seconds then
        .error (.intervalOutOfRange interval)
      else if a.disposing then .error (.disposed .alarm)
      else .ok { a with
        due := some (now.after interval)
        phase := if a.phase = .idle then .armed else a.phase } := by
  rw [start, Instant.after?_eq]
  by_cases hrange : Instant.lastSecond < (now.after interval).seconds
  · simp only [if_pos hrange]
  · simp only [if_neg hrange]

/-- A start fails and changes nothing, or it sets the deadline of an alarm that is not disposed. -/
theorem started_cases (a : Alarm) (now : Instant) (interval : Span) :
    (a.start now interval).toOption.getD a = a ∨
      a.disposing = false ∧ (a.start now interval).toOption.getD a = { a with
        due := some (now.after interval)
        phase := if a.phase = .idle then .armed else a.phase } := by
  rw [start_eq]
  split
  next => exact .inl rfl
  next =>
    split
    next => exact .inl rfl
    next hlive => exact .inr ⟨Bool.eq_false_iff.2 hlive, rfl⟩

/-- What a start fails with, if the alarm is disposed. -/
def refusal (now : Instant) (interval : Span) : Failure :=
  if Instant.lastSecond < (now.after interval).seconds then .intervalOutOfRange interval
  else .disposed .alarm

/-- Starting a disposed alarm fails, and does nothing to it. -/
theorem start_of_disposing {a : Alarm} (h : a.disposing = true) (now : Instant) (interval : Span) :
    a.start now interval = .error (refusal now interval) := by
  rw [start_eq, refusal, h]
  split
  next => rfl
  next => rfl

/-- A start that succeeds sets the deadline. -/
theorem deadline?_of_start {a b : Alarm} {now : Instant} {interval : Span}
    (h : a.start now interval = .ok b) : b.deadline? = some (now.after interval) := by
  obtain ⟨-, hdisposing, hdue⟩ := start_eq_ok h
  rw [deadline?, hdisposing, hdue]
  rfl

/-- Disposing an alarm once more changes nothing. -/
theorem dispose_of_disposing {a : Alarm} (h : a.disposing = true) : a.dispose = a := if_pos h

/-- To wait for the callback as well changes nothing either, the second time. -/
theorem disposeAndWait_of_disposing {a : Alarm} (h : a.disposing = true) : a.disposeAndWait = a :=
  if_pos h

/-- The first disposal takes the deadline away, and the phase is the final one unless the callback
runs. -/
theorem dispose_of_live {a : Alarm} (h : a.disposing = false) :
    a.dispose = { a with
      due := none
      disposing := true
      phase := if a.phase = .running then .running else .disposed } := by
  rw [Alarm.dispose, h]
  rfl

/-- Who waits for the callback waits only if it runs. -/
theorem disposeAndWait_of_live {a : Alarm} (h : a.disposing = false) :
    a.disposeAndWait = { a.dispose with awaited := a.phase = .running } := by
  rw [Alarm.disposeAndWait, h]
  rfl

/-- Who waits for the callback does nothing else to the alarm than who does not. -/
theorem disposeAndWait_eq (a : Alarm) :
    a.disposeAndWait = { a.dispose with awaited := a.disposeAndWait.awaited } := by
  rcases hlive : a.disposing with _ | _
  · rw [disposeAndWait_of_live hlive]
  · rw [disposeAndWait_of_disposing hlive, dispose_of_disposing hlive]

/-- After a disposal the alarm is disposed, whatever it was before. -/
theorem disposing_disposeAndWait (a : Alarm) : a.disposeAndWait.disposing = true := by
  rw [disposeAndWait_eq]
  exact a.disposing_dispose

/-- A disposal leaves no deadline. -/
theorem deadline?_disposeAndWait (a : Alarm) : a.disposeAndWait.deadline? = none :=
  if_pos a.disposing_disposeAndWait

/-- The phase says that the callback runs as long as it does, disposed or not. -/
theorem phase_dispose_iff (a : Alarm) : a.dispose.phase = .running ↔ a.phase = .running := by
  rcases hlive : a.disposing with _ | _
  · rw [dispose_of_live hlive]
    dsimp only
    split
    next hrunning => exact ⟨fun _ => hrunning, fun _ => rfl⟩
    next hresting => exact ⟨Phase.noConfusion, fun hrunning => absurd hrunning hresting⟩
  · rw [dispose_of_disposing hlive]

/-- Who waits for the callback does not end it. -/
theorem phase_disposeAndWait_iff (a : Alarm) :
    a.disposeAndWait.phase = .running ↔ a.phase = .running := by
  rw [disposeAndWait_eq]
  exact a.phase_dispose_iff

/-- There is no deadline while a firing begins. -/
theorem deadline?_enter (a : Alarm) : a.enter.deadline? = none := ite_self none

/-- A start from the callback is a start, and one that fails leaves the alarm as it is. -/
theorem act_start (now : Instant) (a : Alarm) (interval : Span) :
    (act now a (.start interval)).2 = (a.start now interval).toOption.getD a := by
  rw [act]
  split
  next h => rw [h]; rfl
  next h => rw [h]; rfl

/-- A start that succeeds sets the deadline, the beginning of a firing and a disposal clear it, and
nothing else touches it. -/
theorem Moment.deadline?_after (m : Moment) :
    m.after.deadline? = m.sets?.or (if m.clears then none else m.before.deadline?) := by
  obtain ⟨now, deed, a⟩ := m
  have hstart (interval : Span) : ((a.start now interval).toOption.getD a).deadline? =
      ((a.start now interval).toOption.map fun _ => now.after interval).or a.deadline? := by
    rcases h : a.start now interval with e | b
    · rfl
    · exact deadline?_of_start h
  cases deed with
  | start interval => exact hstart interval
  | dispose => exact a.deadline?_disposeAndWait
  | enter => exact a.deadline?_enter
  | leave => rfl
  | act action =>
    cases action with
    | start interval =>
      show (act now a (.start interval)).2.deadline? = _
      rw [act_start]
      exact hstart interval
    | dispose => exact a.deadline?_dispose
    | awaitDisposal => exact a.deadline?_disposeAndWait
    | lookAtPhase | askThread | panic => rfl

/-- No moment sets a deadline that has passed already. -/
theorem Moment.unpassed_after (m : Moment) (h : m.before.Unpassed m.instant) :
    m.after.Unpassed m.instant := by
  intro d hd
  rw [m.deadline?_after] at hd
  rcases hsets : m.sets? with _ | e
  · rw [hsets, Option.none_or] at hd
    split at hd
    next => cases hd
    next => exact h d hd
  · rw [hsets] at hd
    cases hd
    obtain ⟨interval, -, hinterval⟩ := Option.bind_eq_some_iff.1 hsets
    obtain ⟨-, -, rfl⟩ := Option.map_eq_some_iff.1 hinterval
    exact Nat.le_add_right _ _

/-- A start does not tell a callback that it has ended, nor that it has begun. -/
theorem phase_started_iff (a : Alarm) (now : Instant) (interval : Span) :
    ((a.start now interval).toOption.getD a).phase = .running ↔ a.phase = .running := by
  rcases started_cases a now interval with h | ⟨-, h⟩
  · rw [h]
  · rw [h]
    dsimp only
    split
    next hidle => exact ⟨Phase.noConfusion, fun h => Phase.noConfusion (hidle.symm.trans h)⟩
    next => rfl

/-- No step of the callback ends it. -/
theorem phase_act (now : Instant) {a : Alarm} (h : a.phase = .running) (action : Action) :
    (act now a action).2.phase = .running := by
  cases action with
  | start interval =>
    rw [act_start]
    exact (phase_started_iff a now interval).2 h
  | dispose => exact a.phase_dispose_iff.2 h
  | awaitDisposal => exact a.phase_disposeAndWait_iff.2 h
  | lookAtPhase | askThread | panic => exact h

/-- After a callback has returned, none is running. -/
theorem phase_leave (a : Alarm) : a.leave.phase ≠ .running := by
  show (if a.disposing then Phase.disposed else if a.due.isSome then .armed else .idle) ≠ .running
  split
  next => exact Phase.noConfusion
  next => split <;> exact Phase.noConfusion

/-! ## The log -/

/-- The moments of the steps of a callback. -/
def performed (now : Instant) : List Action → Alarm → List Moment
  | [], _ => []
  | action :: rest, a =>
    ⟨now, .act action, a⟩ ::
      match act now a action with
      | (none, _) => []
      | (some _, a') => performed now rest a'

/-- The moments of a firing. -/
def firing (now : Instant) (script : List Action) (a : Alarm) : List Moment :=
  ⟨now, .enter, a⟩ ::
    (performed now script a.enter ++ [⟨now, .leave, (perform now script a.enter).2⟩])

/-- The moments of the firings at deadlines up to `limit`. -/
def firingsUntil (limit : Instant) : List (List Action) → Clock → Alarm → List Moment
  | [], clock, a =>
    match clockAtNext? limit clock a with
    | none => []
    | some clock => firing clock.monotonic [] a
  | script :: rest, clock, a =>
    match clockAtNext? limit clock a with
    | none => []
    | some clock =>
      firing clock.monotonic script a ++
        firingsUntil limit rest clock (fire clock.monotonic script a).2

namespace Session

/-- The moments of every firing up to `limit`. -/
def momentsUntil (s : Session) (limit : Instant) : List Moment :=
  match s.alarm with
  | none => []
  | some a => firingsUntil limit s.scripts s.clock a

/-- The moments of a start from outside and of what is due then. -/
def momentsOfStart (s : Session) (a : Alarm) (interval : Span) : List Moment :=
  let m : Moment := ⟨s.clock.monotonic, .start interval, a⟩
  m :: { s with alarm := some m.after }.momentsUntil s.clock.monotonic

/-- The moments of a request. An alarm that is dropped is disposed. -/
def momentsOf (s : Session) (request : Request) : List Moment :=
  match request, s.alarm with
  | .pass nanos, _ => s.momentsUntil ⟨s.clock.monotonic.nanos + nanos⟩
  | _, none => []
  | .start interval, some a => s.momentsOfStart a interval
  | .dispose, some a =>
    ⟨s.clock.monotonic, .dispose, a⟩ ::
      { s with alarm := some a.disposeAndWait }.momentsUntil s.clock.monotonic
  | .disposeDuringCallback, some a =>
    s.momentsOfStart a .zero ++
      (s.start a .zero).2.2.alarm.toList.map fun b => ⟨s.clock.monotonic, .dispose, b⟩
  | .name, some _ | .askThread, some _ => []
  | .drop, some a => [⟨s.clock.monotonic, .dispose, a⟩]

/-- Answers requests, one after the other. -/
def run (s : Session) : List Request → List (Reply × List Firing) × Session
  | [] => ([], s)
  | request :: rest =>
    let (reply, firings, s) := s.serve request
    let (answers, s) := s.run rest
    ((reply, firings) :: answers, s)

/-- The firings of a run. -/
def firings (s : Session) (requests : List Request) : List Firing :=
  (s.run requests).1.flatMap (·.2)

/-- The moments of a run. -/
def moments (s : Session) : List Request → List Moment
  | [] => []
  | request :: rest => s.momentsOf request ++ (s.serve request).2.2.moments rest

end Session

/-! ## The course of moments -/

/-- When the deed may be done. -/
def Moment.Timely (m : Moment) : Prop :=
  match m.deed with
  | .start _ | .dispose => m.before.AtRest m.instant
  | .enter => m.before.phase ≠ .running ∧ m.before.deadline? = some m.instant
  | .act _ | .leave => m.before.phase = .running

/-- The moment may be the next one for the alarm `a`, to which nothing has happened since `t`. -/
structure Moment.Next (t : Instant) (a : Alarm) (m : Moment) : Prop where
  before : m.before = a
  later : t ≤ m.instant
  /-- While the callback runs, no time passes. -/
  still : a.phase = .running → m.instant = t
  /-- Time does not pass the deadline. -/
  unpassed : a.Unpassed m.instant
  timely : m.Timely

/-- From the alarm `a` at `t`, moment by moment, to another alarm at another instant. -/
inductive Course : Instant → Alarm → List Moment → Instant → Alarm → Prop where
  | rest {t u : Instant} {a : Alarm} (later : t ≤ u) (still : a.phase = .running → u = t) :
      Course t a [] u a
  | next {t u : Instant} {a b : Alarm} {m : Moment} {log : List Moment} (next : m.Next t a)
      (course : Course m.instant m.after log u b) : Course t a (m :: log) u b

section Course

variable {t u v limit : Instant} {a b c : Alarm} {log log' : List Moment}

theorem Course.refl (t : Instant) (a : Alarm) : Course t a [] t a :=
  .rest (Nat.le_refl _) fun _ => rfl

/-- A course does not go back in time. -/
theorem Course.later (h : Course t a log u b) : t ≤ u := by
  induction h with
  | rest later => exact later
  | next next _ ih => exact Nat.le_trans next.later ih

/-- Nothing happens while time passes before the first moment. -/
theorem Course.sooner (h : Course u a log v b) (hle : t ≤ u) (hphase : a.phase ≠ .running) :
    Course t a log v b := by
  cases h with
  | rest later => exact .rest (Nat.le_trans hle later) fun hrunning => absurd hrunning hphase
  | next next course =>
    refine .next ⟨next.before, Nat.le_trans hle next.later, ?_, next.unpassed, next.timely⟩ course
    exact fun hrunning => absurd hrunning hphase

/-- Courses can be joined. -/
theorem Course.append (h : Course t a log u b) (h' : Course u b log' v c) :
    Course t a (log ++ log') v c := by
  induction h with
  | @rest t u a later still =>
    -- The time that passes at the end of the first part comes before the second part.
    by_cases hphase : a.phase = .running
    · rw [still hphase] at h'
      exact h'
    · exact h'.sooner later hphase
  | next next _ ih => exact .next next (ih h')

/-- Nothing happens while time passes after the last moment. -/
theorem Course.wait (h : Course t a log u b) (hle : u ≤ v) (hphase : b.phase ≠ .running) :
    Course t a log v b := by
  have happend := h.append (.rest hle fun hrunning => absurd hrunning hphase)
  rw [List.append_nil] at happend
  exact happend

/-- A course through two logs can be split where the first one ends. -/
theorem Course.split (h : Course t a (log ++ log') v c) :
    ∃ u b, Course t a log u b ∧ Course u b log' v c := by
  induction log generalizing t a with
  | nil => exact ⟨t, a, .refl t a, h⟩
  | cons m rest ih =>
    cases h with
    | next next course =>
      obtain ⟨u, b, hfront, hback⟩ := ih course
      exact ⟨u, b, .next next hfront, hback⟩

/-- The steps of a callback. -/
theorem course_performed {now : Instant} {a : Alarm} (hphase : a.phase = .running)
    (hunpassed : a.Unpassed now) (script : List Action) :
    Course now a (performed now script a) now (perform now script a).2 ∧
      (perform now script a).2.phase = .running ∧ (perform now script a).2.Unpassed now := by
  induction script generalizing a with
  | nil => exact ⟨.refl now a, hphase, hunpassed⟩
  | cons action rest ih =>
    have hnext : Moment.Next now a ⟨now, .act action, a⟩ :=
      ⟨rfl, Nat.le_refl _, fun _ => rfl, hunpassed, hphase⟩
    have hmoment : (⟨now, .act action, a⟩ : Moment).after = (act now a action).2 := rfl
    have hafter := Moment.unpassed_after ⟨now, .act action, a⟩ hunpassed
    have hrunning := phase_act now hphase action
    rw [performed, perform]
    rcases hact : act now a action with ⟨_ | seen, a'⟩
    · -- A panic is the last step, whatever follows in the script.
      rw [hact] at hmoment hrunning
      rw [hmoment] at hafter
      refine ⟨.next hnext ?_, hrunning, hafter⟩
      rw [hmoment]
      exact .refl now a'
    · rw [hact] at hmoment hrunning
      rw [hmoment] at hafter
      obtain ⟨hcourse, hend⟩ := ih hrunning hafter
      refine ⟨.next hnext ?_, hend⟩
      rw [hmoment]
      exact hcourse

/-- A firing, at its deadline. -/
theorem course_firing (hle : t ≤ u) (hphase : a.phase ≠ .running) (hdue : a.deadline? = some u)
    (script : List Action) :
    Course t a (firing u script a) u (fire u script a).2 ∧
      (fire u script a).2.phase ≠ .running ∧ (fire u script a).2.Unpassed u := by
  have hunpassed : a.Unpassed u := by
    intro d hd
    rw [hdue] at hd
    cases hd
    exact Nat.le_refl _
  have hunpassed' : a.enter.Unpassed u := by
    intro d hd
    rw [a.deadline?_enter] at hd
    cases hd
  have henter : Moment.Next t a ⟨u, .enter, a⟩ :=
    ⟨rfl, hle, fun hrunning => absurd hrunning hphase, hunpassed, hphase, hdue⟩
  obtain ⟨hcourse, hrunning, hend⟩ := course_performed (a := a.enter) rfl hunpassed' script
  have hleave : Moment.Next u (perform u script a.enter).2
      ⟨u, .leave, (perform u script a.enter).2⟩ :=
    ⟨rfl, Nat.le_refl _, fun _ => rfl, hend, hrunning⟩
  exact ⟨.next henter (hcourse.append (.next hleave (.refl ..))), phase_leave _, hend⟩

/-- Moving the clock forward moves it there. -/
theorem monotonic_moveTo {clock : Clock} (h : clock.monotonic ≤ t) :
    (clock.moveTo t).monotonic = t :=
  congrArg Instant.mk (Nat.add_sub_cancel' h)

/-- If the clock stays where it is, the deadline lies behind the limit. -/
theorem clockAtNext?_eq_none {clock : Clock} (h : clockAtNext? limit clock a = none) :
    ∀ d ∈ a.deadline?, limit < d := by
  intro d hd
  have hdue : a.deadline? = some d := hd
  rw [clockAtNext?, hdue] at h
  dsimp only at h
  split at h
  next => cases h
  next hlt => exact Nat.lt_of_not_le hlt

/-- Else it moves to the deadline, which lies within the limit. -/
theorem clockAtNext?_eq_some {clock clock' : Clock} (hunpassed : a.Unpassed clock.monotonic)
    (h : clockAtNext? limit clock a = some clock') :
    a.deadline? = some clock'.monotonic ∧ clock.monotonic ≤ clock'.monotonic ∧
      clock'.monotonic ≤ limit := by
  rw [clockAtNext?] at h
  split at h
  next => cases h
  next d hd =>
    split at h
    next hle =>
      cases h
      have hpassed : clock.monotonic ≤ d := hunpassed d hd
      rw [monotonic_moveTo hpassed]
      exact ⟨hd, hpassed, hle⟩
    next => cases h

/-- The firings up to `limit`, after which the alarm is at rest. -/
theorem course_firingsUntil {clock : Clock} (hphase : a.phase ≠ .running)
    (hunpassed : a.Unpassed clock.monotonic) (hlimit : clock.monotonic ≤ limit)
    (scripts : List (List Action)) (fired : Nat) {firings : List Firing}
    {left : List (List Action)} {clock' : Clock} {b : Alarm}
    (h : fireUntil limit scripts fired clock a = (firings, left, clock', b)) :
    Course clock.monotonic a (firingsUntil limit scripts clock a) clock'.monotonic b ∧
      clock'.monotonic ≤ limit ∧ b.AtRest limit := by
  induction scripts generalizing fired clock a firings with
  | nil =>
    rw [fireUntil] at h
    rw [firingsUntil]
    rcases hnext : clockAtNext? limit clock a with _ | clock₁
    · rw [hnext] at h
      cases h
      exact ⟨.refl .., hlimit, hphase, clockAtNext?_eq_none hnext⟩
    · rw [hnext] at h
      cases h
      obtain ⟨hdue, hle, hle'⟩ := clockAtNext?_eq_some hunpassed hnext
      obtain ⟨hcourse, hphase', -⟩ := course_firing hle hphase hdue []
      refine ⟨hcourse, hle', hphase', fun d hd => ?_⟩
      -- An empty callback leaves no deadline.
      have hnone : a.enter.leave.deadline? = none := a.deadline?_enter
      rw [hnone] at hd
      cases hd
  | cons script rest ih =>
    rw [fireUntil] at h
    rw [firingsUntil]
    rcases hnext : clockAtNext? limit clock a with _ | clock₁
    · rw [hnext] at h
      cases h
      exact ⟨.refl .., hlimit, hphase, clockAtNext?_eq_none hnext⟩
    · rw [hnext] at h
      obtain ⟨hdue, hle, hle'⟩ := clockAtNext?_eq_some hunpassed hnext
      obtain ⟨hcourse, hphase', hunpassed'⟩ := course_firing hle hphase hdue script
      rcases hfire : fire clock₁.monotonic script a with ⟨seen, a'⟩
      simp only [hfire] at h hcourse hphase' hunpassed' ⊢
      rcases hleft : fireUntil limit rest (fired + 1) clock₁ a' with ⟨firings', left', clock₂, b'⟩
      simp only [hleft, Prod.mk.injEq] at h
      obtain ⟨-, rfl, rfl, rfl⟩ := h
      obtain ⟨hrest, hend⟩ := ih hphase' hunpassed' hle' _ hleft
      exact ⟨hcourse.append hrest, hend⟩

end Course

/-! ## Runs -/

/-- The session drives the alarm `a`, which is at rest, or it has dropped it and `a` is disposed. -/
structure Session.Drives (s : Session) (a : Alarm) : Prop where
  alarm : s.alarm = some a ∨ s.alarm = none ∧ a.disposing = true
  rest : a.AtRest s.clock.monotonic

section Session

variable {s : Session} {a : Alarm}

/-- A session drives no other alarm than its own. -/
theorem Session.Drives.eq {b : Alarm} (h : s.Drives a) (hb : s.alarm = some b) : b = a := by
  rcases h.alarm with ha | ⟨hnone, -⟩
  · exact Option.some.inj (hb.symm.trans ha)
  · rw [hb] at hnone
    cases hnone

/-- Running what is due keeps the course, and leaves the alarm at rest. -/
theorem course_runUntil {limit : Instant} (halarm : s.alarm = some a) (hphase : a.phase ≠ .running)
    (hunpassed : a.Unpassed s.clock.monotonic) (hlimit : s.clock.monotonic ≤ limit) :
    ∃ b, (s.runUntil limit).2.alarm = some b ∧ b.AtRest limit ∧
      Course s.clock.monotonic a (s.momentsUntil limit) limit b ∧
      s.clock.monotonic ≤ (s.runUntil limit).2.clock.monotonic ∧
      (s.runUntil limit).2.clock.monotonic ≤ limit := by
  rw [Session.runUntil, Session.momentsUntil, halarm]
  rcases h : fireUntil limit s.scripts s.fired s.clock a with ⟨firings, left, clock, b⟩
  obtain ⟨hcourse, hle, hrest⟩ := course_firingsUntil hphase hunpassed hlimit _ _ h
  simp only [h]
  exact ⟨b, rfl, hrest, hcourse.wait hle hrest.1, hcourse.later, hle⟩

/-- A moment that comes from outside, and what is due then. -/
theorem course_settle {m : Moment} (hinstant : m.instant = s.clock.monotonic)
    (hrest : m.before.AtRest m.instant) (htimely : m.Timely) (hphase : m.after.phase ≠ .running) :
    ∃ b, ({ s with alarm := some m.after }.settle).2.alarm = some b ∧
      b.AtRest s.clock.monotonic ∧
      ({ s with alarm := some m.after }.settle).2.clock.monotonic = s.clock.monotonic ∧
      Course s.clock.monotonic m.before
        (m :: { s with alarm := some m.after }.momentsUntil s.clock.monotonic)
        s.clock.monotonic b := by
  have hunpassed := m.unpassed_after hrest.unpassed
  rw [hinstant] at hunpassed
  obtain ⟨b, halarm, hend, hcourse, hge, hle⟩ :=
    course_runUntil (s := { s with alarm := some m.after }) rfl hphase hunpassed (Nat.le_refl _)
  have hnext : m.Next s.clock.monotonic m.before :=
    ⟨rfl, Nat.le_of_eq (congrArg Instant.nanos hinstant.symm),
      fun hrunning => absurd hrunning hrest.1, hrest.unpassed, htimely⟩
  refine ⟨b, halarm, hend, congrArg Instant.mk (Nat.le_antisymm hle hge), .next hnext ?_⟩
  rw [hinstant]
  exact hcourse

/-- A start from outside, and then what is due. -/
theorem start_eq_settle (halarm : s.alarm = some a) (interval : Span) :
    (s.start a interval).2 =
      { s with alarm := (⟨s.clock.monotonic, .start interval, a⟩ : Moment).after }.settle := by
  rw [Session.start, Moment.after]
  dsimp only
  rcases h : a.start s.clock.monotonic interval with e | b
  · rw [show (Except.error e : Except Failure Alarm).toOption.getD a = a from rfl, ← halarm]
  · rfl

/-- A start from outside keeps the course, and leaves the alarm at rest. -/
theorem course_start (halarm : s.alarm = some a) (hrest : a.AtRest s.clock.monotonic)
    (interval : Span) :
    ∃ b, (s.start a interval).2.2.alarm = some b ∧ b.AtRest s.clock.monotonic ∧
      (s.start a interval).2.2.clock.monotonic = s.clock.monotonic ∧
      Course s.clock.monotonic a (s.momentsOfStart a interval) s.clock.monotonic b := by
  rw [start_eq_settle halarm]
  exact course_settle rfl hrest hrest (mt (phase_started_iff a _ interval).1 hrest.1)

/-- A disposal from outside leaves an alarm at rest. -/
theorem atRest_disposeAndWait {now : Instant} (hrest : a.AtRest now) :
    a.disposeAndWait.AtRest now := by
  refine ⟨mt a.phase_disposeAndWait_iff.1 hrest.1, fun d hd => ?_⟩
  rw [a.deadline?_disposeAndWait] at hd
  cases hd

/-- A disposal from outside is one moment. -/
theorem course_dispose {now : Instant} (hrest : a.AtRest now) :
    Course now a [⟨now, .dispose, a⟩] now a.disposeAndWait :=
  .next ⟨rfl, Nat.le_refl _, fun hrunning => absurd hrunning hrest.1, hrest.unpassed, hrest⟩
    (.refl ..)

/-- Without an alarm nothing fires. -/
theorem runUntil_of_none (h : s.alarm = none) (limit : Instant) : s.runUntil limit = ([], s) := by
  rw [Session.runUntil, h]

/-- Without an alarm every request but to let time pass is answered with that. -/
theorem serve_of_none (h : s.alarm = none) {request : Request}
    (hpass : ∀ nanos, request ≠ .pass nanos) : s.serve request = (.dropped, [], s) := by
  rw [Session.serve.eq_def, h]
  cases request with
  | pass nanos => exact absurd rfl (hpass nanos)
  | start | dispose | disposeDuringCallback | name | askThread | drop => rfl

/-- Without an alarm there are no moments. -/
theorem momentsOf_of_none (h : s.alarm = none) (request : Request) : s.momentsOf request = [] := by
  rw [Session.momentsOf.eq_def, h]
  cases request with
  | pass nanos =>
    dsimp only
    rw [Session.momentsUntil, h]
  | start | dispose | disposeDuringCallback | name | askThread | drop => rfl

/-- Without a deadline up to the limit nothing happens. -/
theorem runUntil_of_quiet {limit : Instant} (halarm : s.alarm = some a)
    (h : ∀ d ∈ a.deadline?, limit < d) : s.runUntil limit = ([], s) := by
  have hnone (clock : Clock) : clockAtNext? limit clock a = none := by
    rw [clockAtNext?]
    rcases hdue : a.deadline? with _ | d
    · rfl
    · have hlate : ¬ d ≤ limit := Nat.not_le_of_lt (h d hdue)
      exact if_neg hlate
  obtain ⟨alarm, clock, scripts, fired⟩ := s
  cases halarm
  rw [Session.runUntil]
  cases scripts with
  | nil =>
    dsimp only
    rw [fireUntil, hnone]
    rfl
  | cons script rest =>
    dsimp only
    rw [fireUntil, hnone]
    rfl

/-- Nothing is due once the alarm is disposed. -/
theorem runUntil_of_disposing (halarm : s.alarm = some a) (h : a.disposing = true)
    (limit : Instant) : s.runUntil limit = ([], s) := by
  apply runUntil_of_quiet halarm
  intro d hd
  rw [deadline?, if_pos h] at hd
  cases hd

/-- With a deadline up to the limit the alarm fires, and first at that deadline. -/
theorem runUntil_of_due {limit d : Instant} (halarm : s.alarm = some a)
    (hunpassed : a.Unpassed s.clock.monotonic) (hdue : a.deadline? = some d) (hle : d ≤ limit) :
    ∃ seen rest, (s.runUntil limit).1 = ⟨s.fired + 1, d, seen⟩ :: rest := by
  have hnext : clockAtNext? limit s.clock a = some (s.clock.moveTo d) := by
    rw [clockAtNext?, hdue]
    exact if_pos hle
  have hclock := monotonic_moveTo (hunpassed d hdue)
  rw [Session.runUntil, halarm]
  dsimp only
  rcases s.scripts with _ | ⟨script, rest⟩
  · rw [fireUntil, hnext]
    dsimp only
    rw [hclock]
    exact ⟨_, [], rfl⟩
  · rw [fireUntil, hnext]
    dsimp only
    rw [hclock]
    exact ⟨_, _, rfl⟩

/-- Time passes as far as it is told to, whatever fires in the meantime. -/
theorem monotonic_pass (h : s.Drives a) (nanos : Nat) :
    (s.pass nanos).2.clock.monotonic = ⟨s.clock.monotonic.nanos + nanos⟩ := by
  have hlimit : s.clock.monotonic ≤ (⟨s.clock.monotonic.nanos + nanos⟩ : Instant) :=
    Nat.le_add_right _ _
  rcases h.alarm with halarm | ⟨halarm, -⟩
  · obtain ⟨-, -, -, -, -, hle⟩ := course_runUntil halarm h.rest.1 h.rest.unpassed hlimit
    exact monotonic_moveTo hle
  · rw [Session.pass, runUntil_of_none halarm]
    exact monotonic_moveTo hlimit

/-- Letting time pass keeps the course. -/
theorem course_pass (h : s.Drives a) (nanos : Nat) :
    ∃ b, Course s.clock.monotonic a (s.momentsOf (.pass nanos)) (s.pass nanos).2.clock.monotonic b ∧
      (s.pass nanos).2.Drives b := by
  have hclock := monotonic_pass h nanos
  have hlimit : s.clock.monotonic ≤ (⟨s.clock.monotonic.nanos + nanos⟩ : Instant) :=
    Nat.le_add_right _ _
  rcases h.alarm with halarm | ⟨halarm, hdisposing⟩
  · obtain ⟨b, halarm', hend, hcourse, -, -⟩ :=
      course_runUntil halarm h.rest.1 h.rest.unpassed hlimit
    refine ⟨b, ?_, .inl halarm', ?_⟩
    · rw [hclock]
      exact hcourse
    · rw [hclock]
      exact hend
  · have halarm' : (s.pass nanos).2.alarm = none := by
      rw [Session.pass, runUntil_of_none halarm]
      exact halarm
    rw [momentsOf_of_none halarm]
    refine ⟨a, .rest ?_ fun hrunning => absurd hrunning h.rest.1, .inr ⟨halarm', hdisposing⟩,
      h.rest.1, fun d hd => ?_⟩
    · rw [hclock]
      exact hlimit
    · rw [deadline?, if_pos hdisposing] at hd
      cases hd

/-- The moments of a request follow one another, and afterwards the alarm is at rest again. -/
theorem course_serve (h : s.Drives a) (request : Request) :
    ∃ b, Course s.clock.monotonic a (s.momentsOf request)
        (s.serve request).2.2.clock.monotonic b ∧
      (s.serve request).2.2.Drives b := by
  by_cases hpass : ∃ nanos, request = .pass nanos
  · obtain ⟨nanos, rfl⟩ := hpass
    exact course_pass h nanos
  · rcases h.alarm with halarm | ⟨hnone, -⟩
    · rw [Session.momentsOf.eq_def, Session.serve.eq_def, halarm]
      cases request with
      | pass nanos => exact absurd ⟨nanos, rfl⟩ hpass
      | start interval =>
        obtain ⟨b, halarm', hend, hclock, hcourse⟩ := course_start halarm h.rest interval
        exact ⟨b, hclock.symm ▸ hcourse, .inl halarm', hclock.symm ▸ hend⟩
      | dispose =>
        obtain ⟨b, halarm', hend, hclock, hcourse⟩ :=
          course_settle (s := s) (m := ⟨s.clock.monotonic, .dispose, a⟩) rfl h.rest h.rest
            (mt a.phase_disposeAndWait_iff.1 h.rest.1)
        exact ⟨b, hclock.symm ▸ hcourse, .inl halarm', hclock.symm ▸ hend⟩
      | disposeDuringCallback =>
        -- When the callback has waited for the disposal, the one at the end does nothing.
        obtain ⟨b, halarm', hend, hclock, hcourse⟩ := course_start halarm h.rest .zero
        dsimp only
        rw [halarm']
        exact ⟨b.disposeAndWait, hclock.symm ▸ hcourse.append (course_dispose hend), .inl rfl,
          hclock.symm ▸ atRest_disposeAndWait hend⟩
      | name | askThread => exact ⟨a, .refl .., h⟩
      | drop =>
        exact ⟨a.disposeAndWait, course_dispose h.rest, .inr ⟨rfl, a.disposing_disposeAndWait⟩,
          atRest_disposeAndWait h.rest⟩
    · rw [momentsOf_of_none hnone,
        serve_of_none hnone fun nanos heq => hpass ⟨nanos, heq⟩]
      exact ⟨a, .refl .., h⟩

/-- The moments of a run follow one another. -/
theorem course_run (h : s.Drives a) (requests : List Request) :
    ∃ b, Course s.clock.monotonic a (s.moments requests)
        (s.run requests).2.clock.monotonic b ∧
      (s.run requests).2.Drives b := by
  induction requests generalizing s a with
  | nil => exact ⟨a, .refl .., h⟩
  | cons request rest ih =>
    obtain ⟨b, hcourse, hdrives⟩ := course_serve h request
    obtain ⟨c, hrest, hend⟩ := ih hdrives
    exact ⟨c, hcourse.append hrest, hend⟩

end Session

/-- A new session drives its alarm. -/
theorem drives_initial (name : String) (clock : Clock) (scripts : List (List Action)) :
    (Session.initial name clock scripts).Drives { name } :=
  ⟨.inl rfl, Phase.noConfusion, fun _ hd => nomatch hd⟩

end Courier.Alarm
