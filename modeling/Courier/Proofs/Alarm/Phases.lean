import Courier.Proofs.Alarm.Disposal

/-!
# What the phase of an alarm tells

The phase, the deadline and the mark of disposal are set by different deeds: a start, the two kinds
of disposal, the beginning and the end of a callback. They fit together all the same. While no
callback runs, the mark and the deadline alone decide the phase; while one runs, the phase is
`running`, and nothing but its end changes that.

> `Apt.after`: every moment keeps that agreement, a panic as well.

> `Course.executing`: the phase is `running` exactly between the beginning of a callback and its
> end.

> `consistent_run`: what this means at every point of a run.
-/

namespace Courier.Alarm

open Session (Request)

/-! ## The agreement -/

/-- The phase of an alarm whose callback does not run, by the mark of disposal and the deadline. -/
def restPhase (a : Alarm) : Phase :=
  if a.disposing then .disposed else if a.due.isSome then .armed else .idle

/-- A sound alarm whose phase tells the truth while no callback runs. -/
structure Apt (a : Alarm) : Prop extends a.Sound where
  rest : a.phase ≠ .running → a.phase = a.restPhase

section Alarm

variable {a : Alarm}

/-- An alarm that is not disposed is armed or idle, as it has a deadline or none. -/
theorem restPhase_of_live (h : a.disposing = false) :
    a.restPhase = if a.due.isSome then .armed else .idle := by
  rw [restPhase, h]
  rfl

theorem restPhase_eq_disposed_iff : a.restPhase = .disposed ↔ a.disposing = true := by
  rw [restPhase]
  cases a.disposing <;> cases a.due <;> simp

theorem restPhase_eq_armed_iff : a.restPhase = .armed ↔ a.due ≠ none ∧ a.disposing = false := by
  rw [restPhase]
  cases a.disposing <;> cases a.due <;> simp

theorem restPhase_eq_idle_iff : a.restPhase = .idle ↔ a.due = none ∧ a.disposing = false := by
  rw [restPhase]
  cases a.disposing <;> cases a.due <;> simp

/-- A start arms an alarm at rest, and one that is armed stays so. -/
theorem Apt.start (h : a.Apt) (now : Instant) (interval : Span) :
    ((a.start now interval).toOption.getD a).Apt := by
  refine ⟨h.toSound.start now interval, ?_⟩
  rcases started_cases a now interval with hsame | ⟨hlive, hset⟩
  · rw [hsame]
    exact h.rest
  · rw [hset]
    intro hphase
    have hrest : a.phase ≠ .running := by
      intro hrunning
      rw [hrunning] at hphase
      exact hphase rfl
    have hphase := h.rest hrest
    rw [restPhase_of_live hlive] at hphase
    show (if a.phase = .idle then Phase.armed else a.phase) = if a.disposing then _ else _
    rw [hphase, hlive]
    split
    next => rfl
    next => rfl

/-- Once it is disposed, a sound alarm is apt. -/
theorem Sound.apt (h : a.Sound) (hdisposing : a.disposing = true) : a.Apt := by
  refine ⟨h, fun hphase => ?_⟩
  rw [restPhase_eq_disposed_iff.2 hdisposing]
  exact (h.phase hdisposing).resolve_left hphase

/-- Every moment keeps the agreement. -/
theorem Apt.after {m : Moment} (h : m.before.Apt) (htimely : m.Timely) : m.after.Apt := by
  have hsound := h.toSound.after htimely
  obtain ⟨now, deed, a⟩ := m
  cases deed with
  | start interval => exact h.start now interval
  | dispose => exact h.toSound.disposeAndWait.apt a.disposing_disposeAndWait
  | enter => exact ⟨hsound, fun hphase => absurd rfl hphase⟩
  | leave => exact ⟨hsound, fun _ => rfl⟩
  | act action =>
    cases action with
    | start interval =>
      show (act now a (.start interval)).2.Apt
      rw [act_start]
      exact h.start now interval
    | dispose => exact h.toSound.dispose.apt a.disposing_dispose
    | awaitDisposal => exact h.toSound.disposeAndWait.apt a.disposing_disposeAndWait
    | lookAtPhase | askThread | panic => exact h

/-- In an apt alarm a deadline is one that will be met. -/
theorem Apt.deadline?_eq (h : a.Apt) : a.deadline? = a.due := by
  rcases hdisposing : a.disposing with _ | _
  · rw [deadline?, hdisposing]
    rfl
  · rw [deadline?_of_disposing hdisposing, h.due hdisposing]

end Alarm

/-- The phase, the deadline and the mark of disposal fit together. -/
structure Consistent (a : Alarm) : Prop where
  disposing : a.disposing = true → a.due = none ∧ (a.phase = .running ∨ a.phase = .disposed)
  disposed : a.phase = .disposed → a.disposing = true
  armed : a.phase ≠ .running → (a.phase = .armed ↔ a.due ≠ none ∧ a.disposing = false)
  idle : a.phase = .idle → a.due = none

/-- An apt alarm is consistent. -/
theorem Apt.consistent {a : Alarm} (h : a.Apt) : a.Consistent where
  disposing hdisposing := ⟨h.due hdisposing, h.phase hdisposing⟩
  disposed hphase := by
    have hrest := h.rest (by rw [hphase]; exact Phase.noConfusion)
    exact restPhase_eq_disposed_iff.1 (hrest.symm.trans hphase)
  armed hphase := by rw [h.rest hphase, restPhase_eq_armed_iff]
  idle hphase := by
    have hrest := h.rest (by rw [hphase]; exact Phase.noConfusion)
    exact (restPhase_eq_idle_iff.1 (hrest.symm.trans hphase)).1

/-! ## Callbacks that run -/

/-- Whether a callback runs after a moment, if one did or did not before. -/
def Moment.executes (running : Bool) (m : Moment) : Bool :=
  match m.deed with
  | .enter => true
  | .leave => false
  | _ => running

/-- Whether a callback runs after these moments: it has begun and has not ended. -/
def executing (running : Bool) (log : List Moment) : Bool := log.foldl Moment.executes running

/-- A callback runs after a moment if it begins with it, or ran and does not end with it. -/
theorem Moment.Timely.executes {m : Moment} (h : m.Timely) :
    decide (m.after.phase = .running) = m.executes (m.before.phase = .running) := by
  obtain ⟨now, deed, a⟩ := m
  cases deed with
  | start interval => exact decide_eq_decide.2 (phase_started_iff a now interval)
  | dispose => exact decide_eq_decide.2 a.phase_disposeAndWait_iff
  | enter => rfl
  | leave => exact decide_eq_false a.phase_leave
  | act action =>
    have hrunning : a.phase = .running := h
    exact decide_eq_decide.2 (iff_of_true (phase_act now hrunning action) hrunning)

section Course

variable {t u : Instant} {a b : Alarm} {log : List Moment}

/-- The phase is `running` while a callback runs, and only then. -/
theorem Course.executing (h : Course t a log u b) :
    decide (b.phase = .running) = Alarm.executing (a.phase = .running) log := by
  induction h with
  | rest => rfl
  | next next _ ih =>
    rw [ih, next.timely.executes, next.before]
    rfl

/-- A course leads from apt alarms to apt ones. -/
theorem Course.apt (h : Course t a log u b) (ha : a.Apt) :
    (∀ m ∈ log, m.before.Apt ∧ m.after.Apt) ∧ b.Apt := by
  induction h with
  | rest => exact ⟨List.forall_mem_nil _, ha⟩
  | next next _ ih =>
    have hbefore := next.before ▸ ha
    have hafter := hbefore.after next.timely
    obtain ⟨hlog, hb⟩ := ih hafter
    exact ⟨List.forall_mem_cons.2 ⟨⟨hbefore, hafter⟩, hlog⟩, hb⟩

end Course

/-! ## Whole runs -/

/-- What the phase tells at every point of a run: before and after every moment, and between the
requests. -/
structure Told (s : Session) (requests : List Request) : Prop where
  /-- The moments lead from the alarm at first to the alarm in the end. -/
  course : ∀ a b, s.alarm = some a → (s.run requests).2.alarm = some b →
    Course s.clock.monotonic a (s.moments requests) (s.run requests).2.clock.monotonic b
  consistent : ∀ m ∈ s.moments requests, m.before.Consistent ∧ m.after.Consistent
  /-- The phase is `running` if a callback has begun and has not ended, and only then. -/
  running : ∀ before m after, s.moments requests = before ++ m :: after →
    (m.before.phase = .running ↔ executing false before) ∧
      (m.after.phase = .running ↔ executing false (before ++ [m]))
  /-- A start from the callback sets the deadline and nothing else. -/
  started : ∀ m ∈ s.moments requests, m.before.phase = .running → ∀ interval b,
    m.deed = .act (.start interval) → m.before.start m.instant interval = .ok b →
    m.after = { m.before with due := some (m.instant.after interval) }
  /-- What comes from outside finds no callback that runs, and no deadline that is reached. -/
  outside : ∀ m ∈ s.moments requests, m.isOutside →
    m.before.phase ≠ .running ∧ ∀ d, m.before.due = some d → m.instant < d
  /-- Nor is there one between two requests. -/
  resting : ∀ a, (s.run requests).2.alarm = some a → a.Consistent ∧ a.phase ≠ .running ∧
    ∀ d, a.due = some d → (s.run requests).2.clock.monotonic < d

/-- A start from the callback moves the deadline and nothing else. -/
theorem Moment.after_of_started {m : Moment} {interval : Span} {b : Alarm}
    (hphase : m.before.phase = .running) (hdeed : m.deed = .act (.start interval))
    (h : m.before.start m.instant interval = .ok b) :
    m.after = { m.before with due := some (m.instant.after interval) } := by
  have hafter : m.after = b := by
    rw [Moment.after, hdeed]
    dsimp only
    rw [act_start, h]
    rfl
  have hnotIdle : m.before.phase ≠ .idle := by
    rw [hphase]
    exact Phase.noConfusion
  rw [start_eq] at h
  split at h
  next => cases h
  next =>
    split at h
    next => cases h
    next => exact hafter.trans (Except.ok.inj h).symm

/-- What comes from outside finds the alarm at rest. -/
theorem Moment.Timely.atRest {m : Moment} (h : m.Timely) (houtside : m.isOutside) :
    m.before.AtRest m.instant := by
  unfold isOutside at houtside
  unfold Timely at h
  split at houtside
  next hdeed => rwa [hdeed] at h
  next hdeed => rwa [hdeed] at h
  next => cases houtside

/-- At every point of a run the phase, the deadline and the mark of disposal fit together. -/
theorem consistent_run (name : String) (clock : Clock) (scripts : List (List Action))
    (requests : List Request) : Told (Session.initial name clock scripts) requests := by
  have hstart : Apt { name } := ⟨.of_live rfl rfl, fun _ => rfl⟩
  obtain ⟨b, hcourse, hdrives⟩ := course_run (drives_initial name clock scripts) requests
  obtain ⟨hapt, hb⟩ := hcourse.apt hstart
  -- Every clause but the first is read off the course, cut where the moment stands.
  refine ⟨?_, fun m hm => ⟨(hapt m hm).1.consistent, (hapt m hm).2.consistent⟩, ?_, ?_, ?_, ?_⟩
  · intro a b' ha hb'
    obtain rfl : b' = b := hdrives.eq hb'
    obtain rfl : { name } = a := Option.some.inj ha
    exact hcourse
  · intro before m after hlog
    rw [hlog] at hcourse
    obtain ⟨t, c, hbefore, hrest⟩ := hcourse.split
    cases hrest with
    | next next hafter =>
    have hthrough : Course clock.monotonic { name } (before ++ [m]) m.instant m.after :=
      hbefore.append (.next next (.refl ..))
    have hrunning : decide (c.phase = .running) = executing false before := hbefore.executing
    have hrunning' : decide (m.after.phase = .running) = executing false (before ++ [m]) :=
      hthrough.executing
    rw [next.before, ← hrunning, ← hrunning']
    exact ⟨decide_eq_true_iff.symm, decide_eq_true_iff.symm⟩
  · intro m _ hphase interval b hdeed h
    exact Moment.after_of_started hphase hdeed h
  · intro m hm houtside
    obtain ⟨before, after, hlog⟩ := List.append_of_mem hm
    rw [hlog] at hcourse
    obtain ⟨t, c, -, hrest⟩ := hcourse.split
    cases hrest with
    | next next _ =>
    obtain ⟨hphase, hdue⟩ := next.timely.atRest houtside
    rw [(hapt m hm).1.deadline?_eq] at hdue
    exact ⟨hphase, hdue⟩
  · intro a ha
    obtain rfl : a = b := hdrives.eq ha
    obtain ⟨hphase, hdue⟩ := hdrives.rest
    rw [hb.deadline?_eq] at hdue
    exact ⟨hb.consistent, hphase, hdue⟩

/-- A callback that starts the alarm again and then panics leaves it armed; the next one is disposed
while it runs. -/
example :
    let nanos : Span := ⟨0, 5, by decide, by decide⟩
    let s := Session.initial "t" ⟨⟨100⟩, 0⟩ [[.start nanos, .panic], [.dispose, .start nanos]]
    (s.moments [.start .zero, .pass 5]).map (fun m => (m.after.phase, m.after.due.isSome)) =
      [(.armed, true), (.running, false), (.running, true), (.running, true), (.armed, true),
        (.running, false), (.running, false), (.running, false), (.disposed, false)] := by
  decide

end Courier.Alarm
