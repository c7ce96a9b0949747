import Courier.Failure
import Courier.Time.Instant

/-!
# A restartable one-shot alarm

An `Alarm` has at most one deadline. When the deadline is reached the alarm fires: its callback
runs, and while it runs the alarm may be started again, for a firing that follows once the
callback has returned, or be disposed. A firing is two steps, `Alarm.enter` and `Alarm.leave`,
with the callback between them, so firings never overlap.

```
idle ──start──▸ armed ──enter──▸ running ──leave──▸ armed | idle
  └───────────────┴────────────────┴──────dispose──────▸ disposed
```

Disposal takes effect at once: the deadline is gone and no start succeeds any more. Only the
phase waits for a running callback to return.
-/

namespace Courier

/-- What an alarm can be seen to do. -/
inductive Alarm.Phase where
  /-- There is no deadline. -/
  | idle
  /-- There is a deadline, and the callback does not run. -/
  | armed
  /-- The callback runs. -/
  | running
  /-- The alarm never fires again. -/
  | disposed
deriving DecidableEq

/-- A restartable one-shot alarm. -/
structure Alarm where
  name : String
  phase : Alarm.Phase := .idle
  /-- The next firing; while the callback runs, the firing after it. -/
  due : Option Instant := none
  /-- Whether the alarm is disposed, or will be once the running callback has returned. -/
  disposing : Bool := false
  /-- Whether a caller outside the callback waits for the callback to return, so that its
  disposal is complete. -/
  awaited : Bool := false
deriving DecidableEq

namespace Alarm

/-- Sets the deadline to the end of the interval. An interval that the clock cannot show is
refused first, a disposed alarm second. -/
def start (a : Alarm) (now : Instant) (interval : Span) : Except Failure Alarm :=
  match now.after? interval with
  | none => .error (.intervalOutOfRange interval)
  | some due =>
    if a.disposing then .error (.disposed .alarm)
    else .ok { a with due := some due, phase := if a.phase = .idle then .armed else a.phase }

/-- Disposes the alarm. While the callback runs, the phase changes only when it returns. -/
def dispose (a : Alarm) : Alarm :=
  if a.disposing then a
  else
    { a with
      due := none
      disposing := true
      phase := if a.phase = .running then .running else .disposed }

/-- Disposes the alarm from outside its callback. If the callback runs, the caller waits until
it has returned. -/
def disposeAndWait (a : Alarm) : Alarm :=
  if a.disposing then a else { a.dispose with awaited := a.phase = .running }

/-- The deadline of an alarm that can still fire. -/
def deadline? (a : Alarm) : Option Instant := if a.disposing then none else a.due

/-- The alarm while its callback begins to run. -/
def enter (a : Alarm) : Alarm := { a with due := none, phase := .running }

/-- The alarm once its callback has returned, or has panicked. -/
def leave (a : Alarm) : Alarm :=
  { a with
    phase := if a.disposing then .disposed else if a.due.isSome then .armed else .idle
    awaited := false }

/-- A start succeeds only on an alarm that is not disposed, and sets the exact deadline. -/
theorem start_eq_ok {a b : Alarm} {now : Instant} {interval : Span}
    (h : a.start now interval = .ok b) :
    a.disposing = false ∧ b.disposing = false ∧ b.due = some (now.after interval) := by
  rw [start] at h
  split at h
  · cases h
  · next due hdue =>
    split at h
    · cases h
    · next hdis =>
      cases h
      rw [Instant.after?_eq] at hdue
      split at hdue
      · cases hdue
      · cases hdue
        simp_all

/-- The end of the callback leaves the deadline as it is. -/
@[simp] theorem deadline?_leave (a : Alarm) : a.leave.deadline? = a.deadline? := rfl

/-- A disposed alarm has no deadline. -/
@[simp] theorem deadline?_dispose (a : Alarm) : a.dispose.deadline? = none := by
  unfold dispose deadline?
  split <;> simp_all

/-- Disposal takes effect at once. -/
theorem disposing_dispose (a : Alarm) : a.dispose.disposing = true := by
  unfold dispose
  split
  · next h => exact h
  · rfl

/-- Disposal sets no deadline. -/
theorem due_dispose {a : Alarm} (h : a.due = none) : a.dispose.due = none := by
  unfold dispose
  split
  · exact h
  · rfl

end Alarm
end Courier
