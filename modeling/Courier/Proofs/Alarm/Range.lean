import Courier.Proofs.Alarm.Firings

/-!
# Starts beyond the range of the clock

The clock shows `Instant.lastSecond` whole seconds at most. A start whose end lies beyond that is
refused, and then the alarm is as if nothing had been asked of it: what it was to do before, it
still does.

> `invalidArgument_iff`: exactly these starts fail for their argument, whatever the alarm.

> `rangeChecked_run`: in every run they change nothing, from outside and from within the callback.
-/

namespace Courier.Alarm

open Session (Request)

/-- The exact end of the interval has more whole seconds than the clock can show. -/
def OutOfRange (now : Instant) (interval : Span) : Prop :=
  Instant.lastSecond < (now.nanos + interval.toNanos) / nanosPerSecond

theorem start_of_outOfRange {now : Instant} {interval : Span} (h : OutOfRange now interval)
    (a : Alarm) : a.start now interval = .error (.intervalOutOfRange interval) := by
  rw [start_eq]
  exact if_pos h

/-- A start fails for its argument exactly if its end is out of range. -/
theorem invalidArgument_iff (a : Alarm) (now : Instant) (interval : Span) :
    (∃ e, a.start now interval = .error e ∧ e.kind = .invalidArgument) ↔
      OutOfRange now interval := by
  constructor
  · rintro ⟨e, he, hkind⟩
    rw [start_eq] at he
    split at he
    next hrange => exact hrange
    next =>
      -- Otherwise it fails only because the alarm is disposed, or it succeeds.
      split at he
      next =>
        cases he
        cases hkind
      next => cases he
  · intro h
    exact ⟨_, start_of_outOfRange h a, rfl⟩

theorem Moment.after_of_outOfRange {m : Moment} {interval : Span}
    (hinterval : m.interval? = some interval) (h : OutOfRange m.instant interval) :
    m.after = m.before := by
  have hrefused : (m.before.start m.instant interval).toOption.getD m.before = m.before := by
    rw [start_of_outOfRange h]
    rfl
  rw [Moment.interval?] at hinterval
  split at hinterval
  next hdeed =>
    cases hinterval
    rw [Moment.after, hdeed]
    exact hrefused
  next hdeed =>
    cases hinterval
    rw [Moment.after, hdeed]
    exact (act_start ..).trans hrefused
  next => cases hinterval

/-- Outside the callback such a start is refused, nothing is due, and nothing has changed. -/
theorem serve_of_outOfRange {s : Session} {a : Alarm} {interval : Span} (halarm : s.alarm = some a)
    (hrest : a.AtRest s.clock.monotonic) (h : OutOfRange s.clock.monotonic interval) :
    s.serve (.start interval) = (.started (.error (.intervalOutOfRange interval)), [], s) := by
  rw [Session.serve.eq_def, halarm]
  dsimp only
  rw [Session.start, start_of_outOfRange h]
  dsimp only
  rw [Session.settle, runUntil_of_quiet halarm hrest.2]

/-- What starts that are out of range come to, in a run and after it. -/
structure RangeChecked (s : Session) (requests : List Request) : Prop where
  /-- Whoever starts the alarm, from outside or from the callback, it stays as it is. -/
  unchanged : ∀ before m after interval, s.moments requests = before ++ m :: after →
    m.interval? = some interval → OutOfRange m.instant interval → m.after = m.before
  /-- A deadline that was there is met, unless something else is decided before it. -/
  pending : ∀ before m after interval d, s.moments requests = before ++ m :: after →
    m.interval? = some interval → OutOfRange m.instant interval → m.before.deadline? = some d →
    (∃ quiet n later, after = quiet ++ n :: later ∧ (∀ n ∈ quiet, ¬ n.decides) ∧ InTime d n) ∨
      (∀ n ∈ after, ¬ n.decides) ∧ (s.run requests).2.clock.monotonic < d
  /-- From outside, the start is refused and nothing happens. -/
  refused : ∀ a interval, (s.run requests).2.alarm = some a →
    OutOfRange (s.run requests).2.clock.monotonic interval →
    (s.run requests).2.serve (.start interval) =
      (.started (.error (.intervalOutOfRange interval)), [], (s.run requests).2)
  /-- So an earlier deadline is met when time reaches it. -/
  fires : ∀ a interval d nanos, (s.run requests).2.alarm = some a →
    OutOfRange (s.run requests).2.clock.monotonic interval → a.deadline? = some d →
    d.nanos ≤ (s.run requests).2.clock.monotonic.nanos + nanos →
    ∃ seen rest, (s.run requests).2.firings [.start interval, .pass nanos] =
      ⟨(s.run requests).2.fired + 1, d, seen⟩ :: rest

/-- In every run, starts that are out of range change nothing. -/
theorem rangeChecked_run (name : String) (clock : Clock) (scripts : List (List Action))
    (requests : List Request) :
    RangeChecked (Session.initial name clock scripts) requests := by
  obtain ⟨b, -, hdrives⟩ := course_run (drives_initial name clock scripts) requests
  refine ⟨?_, ?_, ?_, ?_⟩
  · intro before m after interval _ hinterval h
    exact Moment.after_of_outOfRange hinterval h
  · intro before m after interval d hlog hinterval h hdue
    rw [← Moment.after_of_outOfRange hinterval h] at hdue
    exact fate_of_moment (drives_initial name clock scripts) hlog hdue
  · intro a interval halarm h
    exact serve_of_outOfRange halarm (hdrives.eq halarm ▸ hdrives.rest) h
  · intro a interval d nanos halarm h hdue hreached
    generalize ((Session.initial name clock scripts).run requests).2 = s at *
    have hrest : a.AtRest s.clock.monotonic := hdrives.eq halarm ▸ hdrives.rest
    have hfirings : s.firings [.start interval, .pass nanos] = (s.pass nanos).1 := by
      rw [Session.firings, Session.run, serve_of_outOfRange halarm hrest h]
      simp [Session.run, Session.serve]
    rw [hfirings]
    exact runUntil_of_due halarm hrest.unpassed hdue hreached

end Courier.Alarm
