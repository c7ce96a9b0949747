import Courier.Time.Instant

/-!
# Machines with one deadline

A `Recurring` machine has at most one deadline. When time reaches it the machine fires, and the
deadline that follows lies later than the firing. `Recurring.runUntil` is what happens to such a
machine while time passes: every deadline up to a limit is met, in order, each at its own
instant.

> `due_runUntil`: afterwards no deadline up to the limit is left.
-/

namespace Courier

/-- A machine over states `μ` that fires when its deadline is reached. -/
structure Recurring (μ : Type) where
  due : μ → Option Instant
  fire : Instant → μ → μ
  due_fire : ∀ {t : Instant} {m : μ} {d : Instant}, due (fire t m) = some d → t < d

namespace Recurring

variable {μ : Type} (R : Recurring μ)

/-- How many nanoseconds lie between the deadline and the end of the limit. -/
def remaining (limit : Instant) (m : μ) : Nat :=
  match R.due m with
  | none => 0
  | some d => limit.nanos + 1 - d.nanos

/-- A firing within the limit leaves less time between the deadline and the limit. -/
theorem remaining_fire_lt {limit now d : Instant} {m : μ} (h : R.due m = some d)
    (hd : d ≤ limit) : R.remaining limit (R.fire (now.later d) m) < R.remaining limit m := by
  have hlimit : d.nanos ≤ limit.nanos := hd
  have hlater := Instant.nanos_later now d
  rw [remaining, remaining, h]
  dsimp only
  split
  · omega
  · next e he =>
    have := R.due_fire he
    rw [Instant.lt_iff] at this
    omega

/-- Meets every deadline up to `limit`. A deadline that has already passed at `now` is met at
`now`. -/
def runUntil (limit now : Instant) (m : μ) : μ :=
  match _h : R.due m with
  | none => m
  | some d => if _hd : d ≤ limit then runUntil limit (now.later d) (R.fire (now.later d) m) else m
termination_by R.remaining limit m
decreasing_by exact R.remaining_fire_lt _h _hd

/-- Without a deadline nothing happens. -/
theorem runUntil_of_none {limit now : Instant} {m : μ} (h : R.due m = none) :
    R.runUntil limit now m = m := by
  rw [runUntil]
  split
  · rfl
  · next d hd => rw [h] at hd; cases hd

/-- The next deadline is met first, if it lies within the limit. -/
theorem runUntil_of_some {limit now d : Instant} {m : μ} (h : R.due m = some d) :
    R.runUntil limit now m =
      if d ≤ limit then R.runUntil limit (now.later d) (R.fire (now.later d) m) else m := by
  rw [runUntil]
  split
  · next hd => rw [h] at hd; cases hd
  · next e he =>
    rw [h] at he
    cases he
    split <;> rfl

/-- Afterwards no deadline up to the limit is left. -/
theorem due_runUntil {limit now d : Instant} {m : μ}
    (h : R.due (R.runUntil limit now m) = some d) : limit < d := by
  fun_induction R.runUntil limit now m with
  | case1 now m hm => rw [hm] at h; cases h
  | case2 now m e he hle ih => exact ih h
  | case3 now m e he hle =>
    rw [he] at h
    cases h
    exact Nat.lt_of_not_le hle

end Recurring
end Courier
