import Courier.Time.Recurring
import Mathlib.Algebra.Ring.Nat

/-!
# What holds while a machine runs

A machine with one deadline goes through a chain of firings while time passes. What holds before
the first of them, and is kept by each one, holds after the last.

> `Recurring.runUntil_invariant`: the invariant may speak of the time at which the machine stands,
> which only moves on at a firing.

> `Recurring.sum_firings`: what each firing adds to a quantity, all of them add together.

> `Recurring.firings_invariant`: the invariant may also speak of a log to which each firing adds.
-/

namespace Courier.Recurring

variable {μ : Type} (R : Recurring μ)

/-- What every firing keeps holds after all of them, at the time of the last one. -/
theorem runUntil_invariant {P : Instant → μ → Prop} {limit : Instant}
    (fire : ∀ {now d : Instant} {m : μ}, P now m → R.due m = some d → d ≤ limit →
      P (now.later d) (R.fire (now.later d) m))
    {now : Instant} {m : μ} (h : P now m) : ∃ t, P t (R.runUntil limit now m) := by
  fun_induction R.runUntil limit now m with
  | case1 now m hm => exact ⟨now, h⟩
  | case2 now m d hdue hd ih => exact ih (fire h hdue hd)
  | case3 now m d hdue hd => exact ⟨now, h⟩

/-- The firings up to `limit`: when each of them comes, and the machine before it. -/
def firings (limit now : Instant) (m : μ) : List (Instant × μ) :=
  match _h : R.due m with
  | none => []
  | some d =>
    if _hd : d ≤ limit then
      (now.later d, m) :: firings limit (now.later d) (R.fire (now.later d) m)
    else []
termination_by R.remaining limit m
decreasing_by exact R.remaining_fire_lt _h _hd

theorem firings_of_none {limit now : Instant} {m : μ} (h : R.due m = none) :
    R.firings limit now m = [] := by
  rw [firings]
  split
  next => rfl
  next d hd => rw [h] at hd; cases hd

theorem firings_of_some {limit now d : Instant} {m : μ} (h : R.due m = some d) :
    R.firings limit now m =
      if d ≤ limit then (now.later d, m) :: R.firings limit (now.later d) (R.fire (now.later d) m)
      else [] := by
  rw [firings]
  split
  next hd => rw [h] at hd; cases hd
  next e he =>
    rw [h] at he
    cases he
    split <;> rfl

/-- What grows by some amount with each firing has grown by their sum in the end. -/
theorem sum_firings {f : μ → Nat} {g : Instant → μ → Nat}
    (fire : ∀ (t : Instant) (m : μ), f (R.fire t m) = f m + g t m) (limit now : Instant) (m : μ) :
    f (R.runUntil limit now m) =
      f m + ((R.firings limit now m).map fun p => g p.1 p.2).sum := by
  fun_induction R.runUntil limit now m with
  | case1 now m hm =>
    rw [R.firings_of_none hm]
    simp
  | case2 now m d hdue hd ih =>
    rw [ih, fire, R.firings_of_some hdue, if_pos hd]
    simp [Nat.add_assoc]
  | case3 now m d hdue hd =>
    rw [R.firings_of_some hdue, if_neg hd]
    simp

/-- What every firing keeps, together with what it adds to a log, holds after all of them. -/
theorem firings_invariant {β : Type} {P : Instant → List β → μ → Prop}
    (note : Instant → μ → List β) (limit : Instant)
    (fire : ∀ {now d : Instant} {past : List β} {m : μ}, P now past m → R.due m = some d →
      d ≤ limit → P (now.later d) (past ++ note (now.later d) m) (R.fire (now.later d) m))
    {now : Instant} {past : List β} {m : μ} (h : P now past m) :
    ∃ t, P t (past ++ (R.firings limit now m).flatMap fun p => note p.1 p.2)
      (R.runUntil limit now m) := by
  fun_induction R.runUntil limit now m generalizing past with
  | case1 now m hm =>
    rw [R.firings_of_none hm, List.flatMap_nil, List.append_nil]
    exact ⟨now, h⟩
  | case2 now m d hdue hd ih =>
    rw [R.firings_of_some hdue, if_pos hd, List.flatMap_cons, ← List.append_assoc]
    exact ih (fire h hdue hd)
  | case3 now m d hdue hd =>
    rw [R.firings_of_some hdue, if_neg hd, List.flatMap_nil, List.append_nil]
    exact ⟨now, h⟩

end Courier.Recurring
