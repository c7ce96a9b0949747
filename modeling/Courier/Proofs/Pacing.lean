import Courier.Pacing
import Mathlib.Data.List.Induction

/-!
# The curve of the waits

The wait before the next flush as one formula over natural numbers. Neither the saturation of spans
nor that of the factor shows in it, because the policy's maximum lies below the longest span.

> `Pacing.toNanos_wait`: the formula.

> `Pacing.wait_mono`: more failures never make the wait shorter.

> `Pacing.wait_le`: the wait is bounded by the longer of the period and the policy's maximum.

After any sequence of successes and failures only the failures since the last success count. Their
number is a natural number without bound, so the formula is one curve over all of them, `curve`.

> `Pacing.after_on_curve`: after every sequence the wait lies on the curve.
-/

namespace Courier.Pacing

/-- The factor is a power of two, capped. -/
theorem toNat_factor (doublings : Nat) :
    (factor doublings).toNat = min (Nat.pow 2 doublings) (UInt32.size - 1) := by
  unfold factor
  split
  next h =>
    have hpow : Nat.pow 2 doublings ≤ Nat.pow 2 31 := Nat.pow_le_pow_right (by decide) (by omega)
    rw [UInt32.toNat_ofNat']
    generalize Nat.pow 2 doublings = power at hpow
    have hlt : power < UInt32.size := Nat.lt_of_le_of_lt hpow (by decide)
    rw [Nat.min_eq_left (Nat.le_sub_one_of_lt hlt)]
    exact Nat.mod_eq_of_lt hlt
  next h =>
    have hpow : Nat.pow 2 32 ≤ Nat.pow 2 doublings := Nat.pow_le_pow_right (by decide) (by omega)
    rw [Nat.min_eq_right (Nat.le_trans (by decide) hpow)]
    rfl

/-- More doublings never make the factor smaller. -/
theorem factor_mono {m n : Nat} (h : m ≤ n) : (factor m).toNat ≤ (factor n).toNat := by
  have hpow : Nat.pow 2 m ≤ Nat.pow 2 n := Nat.pow_le_pow_right (by decide) h
  rw [toNat_factor, toNat_factor]
  generalize Nat.pow 2 m = power at hpow ⊢
  generalize Nat.pow 2 n = power' at hpow ⊢
  omega

/-- The wait in nanoseconds. -/
theorem toNanos_wait (p : Pacing) :
    p.wait.toNanos =
      if p.failures = 0 then p.period.toNanos
      else
        max p.period.toNanos
          (min (max p.period.toNanos p.policy.minimum.toNanos *
            (factor (p.failures.toNat - 1)).toNat) p.policy.maximum.toNanos) := by
  have hmax := Span.toNanos_le_longest p.policy.maximum
  unfold wait
  split
  next => rfl
  next =>
    simp only [Span.toNanos_longer, Span.toNanos_shorter, Span.toNanos_times]
    omega

/-- More failures never make the wait shorter. -/
theorem wait_mono {p q : Pacing} (hperiod : q.period = p.period) (hpolicy : q.policy = p.policy)
    (h : p.failures ≤ q.failures) : p.wait.toNanos ≤ q.wait.toNanos := by
  by_cases hp : p.failures = 0
  · rw [toNanos_wait p, if_pos hp, ← hperiod]
    exact q.period_le_wait
  · have hle : p.failures.toNat ≤ q.failures.toNat := UInt32.le_iff_toNat_le.1 h
    have hq : q.failures ≠ 0 := by
      intro hq
      rw [hq] at hle
      exact hp (UInt32.toNat_inj.1 (Nat.le_zero.1 hle))
    have hfactor : (factor (p.failures.toNat - 1)).toNat ≤ (factor (q.failures.toNat - 1)).toNat :=
      factor_mono (by omega)
    have hbase := Nat.mul_le_mul_left (max p.period.toNanos p.policy.minimum.toNanos) hfactor
    rw [toNanos_wait p, toNanos_wait q, if_neg hp, if_neg hq, hperiod, hpolicy]
    generalize max p.period.toNanos p.policy.minimum.toNanos * _ = shorter at hbase ⊢
    generalize max p.period.toNanos p.policy.minimum.toNanos * _ = longer at hbase ⊢
    generalize p.period.toNanos = period
    generalize p.policy.maximum.toNanos = maximum
    omega

/-- The wait is bounded, whatever the number of failures. -/
theorem wait_le (p : Pacing) :
    p.wait.toNanos ≤ max p.period.toNanos p.policy.maximum.toNanos := by
  rw [toNanos_wait]
  split
  next => exact Nat.le_max_left _ _
  next =>
    refine Nat.max_le.2 ⟨Nat.le_max_left _ _, ?_⟩
    exact Nat.le_trans (Nat.min_le_right _ _) (Nat.le_max_right _ _)

/-! ## Sequences of successes and failures -/

/-- How a flush ended. -/
inductive Mark where
  | success
  | failure
deriving DecidableEq

/-- The pace after a flush. -/
def mark (p : Pacing) : Mark → Pacing
  | .success => p.succeeded
  | .failure => p.failed

/-- The pace after a sequence of flushes. -/
def after (p : Pacing) (marks : List Mark) : Pacing := marks.foldl mark p

/-- The number of failures since the last success. -/
def streak (marks : List Mark) : Nat := (marks.reverse.takeWhile (· = .failure)).length

/-- The wait in nanoseconds after `failures` failures in a row. -/
def curve (period minimum maximum failures : Nat) : Nat :=
  if failures = 0 then period
  else
    max period
      (min (max period minimum * min (Nat.pow 2 (failures - 1)) (UInt32.size - 1)) maximum)

/-- A success ends the streak. -/
@[simp] theorem streak_success (marks : List Mark) : streak (marks ++ [.success]) = 0 := by
  simp [streak]

/-- A failure adds one to the streak. -/
@[simp] theorem streak_failure (marks : List Mark) :
    streak (marks ++ [.failure]) = streak marks + 1 := by
  simp [streak]

/-- The pace after one more flush. -/
@[simp] theorem after_concat (p : Pacing) (marks : List Mark) (last : Mark) :
    p.after (marks ++ [last]) = (p.after marks).mark last := by
  simp [after]

/-- One more failure is counted until there are `2 ^ 32 - 1`. -/
theorem toNat_failures_failed (p : Pacing) :
    p.failed.failures.toNat = min (p.failures.toNat + 1) (UInt32.size - 1) := by
  have hlt := p.failures.toNat_lt
  unfold failed
  by_cases h : p.failures.toNat + 1 < UInt32.size
  · rw [if_pos h, UInt32.toNat_add]
    show (p.failures.toNat + 1) % UInt32.size = _
    rw [Nat.mod_eq_of_lt h]
    omega
  · rw [if_neg h]
    simp only [UInt32.size] at h ⊢
    omega

/-- Flushes change neither the period nor the policy. -/
theorem after_fixed (p : Pacing) (marks : List Mark) :
    (p.after marks).period = p.period ∧ (p.after marks).policy = p.policy := by
  induction marks using List.reverseRecOn with
  | nil => exact ⟨rfl, rfl⟩
  | append_singleton marks last ih =>
    rw [after_concat]
    cases last <;> exact ih

/-- The failures that are counted are those since the last success, up to `2 ^ 32 - 1`. -/
theorem toNat_failures_after {p : Pacing} (hp : p.failures = 0) (marks : List Mark) :
    (p.after marks).failures.toNat = min (streak marks) (UInt32.size - 1) := by
  induction marks using List.reverseRecOn with
  | nil =>
    show p.failures.toNat = _
    rw [hp]
    rfl
  | append_singleton marks last ih =>
    rw [after_concat]
    cases last with
    | success =>
      rw [streak_success]
      rfl
    | failure =>
      show (p.after marks).failed.failures.toNat = _
      rw [toNat_failures_failed, ih, streak_failure]
      omega

/-- Counting only up to a cap does not change a power of two under the same cap, since 32 doublings
reach the cap long before the count does. -/
theorem capped_power {cap : Nat} (hlarge : 32 < cap) (hcap : cap ≤ Nat.pow 2 32) (failures : Nat) :
    min (Nat.pow 2 (min failures cap - 1)) cap = min (Nat.pow 2 (failures - 1)) cap := by
  by_cases h : failures ≤ cap
  · rw [Nat.min_eq_left h]
  · have hcounted : Nat.pow 2 32 ≤ Nat.pow 2 (cap - 1) :=
      Nat.pow_le_pow_right (by decide) (by omega)
    have hexact : Nat.pow 2 32 ≤ Nat.pow 2 (failures - 1) :=
      Nat.pow_le_pow_right (by decide) (by omega)
    rw [Nat.min_eq_right (Nat.le_of_not_le h), Nat.min_eq_right (Nat.le_trans hcap hcounted),
      Nat.min_eq_right (Nat.le_trans hcap hexact)]

/-- The wait is the value of the curve at every number of failures that is counted as the pace
counts it. -/
theorem toNanos_wait_eq_curve {p : Pacing} {failures : Nat}
    (h : p.failures.toNat = min failures (UInt32.size - 1)) :
    p.wait.toNanos =
      curve p.period.toNanos p.policy.minimum.toNanos p.policy.maximum.toNanos failures := by
  rw [toNanos_wait, curve]
  by_cases hzero : failures = 0
  · have hnone : p.failures = 0 := UInt32.toNat_inj.1 (by rw [h, hzero]; rfl)
    rw [if_pos hnone, if_pos hzero]
  · have hsome : p.failures ≠ 0 := by
      intro hnone
      rw [hnone] at h
      simp only [UInt32.toNat_zero, UInt32.size] at h
      omega
    rw [if_neg hsome, if_neg hzero, toNat_factor, h, capped_power (by decide) (by decide)]

/-- How the pace lies on the curve after a sequence of flushes. -/
structure OnCurve (period : Span) (policy : BackoffPolicy) (marks : List Mark) : Prop where
  /-- The failures since the last success are counted, as far as the counter goes. -/
  counted : (after ⟨period, policy, 0⟩ marks).failures.toNat = min (streak marks) (UInt32.size - 1)
  exactly : (after ⟨period, policy, 0⟩ marks).wait.toNanos =
    curve period.toNanos (policy.minimumMs.toNat * nanosPerMilli)
      (policy.maximumMs.toNat * nanosPerMilli) (streak marks)
  /-- No sequence with as many failures at its end leads to a shorter wait. -/
  monotone : ∀ others, streak marks ≤ streak others →
    (after ⟨period, policy, 0⟩ marks).wait.toNanos ≤ (after ⟨period, policy, 0⟩ others).wait.toNanos
  atLeast : period.toNanos ≤ (after ⟨period, policy, 0⟩ marks).wait.toNanos
  atMost : (after ⟨period, policy, 0⟩ marks).wait.toNanos ≤
    max period.toNanos (policy.maximumMs.toNat * nanosPerMilli)

/-- The wait after every sequence of flushes is the value of the curve at the number of failures
since the last success. It never decreases from one such number to the next, and it lies between
the period and the longer of the period and the policy's maximum. -/
theorem after_on_curve (period : Span) (policy : BackoffPolicy) (marks : List Mark) :
    OnCurve period policy marks := by
  have hfixed := after_fixed ⟨period, policy, 0⟩
  have hcounted := fun marks => toNat_failures_after (p := ⟨period, policy, 0⟩) rfl marks
  refine ⟨hcounted marks, ?_, ?_, ?_, ?_⟩
  · rw [toNanos_wait_eq_curve (hcounted marks), (hfixed marks).1, (hfixed marks).2,
      BackoffPolicy.minimum, BackoffPolicy.maximum, Span.toNanos_ofMillis, Span.toNanos_ofMillis]
  · intro others hle
    apply wait_mono
    · rw [(hfixed marks).1, (hfixed others).1]
    · rw [(hfixed marks).2, (hfixed others).2]
    · rw [UInt32.le_iff_toNat_le, hcounted marks, hcounted others]
      omega
  · have hle := (after ⟨period, policy, 0⟩ marks).period_le_wait
    rwa [(hfixed marks).1] at hle
  · have hle := (after ⟨period, policy, 0⟩ marks).wait_le
    rwa [(hfixed marks).1, (hfixed marks).2, BackoffPolicy.maximum, Span.toNanos_ofMillis] at hle

end Courier.Pacing
