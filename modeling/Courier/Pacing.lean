import Courier.Settings.Basic

/-!
# The pace of flushes

`Pacing` counts the failures since the last success and derives from them how long to wait
before the next flush, and what to give up.

Without failures the wait is the period. The first failure makes it the longer of the period and
the policy's minimum, each further failure doubles it, and the policy's maximum caps it; but it
is never shorter than the period.
-/

namespace Courier

/-- The failures since the last success, and the rules that depend on them. -/
structure Pacing where
  period : Span
  policy : BackoffPolicy
  /-- The failures since the last success, up to `2 ^ 32 - 1` of them. -/
  failures : UInt32 := 0
deriving DecidableEq

namespace Pacing

/-- The pace after a successful flush. -/
def succeeded (p : Pacing) : Pacing := { p with failures := 0 }

/-- The pace after a failed flush. -/
def failed (p : Pacing) : Pacing :=
  { p with failures := if p.failures.toNat + 1 < UInt32.size then p.failures + 1 else p.failures }

/-- Whether the staged batch is to be discarded. -/
def dropsBatch (p : Pacing) : Bool := p.policy.dropBatchAfter ≤ p.failures

/-- Whether the backlog is to be discarded. -/
def dropsQueue (p : Pacing) : Bool := p.policy.dropQueueAfter ≤ p.failures

/-- How often the wait has doubled after `doublings` failures beyond the first, as a factor; from
32 doublings on, `2 ^ 32 - 1`. -/
def factor (doublings : Nat) : UInt32 :=
  if doublings < 32 then UInt32.ofNat (Nat.pow 2 doublings) else UInt32.ofNat (UInt32.size - 1)

/-- How long to wait before the next flush. -/
def wait (p : Pacing) : Span :=
  if p.failures = 0 then p.period
  else
    let base := p.period.longer p.policy.minimum
    let backedOff := base.times (factor (p.failures.toNat - 1))
    p.period.longer (backedOff.shorter p.policy.maximum)

/-- The wait is never shorter than the period. -/
theorem period_le_wait (p : Pacing) : p.period.toNanos ≤ p.wait.toNanos := by
  unfold wait
  split
  · exact Nat.le_refl _
  · simp only [Span.toNanos_longer]
    omega

end Pacing
end Courier
