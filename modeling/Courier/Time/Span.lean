/-!
# Lengths of time

A `Span` is a length of time in whole seconds, fewer than `2 ^ 64` of them, and nanoseconds
below one second. Its arithmetic works on the two parts and saturates at the longest span;
`toNanos` reads a span as one natural number.

> `toNanos_times`: multiplying saturates exactly where the product of the natural numbers
> leaves the range, and is that product everywhere else.
-/

namespace Courier

/-- The number of nanoseconds in a second. -/
def nanosPerSecond : Nat := 1000000000

/-- The number of nanoseconds in a millisecond. -/
def nanosPerMilli : Nat := 1000000

/-- A length of time, in whole seconds and nanoseconds below one second. -/
structure Span where
  seconds : Nat
  nanos : Nat
  seconds_lt : seconds < UInt64.size
  nanos_lt : nanos < nanosPerSecond
deriving DecidableEq

namespace Span

/-- The empty span. -/
def zero : Span := ⟨0, 0, by decide, by decide⟩

/-- The longest span, one nanosecond short of `2 ^ 64` seconds. -/
def longest : Span := ⟨UInt64.size - 1, nanosPerSecond - 1, by decide, by decide⟩

/-- The span as a number of nanoseconds. -/
def toNanos (d : Span) : Nat := d.seconds * nanosPerSecond + d.nanos

/-- The span of `seconds` seconds and `nanos` nanoseconds, which carry into the seconds; beyond
the longest span, the longest span. -/
def ofParts (seconds nanos : Nat) : Span :=
  if h : seconds + nanos / nanosPerSecond < UInt64.size then
    ⟨seconds + nanos / nanosPerSecond, nanos % nanosPerSecond, h, Nat.mod_lt _ (by decide)⟩
  else longest

/-- A span of `ms` milliseconds. -/
def ofMillis (ms : UInt64) : Span where
  seconds := ms.toNat / 1000
  nanos := ms.toNat % 1000 * nanosPerMilli
  seconds_lt := Nat.lt_of_le_of_lt (Nat.div_le_self _ _) ms.toNat_lt
  nanos_lt := by simp only [nanosPerMilli, nanosPerSecond]; omega

/-- The whole milliseconds of a span; from `2 ^ 64` of them on, `2 ^ 64 - 1`. -/
def toMillis (d : Span) : UInt64 :=
  let ms := d.seconds * 1000 + d.nanos / nanosPerMilli
  if h : ms < UInt64.size then UInt64.ofNatLT ms h
  else UInt64.ofNatLT (UInt64.size - 1) (by decide)

/-- The longer of two spans. -/
def longer (a b : Span) : Span := if a.toNanos ≤ b.toNanos then b else a

/-- The shorter of two spans. -/
def shorter (a b : Span) : Span := if a.toNanos ≤ b.toNanos then a else b

/-- The span `k` times over; beyond the longest span, the longest span. -/
def times (d : Span) (k : UInt32) : Span := ofParts (d.seconds * k.toNat) (d.nanos * k.toNat)

/-- The digits of a decimal fraction `n / 10 ^ places`, without the zeros at its end. -/
def fractionDigits : (places n : Nat) → List Char
  | 0, _ => []
  | places + 1, n =>
    if n = 0 then [] else
      Nat.digitChar (n / Nat.pow 10 places) :: fractionDigits places (n % Nat.pow 10 places)

/-- The span in seconds: the whole seconds, a point and the digits of the fraction if there is
one, and an `s`. -/
def render (d : Span) : String :=
  let fraction := if d.nanos = 0 then "" else "." ++ String.ofList (fractionDigits 9 d.nanos)
  toString d.seconds ++ fraction ++ "s"

/-! ## The spans as natural numbers -/

/-- The empty span has no nanoseconds. -/
@[simp] theorem toNanos_zero : zero.toNanos = 0 := rfl

/-- Milliseconds as nanoseconds. -/
theorem toNanos_ofMillis (ms : UInt64) : (ofMillis ms).toNanos = ms.toNat * nanosPerMilli := by
  simp only [toNanos, ofMillis, nanosPerSecond, nanosPerMilli]
  omega

/-- No span is longer than the longest one. -/
theorem toNanos_le_longest (d : Span) : d.toNanos ≤ longest.toNanos := by
  have hs := d.seconds_lt
  have hn := d.nanos_lt
  simp only [toNanos, longest, nanosPerSecond] at *
  omega

/-- The longer of two spans is their maximum. -/
theorem toNanos_longer (a b : Span) : (longer a b).toNanos = max a.toNanos b.toNanos := by
  unfold longer; split <;> omega

/-- The shorter of two spans is their minimum. -/
theorem toNanos_shorter (a b : Span) : (shorter a b).toNanos = min a.toNanos b.toNanos := by
  unfold shorter; split <;> omega

/-- The number of nanoseconds in the longest span. -/
theorem toNanos_longest : longest.toNanos = 18446744073709551615999999999 := by
  simp [longest, toNanos, nanosPerSecond]

/-- Parts add up, until the longest span is reached. -/
theorem toNanos_ofParts (seconds nanos : Nat) :
    (ofParts seconds nanos).toNanos = min (seconds * nanosPerSecond + nanos) longest.toNanos := by
  unfold ofParts
  split
  · next h =>
    rw [toNanos_longest]
    simp only [toNanos, nanosPerSecond, UInt64.size] at h ⊢
    omega
  · next h =>
    rw [toNanos_longest]
    simp only [nanosPerSecond, UInt64.size] at h ⊢
    omega

/-- Multiplying is exact, until the longest span is reached. -/
theorem toNanos_times (d : Span) (k : UInt32) :
    (d.times k).toNanos = min (d.toNanos * k.toNat) longest.toNanos := by
  rw [times, toNanos_ofParts, toNanos.eq_1 d, Nat.add_mul, Nat.mul_right_comm]

end Span
end Courier
