import Courier.Time.Span

/-!
# Instants and the clock

An `Instant` is a reading of the monotonic clock, which counts nanoseconds and can show at most
`Instant.lastSecond` whole seconds. `Instant.after` is the exact sum of an instant and a span,
`Instant.after?` the sum as the clock can compute it: second by second, with the carry of the
nanoseconds last.

> `Instant.after?_eq`: the clock's sum is the exact one, and is refused exactly where the exact
> one has more whole seconds than the clock can show.

A `Clock` pairs the monotonic clock with the time of day.
-/

namespace Courier

/-- A reading of the monotonic clock, in nanoseconds. -/
structure Instant where
  nanos : Nat
deriving DecidableEq

namespace Instant

instance : LE Instant := ⟨fun a b => a.nanos ≤ b.nanos⟩
instance : LT Instant := ⟨fun a b => a.nanos < b.nanos⟩
instance (a b : Instant) : Decidable (a ≤ b) := Nat.decLe a.nanos b.nanos
instance (a b : Instant) : Decidable (a < b) := Nat.decLt a.nanos b.nanos

/-- The most whole seconds that the clock can show, `2 ^ 63 - 1`. -/
def lastSecond : Nat := 9223372036854775807

/-- The whole seconds of an instant. -/
def seconds (t : Instant) : Nat := t.nanos / nanosPerSecond

/-- The nanoseconds of an instant beyond its whole seconds. -/
def subsecond (t : Instant) : Nat := t.nanos % nanosPerSecond

/-- The instant at which `seconds` and `nanos` have passed. -/
def ofParts (seconds nanos : Nat) : Instant := ⟨seconds * nanosPerSecond + nanos⟩

/-- The later of two instants. -/
def later (a b : Instant) : Instant := if a ≤ b then b else a

/-- The instant a span after `t`, however late it is. -/
def after (t : Instant) (d : Span) : Instant := ⟨t.nanos + d.toNanos⟩

/-- The instant a span after `t`, or `none` if the clock cannot show it. -/
def after? (t : Instant) (d : Span) : Option Instant :=
  let seconds := t.seconds + d.seconds
  let nanos := t.subsecond + d.nanos
  if lastSecond < seconds then none
  else if nanos < nanosPerSecond then some (ofParts seconds nanos)
  else if lastSecond < seconds + 1 then none
  else some (ofParts (seconds + 1) (nanos - nanosPerSecond))

/-- Instants are ordered as their nanoseconds. -/
theorem le_iff {a b : Instant} : a ≤ b ↔ a.nanos ≤ b.nanos := Iff.rfl

/-- Instants are strictly ordered as their nanoseconds. -/
theorem lt_iff {a b : Instant} : a < b ↔ a.nanos < b.nanos := Iff.rfl

/-- The later of two instants has the greater number of nanoseconds. -/
theorem nanos_later (a b : Instant) : (later a b).nanos = max a.nanos b.nanos := by
  unfold later
  split
  · next h => exact (Nat.max_eq_right h).symm
  · next h => exact (Nat.max_eq_left (Nat.le_of_not_le h)).symm

/-- The whole seconds of a sum, with the carry of the nanoseconds. -/
theorem seconds_after (t : Instant) (d : Span) :
    (t.after d).seconds = t.seconds + d.seconds + (t.subsecond + d.nanos) / nanosPerSecond := by
  simp only [after, seconds, subsecond, Span.toNanos, nanosPerSecond]
  omega

/-- The exact sum from parts that make up the same number of nanoseconds. -/
theorem after_eq_ofParts {t : Instant} {d : Span} {seconds nanos : Nat}
    (h : seconds * nanosPerSecond + nanos =
      (t.seconds + d.seconds) * nanosPerSecond + (t.subsecond + d.nanos)) :
    t.after d = ofParts seconds nanos := by
  rw [ofParts, h, after]
  simp only [Instant.seconds, subsecond, Span.toNanos, nanosPerSecond, Instant.mk.injEq]
  omega

/-- The clock computes the exact sum, unless it has too many whole seconds. -/
theorem after?_eq (t : Instant) (d : Span) :
    t.after? d = if lastSecond < (t.after d).seconds then none else some (t.after d) := by
  have hd := d.nanos_lt
  have ht : t.subsecond < nanosPerSecond := Nat.mod_lt _ (by decide)
  rw [seconds_after, after?]
  by_cases carry : t.subsecond + d.nanos < nanosPerSecond
  · rw [Nat.div_eq_of_lt carry, after_eq_ofParts rfl]
    simp only [carry, if_true, Nat.add_zero]
  · have one : (t.subsecond + d.nanos) / nanosPerSecond = 1 := by
      rw [nanosPerSecond] at *
      omega
    have sum : t.after d =
        ofParts (t.seconds + d.seconds + 1) (t.subsecond + d.nanos - nanosPerSecond) :=
      after_eq_ofParts (by rw [Nat.add_mul (t.seconds + d.seconds)]; omega)
    rw [one, sum]
    simp only [carry, if_false]
    split
    · rw [if_pos (by omega)]
    · rfl

end Instant

/-- The two clocks of a program: the monotonic clock, and the time of day in nanoseconds since
the epoch. -/
structure Clock where
  monotonic : Instant
  timeOfDay : Nat
deriving DecidableEq

namespace Clock

/-- The time of day in whole milliseconds. -/
def nowMillis (c : Clock) : Nat := c.timeOfDay / nanosPerMilli

/-- Both clocks after `nanos` nanoseconds more. -/
def advance (c : Clock) (nanos : Nat) : Clock :=
  ⟨⟨c.monotonic.nanos + nanos⟩, c.timeOfDay + nanos⟩

/-- Both clocks once the monotonic clock shows `t`; an instant that has passed changes
nothing. -/
def moveTo (c : Clock) (t : Instant) : Clock := c.advance (t.nanos - c.monotonic.nanos)

end Clock
end Courier
