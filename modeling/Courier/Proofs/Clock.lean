import Courier.Proofs.Pacing
import Courier.Time.Instant

/-!
# Room on the clock

The monotonic clock ends somewhere. As long as it stays `2 ^ 64` milliseconds below its end, every
interval that is set in milliseconds leads to an instant that it can show.

> `Instant.after?_of_hasRoom`: such an interval is never refused.

> `BatchSettings.wait_le`: the waits of a collector are such intervals.
-/

namespace Courier

namespace Instant

/-- The clock can go on for `2 ^ 64` milliseconds. -/
def HasRoom (t : Instant) : Prop :=
  t.nanos + UInt64.size * nanosPerMilli < (lastSecond + 1) * nanosPerSecond

/-- An earlier instant has room if a later one has. -/
theorem HasRoom.of_le {t u : Instant} (h : u.HasRoom) (hle : t ≤ u) : t.HasRoom :=
  Nat.lt_of_le_of_lt (Nat.add_le_add_right hle _) h

/-- Where there is room, the clock can show the end of an interval. -/
theorem after?_of_hasRoom {t : Instant} {d : Span} (h : t.HasRoom)
    (hd : d.toNanos ≤ UInt64.size * nanosPerMilli) : t.after? d = some (t.after d) := by
  have hend : t.nanos + d.toNanos < (lastSecond + 1) * nanosPerSecond :=
    Nat.lt_of_le_of_lt (Nat.add_le_add_left hd _) h
  have hseconds : (t.after d).seconds < lastSecond + 1 :=
    Nat.div_lt_of_lt_mul (by rw [Nat.mul_comm]; exact hend)
  rw [after?_eq, if_neg (Nat.not_lt.2 (Nat.le_of_lt_succ hseconds))]

/-- The clock can show the instant. -/
def Shown (t : Instant) : Prop := t.seconds ≤ lastSecond

/-- What comes before an instant that the clock can show, it can show too. -/
theorem Shown.of_le {t u : Instant} (h : u.Shown) (hle : t ≤ u) : t.Shown :=
  Nat.le_trans (Nat.div_le_div_right hle) h

theorem after?_zero {t : Instant} (h : t.Shown) : t.after? .zero = some t := by
  have hafter : t.after .zero = t := rfl
  rw [after?_eq, hafter, if_neg (Nat.not_lt.2 h)]

end Instant

/-- An interval that is set in milliseconds is short enough. -/
theorem Span.toNanos_ofMillis_le (ms : UInt64) :
    (Span.ofMillis ms).toNanos ≤ UInt64.size * nanosPerMilli := by
  rw [Span.toNanos_ofMillis]
  exact Nat.mul_le_mul_right _ (Nat.le_of_lt ms.toNat_lt)

/-- So are the waits that follow from the settings of a collector. -/
theorem BatchSettings.wait_le (settings : BatchSettings) (failures : UInt32) :
    (Pacing.wait ⟨settings.period, settings.backoff, failures⟩).toNanos ≤
      UInt64.size * nanosPerMilli := by
  refine Nat.le_trans (Pacing.wait_le _) (Nat.max_le.2 ⟨?_, ?_⟩)
  · exact Span.toNanos_ofMillis_le settings.periodMs
  · exact Span.toNanos_ofMillis_le settings.backoff.maximumMs

end Courier
