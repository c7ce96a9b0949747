import Courier.Text.Hex
import Mathlib.Tactic.Ring

/-!
# Hexadecimal digits that are read again

> `ofDigits?_digits`: the last digits of a number are read as the number without those in front of
> them.
-/

namespace Courier.Hex

theorem value?_digitChar : ∀ d < 16, value? (Nat.digitChar d) = some d := by decide

theorem length_digits (places n : Nat) : (digits places n).length = places := by
  induction places with
  | zero => rfl
  | succ places ih => rw [digits, List.length_cons, ih]

/-- Each digit has its value, and the values make up the number behind whatever stands in front. -/
theorem exists_values (places n : Nat) :
    ∃ values, (digits places n).mapM value? = some values ∧
      ∀ front, values.foldl (fun m v => 16 * m + v) front =
        front * 16 ^ places + n % 16 ^ places := by
  induction places with
  | zero =>
    refine ⟨[], rfl, fun front => ?_⟩
    rw [List.foldl_nil, pow_zero, Nat.mod_one, mul_one, add_zero]
  | succ places ih =>
    obtain ⟨values, hvalues, hfold⟩ := ih
    have hdigit := value?_digitChar (n / 16 ^ places % 16) (Nat.mod_lt _ (by decide))
    refine ⟨n / 16 ^ places % 16 :: values, ?_, fun front => ?_⟩
    · show List.mapM value? (Nat.digitChar (n / 16 ^ places % 16) :: digits places n) = _
      rw [List.mapM_cons, hdigit, hvalues]
      rfl
    · rw [List.foldl_cons, hfold, Nat.mod_pow_succ]
      ring

/-- The last digits of a number are read as what they write. -/
theorem ofDigits?_digits (places n : Nat) :
    ofDigits? (digits places n) = some (n % 16 ^ places) := by
  obtain ⟨values, hvalues, hfold⟩ := exists_values places n
  rw [ofDigits?, hvalues, Option.map_some, hfold, Nat.zero_mul, Nat.zero_add]

end Courier.Hex
