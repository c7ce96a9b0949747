/-!
# Hexadecimal digits

Numbers are written with lower-case digits, most significant digit first, and read with digits in
either case.
-/

namespace Courier.Hex

/-- The last `places` hexadecimal digits of a number. -/
def digits : (places n : Nat) → List Char
  | 0, _ => []
  | places + 1, n => Nat.digitChar (n / Nat.pow 16 places % 16) :: digits places n

/-- The value of a digit. -/
def value? (c : Char) : Option Nat :=
  if c.isDigit then some (c.toNat - '0'.toNat)
  else if 'a' ≤ c ∧ c ≤ 'f' then some (c.toNat - 'a'.toNat + 10)
  else if 'A' ≤ c ∧ c ≤ 'F' then some (c.toNat - 'A'.toNat + 10)
  else none

/-- The number that digits write. -/
def ofDigits? (cs : List Char) : Option Nat :=
  (cs.mapM value?).map fun values => values.foldl (fun n v => 16 * n + v) 0

end Courier.Hex
