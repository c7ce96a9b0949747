/-!
# Floating-point numbers of 53 bits

A `Double` is a finite binary floating-point number: a sign, a whole mantissa below `2 ^ 53` and
an exponent of two between `-1074` and `971`. `Double.nearest?` rounds a fraction of natural
numbers to such a number, a tie to the even mantissa; `Double.ofScientific?` reads a decimal.
-/

namespace Courier

/-- The finite number `± mantissa * 2 ^ exponent`. -/
structure Double where
  negative : Bool
  mantissa : Nat
  exponent : Int
deriving DecidableEq

namespace Double

/-- The least mantissa with 53 binary digits, `2 ^ 52`. -/
def leastFull : Nat := 4503599627370496

/-- The least exponent of two. -/
def minExponent : Int := -1074

/-- The greatest exponent of two. -/
def maxExponent : Int := 971

/-- The fraction `n * 2 ^ e` for a whole exponent, as numerator and denominator. -/
def scaled (n : Nat) (e : Int) : Nat × Nat :=
  if 0 ≤ e then (n * Nat.pow 2 e.toNat, 1) else (n, Nat.pow 2 (-e).toNat)

/-- The whole number nearest to `num / den`; a half goes to the even neighbour. -/
def roundHalfEven (num den : Nat) : Nat :=
  let q := num / den
  let r := num % den
  if 2 * r < den then q
  else if den < 2 * r then q + 1
  else if q % 2 = 0 then q else q + 1

/-- The greatest `e` with `2 ^ e ≤ num / den`, for positive `num` and `den`. -/
def floorLog2 (num den : Nat) : Int :=
  let e : Int := (num.log2 : Int) - den.log2
  let (a, b) := scaled den e
  if a ≤ num * b then e else e - 1

/-- The number nearest to `num / den`, or `none` if it is too large. -/
def nearest? (negative : Bool) (num den : Nat) : Option Double :=
  if num = 0 then some ⟨negative, 0, minExponent⟩
  else
    let e := max (floorLog2 num den - 52) minExponent
    let (a, b) := scaled den e
    let m := roundHalfEven (num * b) a
    let (m, e) := if m = 2 * leastFull then (leastFull, e + 1) else (m, e)
    if maxExponent < e then none else some ⟨negative, m, e⟩

/-- The magnitude as numerator and denominator. -/
def ratio (d : Double) : Nat × Nat := scaled d.mantissa d.exponent

/-- The number nearest to a positive power of ten, as numerator and denominator. -/
def powerOfTen (k : Nat) : Nat × Nat :=
  match nearest? false (Nat.pow 10 k) 1 with
  | some d => d.ratio
  | none => (Nat.pow 10 k, 1)

/-- The product of a number and `10 ^ k`, rounded once. -/
def timesPowerOfTen? (d : Double) (k : Nat) : Option Double :=
  let (n, m) := d.ratio
  let (a, b) := powerOfTen k
  nearest? d.negative (n * a) (m * b)

/-- The quotient of a number and `10 ^ k`, rounded once. -/
def overPowerOfTen? (d : Double) (k : Nat) : Option Double :=
  let (n, m) := d.ratio
  let (a, b) := powerOfTen k
  nearest? d.negative (n * b) (m * a)

/-- The greatest power of ten below the greatest number. -/
def maxPower : Nat := 308

/-- Reads `± significand * 10 ^ exponent`: the significand is rounded first, then its product or
quotient with the power of ten. A result that is too large is refused, one that is too small is
zero. -/
def ofScientific? (negative : Bool) (significand : Nat) (exponent : Int) : Option Double := do
  let d ← nearest? negative significand 1
  if d.mantissa = 0 then some d
  else if 0 ≤ exponent then
    if (maxPower : Int) < exponent then none else d.timesPowerOfTen? exponent.toNat
  else
    let k := (-exponent).toNat
    if k ≤ maxPower then d.overPowerOfTen? k
    else if k ≤ 2 * maxPower then (← d.overPowerOfTen? maxPower).overPowerOfTen? (k - maxPower)
    else some ⟨negative, 0, minExponent⟩

end Double
end Courier
