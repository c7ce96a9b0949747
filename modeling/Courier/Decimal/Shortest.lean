import Courier.Decimal.Double

/-!
# The shortest decimal of a floating-point number

Of the decimals that read back as a given number, `Double.shortest` picks one with the fewest
digits, and of those the nearest; an exact tie goes to the even last digit.

The decimals that read back fill an interval around the number, which reaches half way to its two
neighbours and contains its ends if the mantissa is even. For one digit, two digits and so on the
search looks at the two neighbours of the number on the grid of decimals with so many digits; the
first grid with a hit decides.
-/

namespace Courier.Double

/-- The interval of the values that round to a positive number, in units of
`2 ^ (exponent - 2)`: its lower end, the number itself and its upper end. -/
structure Interval where
  low : Nat
  middle : Nat
  high : Nat
  /-- The unit, as numerator and denominator. -/
  unit : Nat × Nat
  /-- Whether the ends belong to the interval. -/
  closed : Bool

/-- The values that round to the number. Below a power of two the neighbour is half as far. -/
def interval (d : Double) : Interval where
  low := 4 * d.mantissa - (if d.mantissa = leastFull ∧ minExponent < d.exponent then 1 else 2)
  middle := 4 * d.mantissa
  high := 4 * d.mantissa + 2
  unit := scaled 1 (d.exponent - 2)
  closed := d.mantissa % 2 = 0

/-- The fraction `n * 10 ^ e` for a whole exponent, as numerator and denominator. -/
def scaledByTen (n : Nat) (e : Int) : Nat × Nat :=
  if 0 ≤ e then (n * Nat.pow 10 e.toNat, 1) else (n, Nat.pow 10 (-e).toNat)

/-- Whether the decimal `n * 10 ^ e` lies in the interval. -/
def Interval.contains (i : Interval) (n : Nat) (e : Int) : Bool :=
  let (a, b) := scaledByTen n e
  let value := a * i.unit.2
  let low := i.low * i.unit.1 * b
  let high := i.high * i.unit.1 * b
  if i.closed then low ≤ value ∧ value ≤ high else low < value ∧ value < high

/-- The better of the two decimals around the number whose last digit stands for `10 ^ e`, if one
of them lies in the interval. -/
def Interval.onGrid? (i : Interval) (e : Int) : Option Nat :=
  let (a, b) := scaledByTen 1 e
  let num := i.middle * i.unit.1 * b
  let den := i.unit.2 * a
  let below := num / den
  match i.contains below e, i.contains (below + 1) e with
  | false, false => none
  | true, false => some below
  | false, true => some (below + 1)
  | true, true => some (roundHalfEven num den)

/-- The greatest `e` with `10 ^ e ≤ num / den`, searched downwards from `start` in at most
`steps` steps. -/
def floorLog10 (num den : Nat) (start : Int) : (steps : Nat) → Int
  | 0 => start
  | steps + 1 =>
    let (a, b) := scaledByTen den start
    if a ≤ num * b then start else floorLog10 num den (start - 1) steps

/-- The first hit on the grids with `count`, `count + 1` and so on digits, `leading` being the
exponent of the first digit: the digits as a number, and the exponent of the last one. -/
def Interval.search (i : Interval) (leading : Int) : (count grids : Nat) → Nat × Int
  | count, 0 => ((i.middle * i.unit.1) / i.unit.2, leading - count)
  | count, grids + 1 =>
    let e := leading - (count - 1 : Nat)
    match i.onGrid? e with
    | some n => (n, e)
    | none => i.search leading (count + 1) grids

/-- The shortest decimal of a positive number: its digits as a number, and the exponent of the
last digit. Seventeen digits always suffice. -/
def shortest (d : Double) : Nat × Int :=
  let i := d.interval
  let leading := floorLog10 (i.middle * i.unit.1) i.unit.2 308 640
  i.search leading 1 17

/-- A decimal with its last digit at `10 ^ e`: from `0.00001` to below `10 ^ 16` with a point and
at least one digit on each side of it, otherwise with one digit in front of the point and a
signed exponent. -/
def layout (digits : List Char) (e : Int) : List Char :=
  let leading := e + digits.length - 1
  if leading < -5 ∨ 15 < leading then
    let mantissa :=
      match digits with
      | [] => []
      | [d] => [d]
      | d :: rest => d :: '.' :: rest
    let sign := if leading < 0 then '-' else '+'
    mantissa ++ 'e' :: sign :: Nat.toDigits 10 leading.natAbs
  else if 0 ≤ e then digits ++ List.replicate e.toNat '0' ++ ['.', '0']
  else if 0 ≤ leading then
    digits.take (leading.toNat + 1) ++ '.' :: digits.drop (leading.toNat + 1)
  else '0' :: '.' :: List.replicate (-leading - 1).toNat '0' ++ digits

/-- Takes the zeros at the end of a number away, and counts them. -/
def dropZeros : (fuel n : Nat) → Nat × Nat
  | 0, n => (n, 0)
  | fuel + 1, n =>
    if n ≠ 0 ∧ n % 10 = 0 then
      let (m, zeros) := dropZeros fuel (n / 10)
      (m, zeros + 1)
    else (n, 0)

/-- The text of a number: the shortest decimal that reads back, with its sign. -/
def render (d : Double) : List Char :=
  let sign := if d.negative then ['-'] else []
  if d.mantissa = 0 then sign ++ ['0', '.', '0']
  else
    let (n, e) := d.shortest
    let (n, zeros) := dropZeros 17 n
    sign ++ layout (Nat.toDigits 10 n) (e + zeros)

end Courier.Double
