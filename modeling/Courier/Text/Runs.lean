/-!
# Sets of characters as runs

A set of code points can be written as the lengths of runs that lie alternately outside and
inside of it, the first one outside and beginning at zero. What lies behind the last run is
outside.
-/

namespace Courier.Text

/-- Whether the number `n` lies in the runs, the next of which is `inside` the set or outside. -/
def inRuns (inside : Bool) : List Nat → Nat → Bool
  | [], _ => false
  | length :: rest, n => if n < length then inside else inRuns (!inside) rest (n - length)

/-- Whether a character is in the set with the given runs. -/
def isIn (runs : List Nat) (c : Char) : Bool := inRuns false runs c.toNat

end Courier.Text
