import Courier.Json.Document

/-!
# What a document denotes

The parts of a document that are used denote truth values, numbers, strings or whole values; what
cannot be denoted is refused. A string must not hold half a surrogate pair, a number must fit its
type, and values may nest only so deep.

`Document.fields?` reads a record: an object with some of the record's fields and any others, or
an array that lists the fields in order and may leave out fields at the end.
-/

namespace Courier.Json

/-! ## Strings -/

/-- The characters that pieces of a string write. -/
def chars? : List Piece → Option (List Char)
  | [] => some []
  | .char c :: rest => (chars? rest).map (c :: ·)
  | .unit u :: rest =>
    if u < 0xd800 ∨ 0xe000 ≤ u then (chars? rest).map (Char.ofNat u :: ·)
    else
      match rest with
      | .unit v :: rest =>
        if u < 0xdc00 ∧ 0xdc00 ≤ v ∧ v < 0xe000 then
          (chars? rest).map (Char.ofNat (0x10000 + (u - 0xd800) * 0x400 + (v - 0xdc00)) :: ·)
        else none
      | _ => none

/-- The string that pieces write. -/
def string? (pieces : List Piece) : Option String := (chars? pieces).map String.ofList

/-! ## Numbers -/

/-- The number that decimal digits write. -/
def ofDigits (digits : List Char) : Nat :=
  digits.foldl (fun n c => 10 * n + (c.toNat - '0'.toNat)) 0

/-- Takes digits into a significand as long as it stays below `2 ^ 64`: the significand, and the
digits that are left. -/
def absorb (significand : Nat) : List Char → Nat × List Char
  | [] => (significand, [])
  | c :: rest =>
    let next := 10 * significand + (c.toNat - '0'.toNat)
    if next < UInt64.size then absorb next rest else (significand, c :: rest)

namespace Numeral

/-- Whether there is neither a point nor an exponent. -/
def isWhole (n : Numeral) : Bool := n.fraction.isEmpty && n.exponent.isNone

/-- The natural number, if it is written as one and without a sign. -/
def natural? (n : Numeral) : Option Nat :=
  if n.isWhole ∧ ¬ n.negative then some (ofDigits n.whole) else none

/-- The exponent as a whole number. -/
def exponentValue (n : Numeral) : Int :=
  match n.exponent with
  | none => 0
  | some (true, digits) => -(ofDigits digits : Int)
  | some (false, digits) => ofDigits digits

/-- The floating-point number, from a significand that keeps as many digits as fit into 64 bits;
`none` if it is too large. -/
def real? (n : Numeral) : Option Double :=
  let (significand, restWhole) := absorb 0 n.whole
  let (significand, restFraction) := absorb significand n.fraction
  let places := n.fraction.length - restFraction.length
  Double.ofScientific? n.negative significand (n.exponentValue + restWhole.length - places)

/-- The number: a whole number if it is written as one and fits into 64 bits, unsigned or with a
minus, else a floating-point number. -/
def number? (n : Numeral) : Option Number :=
  let magnitude := ofDigits n.whole
  if n.isWhole ∧ ¬ n.negative ∧ magnitude < UInt64.size then some (.integer magnitude)
  else if n.isWhole ∧ n.negative ∧ 0 < magnitude ∧ 2 * magnitude ≤ UInt64.size then
    some (.integer (-magnitude))
  else n.real?.map .real

end Numeral

/-! ## Values -/

/-- Puts a member at its place among members with ascending names, instead of a member with the
same name. -/
def setMember (name : String) (value : Value) : List (String × Value) → List (String × Value)
  | [] => [(name, value)]
  | (other, old) :: rest =>
    if name < other then (name, value) :: (other, old) :: rest
    else if name = other then (name, value) :: rest
    else (other, old) :: setMember name value rest

/-- The members with their names ascending; of members with one name, the last. -/
def sortMembers (members : List (String × Value)) : List (String × Value) :=
  members.foldl (fun sorted (name, value) => setMember name value sorted) []

mutual

/-- The value that a document denotes, if it nests at most `depth` arrays and objects. The members
of objects are in ascending order. -/
def Document.value? (depth : Nat) : Document → Option Value
  | .null => some .null
  | .bool b => some (.bool b)
  | .number n => n.number?.map .number
  | .string pieces => (string? pieces).map .string
  | .array items =>
    match depth with
    | 0 => none
    | depth + 1 => (itemValues? depth items).map .array
  | .object members =>
    match depth with
    | 0 => none
    | depth + 1 => (memberValues? depth members).map fun ms => .object (sortMembers ms)

/-- The values of the items of an array. -/
def itemValues? (depth : Nat) : List Document → Option (List Value)
  | [] => some []
  | item :: rest => do
    let value ← item.value? depth
    let values ← itemValues? depth rest
    some (value :: values)

/-- The names and values of the members of an object. -/
def memberValues? (depth : Nat) :
    List (List Piece × Document) → Option (List (String × Value))
  | [] => some []
  | (pieces, item) :: rest => do
    let name ← string? pieces
    let value ← item.value? depth
    let members ← memberValues? depth rest
    some ((name, value) :: members)

end

/-! ## Records -/

namespace Document

/-- The truth value. -/
def bool? : Document → Option Bool
  | .bool b => some b
  | _ => none

/-- The natural number, if it is below `bound`. -/
def naturalBelow? (bound : Nat) : Document → Option Nat
  | .number n => n.natural?.filter (· < bound)
  | _ => none

/-- The number of 64 bits. -/
def uint64? (d : Document) : Option UInt64 := (d.naturalBelow? UInt64.size).map UInt64.ofNat

/-- The number of 32 bits. -/
def uint32? (d : Document) : Option UInt32 := (d.naturalBelow? UInt32.size).map UInt32.ofNat

/-- The string. -/
def text? : Document → Option String
  | .string pieces => string? pieces
  | _ => none

/-- What `read` finds, or nothing where the document is `null`. -/
def optional? {α : Type} (read : Document → Option α) : Document → Option (Option α)
  | .null => some none
  | d => (read d).map some

/-- The members of an object with their names. -/
def namedMembers? (members : List (List Piece × Document)) : Option (List (String × Document)) :=
  members.mapM fun (pieces, value) => (string? pieces).map fun name => (name, value)

/-- The member with a name, if there is one; two are refused. -/
def theMember? (members : List (String × Document)) (name : String) : Option (Option Document) :=
  match members.filter (·.1 = name) with
  | [] => some none
  | [(_, value)] => some (some value)
  | _ => none

/-- The fields of a record, in the order of their names; a field that is left out is `none`. -/
def fields? (names : List String) : Document → Option (List (Option Document))
  | .object members => do
    let members ← namedMembers? members
    names.mapM (theMember? members)
  | .array items =>
    if items.length ≤ names.length then
      some (items.map some ++ List.replicate (names.length - items.length) none)
    else none
  | _ => none

/-- What `read` finds in a field, or the default where the field is left out. -/
def fieldOr {α : Type} (default : α) (read : Document → Option α) : Option Document → Option α
  | none => some default
  | some d => read d

end Document
end Courier.Json
