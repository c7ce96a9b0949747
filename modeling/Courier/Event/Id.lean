import Courier.Text.Hex

/-!
# Event identifiers

An event is known by 128 bits. They are written as 32 hexadecimal digits in the groups
8-4-4-4-12; the reader also takes the digits without hyphens, the groups in braces, and the
groups behind `urn:uuid:`, and digits and that word in either case.
-/

namespace Courier.Event

/-- The 128 bits by which an event is known. -/
structure Id where
  bits : BitVec 128
deriving DecidableEq

namespace Id

/-- Identifiers are ordered by the number that their bits write. -/
instance : LE Id := ⟨fun a b => a.bits.toNat ≤ b.bits.toNat⟩
instance : LT Id := ⟨fun a b => a.bits.toNat < b.bits.toNat⟩
instance (a b : Id) : Decidable (a ≤ b) := Nat.decLe a.bits.toNat b.bits.toNat
instance (a b : Id) : Decidable (a < b) := Nat.decLt a.bits.toNat b.bits.toNat

/-- The identifier with the number `n`. -/
def ofNat (n : Nat) : Id := ⟨BitVec.ofNat 128 n⟩

/-! ## Writing -/

/-- The numbers of digits in front of the hyphens. -/
def groups : List Nat := [8, 4, 4, 4]

/-- Puts a hyphen behind each group of digits. -/
def hyphenate : List Nat → List Char → List Char
  | [], digits => digits
  | n :: rest, digits => digits.take n ++ '-' :: hyphenate rest (digits.drop n)

/-- The written form: 32 lower-case digits in five groups. -/
def toString (id : Id) : String :=
  String.ofList (hyphenate groups (Hex.digits 32 id.bits.toNat))

instance : ToString Id := ⟨Id.toString⟩

/-! ## Reading -/

/-- Reads exactly 32 hexadecimal digits. -/
def ofPlain? (text : List Char) : Option Id :=
  if text.length = 32 then (Hex.ofDigits? text).map ofNat else none

/-- Takes away the hyphen behind each group, or fails if one is missing there. -/
def unhyphenate? : List Nat → List Char → Option (List Char)
  | [], text => some text
  | n :: rest, text =>
    match text.drop n with
    | '-' :: tail => (unhyphenate? rest tail).map (text.take n ++ ·)
    | _ => none

/-- Reads 32 hexadecimal digits in five groups. -/
def ofGroups? (text : List Char) : Option Id := (unhyphenate? groups text).bind ofPlain?

/-- Reads the five groups between braces. -/
def ofBraced? : List Char → Option Id
  | '\x7b' :: rest => if rest.getLast? = some '\x7d' then ofGroups? rest.dropLast else none
  | _ => none

/-- The word in front of an identifier that is written as a resource name. -/
def resourceName : List Char := "urn:uuid:".toList

/-- Reads the five groups behind the word of a resource name. -/
def ofResourceName? (text : List Char) : Option Id :=
  if (text.take resourceName.length).map Char.toLower = resourceName then
    ofGroups? (text.drop resourceName.length)
  else none

/-- Reads an identifier in any of its four forms. -/
def parse? (text : String) : Option Id :=
  let cs := text.toList
  ofPlain? cs <|> ofGroups? cs <|> ofBraced? cs <|> ofResourceName? cs

/-- Identifiers in ascending order. -/
def sort (ids : List Id) : List Id := ids.mergeSort fun a b => decide (a ≤ b)

end Id
end Courier.Event
