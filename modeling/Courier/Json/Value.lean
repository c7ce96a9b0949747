import Courier.Decimal.Shortest
import Courier.Text.Hex

/-!
# JSON values and their text

A `Json.Value` keeps the members of an object in the order in which they are written.
`Json.Value.render` writes a value without blanks.

In a string the quote, the backslash and the control characters are escaped, the latter by a
letter where one exists; every other character stands for itself.
-/

namespace Courier.Json

/-- A number: a whole number, or a floating-point number. -/
inductive Number where
  | integer (n : Int)
  | real (d : Double)
deriving DecidableEq

/-- A value. -/
inductive Value where
  | null
  | bool (b : Bool)
  | number (n : Number)
  | string (s : String)
  | array (items : List Value)
  | object (members : List (String × Value))

/-! ## Writing -/

/-- The text of a natural number. -/
def naturalChars (n : Nat) : List Char := Nat.toDigits 10 n

/-- The text of a number. -/
def Number.chars : Number → List Char
  | integer n => if n < 0 then '-' :: naturalChars n.natAbs else naturalChars n.natAbs
  | real d => d.render

/-- The letter that stands for a character behind a backslash, if there is one. -/
def escapeLetter? : Char → Option Char
  | '"' => some '"'
  | '\\' => some '\\'
  | '\x08' => some 'b'
  | '\x0c' => some 'f'
  | '\n' => some 'n'
  | '\r' => some 'r'
  | '\t' => some 't'
  | _ => none

/-- A character inside a string. -/
def escaped (c : Char) : List Char :=
  match escapeLetter? c with
  | some letter => ['\\', letter]
  | none =>
    if c.toNat < 0x20 then '\\' :: 'u' :: Hex.digits 4 c.toNat else [c]

/-- A string in quotes. -/
def quoted (s : String) : List Char := '"' :: s.toList.flatMap escaped ++ ['"']

mutual

/-- The text of a value. -/
def Value.chars : Value → List Char
  | .null => "null".toList
  | .bool true => "true".toList
  | .bool false => "false".toList
  | .number n => n.chars
  | .string s => quoted s
  | .array items => '[' :: itemChars items ++ [']']
  | .object members => '{' :: memberChars members ++ ['}']

/-- The texts of the items of an array, with commas between them. -/
def itemChars : List Value → List Char
  | [] => []
  | [item] => item.chars
  | item :: rest => item.chars ++ ',' :: itemChars rest

/-- The texts of the members of an object, with commas between them. -/
def memberChars : List (String × Value) → List Char
  | [] => []
  | [(name, value)] => quoted name ++ ':' :: value.chars
  | (name, value) :: rest => quoted name ++ ':' :: value.chars ++ ',' :: memberChars rest

end

/-- The text of a value. -/
def Value.render (v : Value) : String := String.ofList v.chars

/-- A natural number as a value. -/
def Value.natural (n : Nat) : Value := .number (.integer n)

/-- A value that may be absent, and is `null` then. -/
def Value.optional {α : Type} (f : α → Value) : Option α → Value
  | none => .null
  | some a => f a

end Courier.Json
