import Courier.Json.Value
import Courier.Text.Hex

/-!
# JSON documents

A `Document` is a JSON text taken apart, with numbers and strings as they are written: a number
may have any size, and an escape in a string may name half of a surrogate pair. So every text
that follows the grammar has a document, at any depth, and what a part of it denotes is asked
only where that part is used.

`Document.read?` follows the grammar strictly: blanks are space, tab, line feed and carriage
return, and nothing but blanks may follow the value.
-/

namespace Courier.Json

/-- A number as it is written. -/
structure Numeral where
  negative : Bool
  /-- The digits in front of the point. -/
  whole : List Char
  /-- The digits behind the point; without a point, none. -/
  fraction : List Char
  /-- The sign and the digits of the exponent, if there is one; `true` stands for a minus. -/
  exponent : Option (Bool × List Char)
deriving DecidableEq

/-- A piece of a string as it is written: a character, or a code unit named by its number. -/
inductive Piece where
  | char (c : Char)
  | unit (number : Nat)
deriving DecidableEq

/-- A JSON text taken apart. -/
inductive Document where
  | null
  | bool (b : Bool)
  | number (n : Numeral)
  | string (pieces : List Piece)
  | array (items : List Document)
  | object (members : List (List Piece × Document))

/-! ## Reading -/

/-- Whether a character may stand between two tokens. -/
def isBlank (c : Char) : Bool := c = ' ' ∨ c = '\t' ∨ c = '\n' ∨ c = '\r'

/-- The text without the blanks at its beginning. -/
def skipBlanks (text : List Char) : List Char := text.dropWhile isBlank

/-- The digits at the beginning of a text, and the rest. -/
def spanDigits (text : List Char) : List Char × List Char := text.span Char.isDigit

/-- The character that a letter behind a backslash stands for. -/
def unescapeLetter? : Char → Option Char
  | '"' => some '"'
  | '\\' => some '\\'
  | '/' => some '/'
  | 'b' => some '\x08'
  | 'f' => some '\x0c'
  | 'n' => some '\n'
  | 'r' => some '\r'
  | 't' => some '\t'
  | _ => none

/-- Reads a string behind its opening quote. -/
def readString : List Char → Option (List Piece × List Char)
  | [] => none
  | '"' :: rest => some ([], rest)
  | '\\' :: 'u' :: a :: b :: c :: d :: rest => do
    let unit ← Hex.ofDigits? [a, b, c, d]
    let (pieces, rest) ← readString rest
    some (.unit unit :: pieces, rest)
  | '\\' :: letter :: rest => do
    let c ← unescapeLetter? letter
    let (pieces, rest) ← readString rest
    some (.char c :: pieces, rest)
  | c :: rest =>
    if c.toNat < 0x20 ∨ c = '\\' then none
    else do
      let (pieces, rest) ← readString rest
      some (.char c :: pieces, rest)

/-- Reads the point of a number and the digits behind it, if there is a point. -/
def readFraction : List Char → Option (List Char × List Char)
  | '.' :: rest =>
    let (digits, rest) := spanDigits rest
    if digits.isEmpty then none else some (digits, rest)
  | rest => some ([], rest)

/-- Reads the digits of an exponent. -/
def readExponentDigits (negative : Bool) (text : List Char) :
    Option (Option (Bool × List Char) × List Char) :=
  let (digits, rest) := spanDigits text
  if digits.isEmpty then none else some (some (negative, digits), rest)

/-- Reads the exponent of a number, if there is one. -/
def readExponent : List Char → Option (Option (Bool × List Char) × List Char)
  | [] => some (none, [])
  | e :: rest =>
    if e = 'e' ∨ e = 'E' then
      match rest with
      | '-' :: rest => readExponentDigits true rest
      | '+' :: rest => readExponentDigits false rest
      | rest => readExponentDigits false rest
    else some (none, e :: rest)

/-- Reads a number behind its sign. A zero in front stands alone. -/
def readUnsigned (negative : Bool) (text : List Char) : Option (Numeral × List Char) := do
  let (whole, rest) := spanDigits text
  if whole.isEmpty ∨ (whole.head? = some '0' ∧ whole.length ≠ 1) then none
  else
    let (fraction, rest) ← readFraction rest
    let (exponent, rest) ← readExponent rest
    some ({ negative, whole, fraction, exponent }, rest)

/-- Reads a number. -/
def readNumeral : List Char → Option (Numeral × List Char)
  | '-' :: rest => readUnsigned true rest
  | text => readUnsigned false text

mutual

/-- Reads a value with the blanks in front of it, in at most `steps` steps. -/
def readValue : (steps : Nat) → List Char → Option (Document × List Char)
  | 0, _ => none
  | steps + 1, text =>
    match skipBlanks text with
    | 'n' :: 'u' :: 'l' :: 'l' :: rest => some (.null, rest)
    | 't' :: 'r' :: 'u' :: 'e' :: rest => some (.bool true, rest)
    | 'f' :: 'a' :: 'l' :: 's' :: 'e' :: rest => some (.bool false, rest)
    | '"' :: rest => (readString rest).map fun (pieces, rest) => (.string pieces, rest)
    | '[' :: rest =>
      match skipBlanks rest with
      | ']' :: rest => some (.array [], rest)
      | rest => (readItems steps rest).map fun (items, rest) => (.array items, rest)
    | '\x7b' :: rest =>
      match skipBlanks rest with
      | '\x7d' :: rest => some (.object [], rest)
      | rest => (readMembers steps rest).map fun (members, rest) => (.object members, rest)
    | text => (readNumeral text).map fun (n, rest) => (.number n, rest)

/-- Reads the items of an array that are left, at least one, and the closing bracket. -/
def readItems : (steps : Nat) → List Char → Option (List Document × List Char)
  | 0, _ => none
  | steps + 1, text => do
    let (item, rest) ← readValue steps text
    match skipBlanks rest with
    | ',' :: rest =>
      let (items, rest) ← readItems steps rest
      some (item :: items, rest)
    | ']' :: rest => some ([item], rest)
    | _ => none

/-- Reads the members of an object that are left, at least one, and the closing brace. -/
def readMembers : (steps : Nat) → List Char → Option (List (List Piece × Document) × List Char)
  | 0, _ => none
  | steps + 1, text =>
    match skipBlanks text with
    | '"' :: rest => do
      let (name, rest) ← readString rest
      match skipBlanks rest with
      | ':' :: rest =>
        let (value, rest) ← readValue steps rest
        match skipBlanks rest with
        | ',' :: rest =>
          let (members, rest) ← readMembers steps rest
          some ((name, value) :: members, rest)
        | '\x7d' :: rest => some ([(name, value)], rest)
        | _ => none
      | _ => none
    | _ => none

end

/-- The document that a text writes. Each character costs at most two steps. -/
def Document.read? (text : String) : Option Document :=
  let cs := text.toList
  match readValue (2 * cs.length + 2) cs with
  | some (document, rest) => if (skipBlanks rest).isEmpty then some document else none
  | none => none

end Courier.Json
