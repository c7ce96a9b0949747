import Courier.Text.Concealed

/-!
# Texts in quotes, for inspection

A text that is shown for inspection stands in double quotes. Quotes and backslashes in it are
escaped, the common controls have their letters, and any other character that would not be seen
is written by its number.
-/

namespace Courier.Text

/-- The letter that stands for a character behind a backslash, if there is one. -/
def showLetter? : Char → Option Char
  | '\x00' => some '0'
  | '\t' => some 't'
  | '\n' => some 'n'
  | '\r' => some 'r'
  | '"' => some '"'
  | '\\' => some '\\'
  | _ => none

/-- A character as it is shown between the quotes. -/
def shown (c : Char) : List Char :=
  match showLetter? c with
  | some letter => ['\\', letter]
  | none =>
    if isConcealed c then '\\' :: 'u' :: '\x7b' :: Nat.toDigits 16 c.toNat ++ ['\x7d'] else [c]

/-- A text as it is shown, in quotes. -/
def quoted (s : String) : String := String.ofList ('"' :: s.toList.flatMap shown ++ ['"'])

/-- A character as it is shown where single quotes are escaped as well. -/
def shownStrictly (c : Char) : List Char := if c = '\'' then ['\\', '\''] else shown c

/-- A text as it is shown, in double quotes, with single quotes escaped as well. -/
def quotedStrictly (s : String) : String :=
  String.ofList ('"' :: s.toList.flatMap shownStrictly ++ ['"'])

end Courier.Text
