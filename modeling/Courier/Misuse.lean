import Courier.Text.Quoted

/-!
# Misuse

The operating system ends a text at the first NUL character, and the name of a variable at the
first equals sign. So some texts cannot name a thread or stand in the environment. A request with
such a text does not fail in a way that its caller can handle: it panics, with a message that
shows the text.
-/

namespace Courier

/-- What makes a request panic. -/
inductive Misuse where
  /-- The name for a thread holds a NUL character. -/
  | threadName (name : String)
  /-- The name or the value for a variable holds a NUL character. -/
  | nulInVariable (name value : String)
  /-- The name for a variable is empty or holds an equals sign. -/
  | variableName (name value : String)
deriving DecidableEq

namespace Misuse

/-- The assignment of a variable, as it is shown in a message. -/
def describeAssignment (name value : String) : String :=
  "failed to set environment variable \x60" ++ Text.quotedStrictly name ++ "\x60 to \x60" ++
    Text.quotedStrictly value ++ "\x60"

/-- The place of the first NUL among the bytes of a text, and all of its bytes. -/
def describeNul (s : String) : String :=
  let bytes := s.toUTF8.toList
  "NulError(" ++ toString (bytes.idxOf 0) ++ ", [" ++
    String.intercalate ", " (bytes.map fun byte => toString byte.toNat) ++ "])"

/-- The message of the panic. -/
def message : Misuse → String
  | threadName name => "thread name may not contain interior null bytes: " ++ describeNul name
  | nulInVariable name value =>
    describeAssignment name value ++ ": file name contained an unexpected NUL byte"
  | variableName name value =>
    describeAssignment name value ++ ": Invalid argument (os error 22)"

end Misuse

/-- Accepts a name for a thread. -/
def checkThreadName (name : String) : Except Misuse Unit :=
  if '\x00' ∈ name.toList then .error (.threadName name) else .ok ()

/-- Accepts the name and the value of a variable. A NUL character is found first. -/
def checkVariable (name value : String) : Except Misuse Unit :=
  if '\x00' ∈ name.toList ∨ '\x00' ∈ value.toList then .error (.nulInVariable name value)
  else if name = "" ∨ '=' ∈ name.toList then .error (.variableName name value)
  else .ok ()

end Courier
