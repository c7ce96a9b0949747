import Courier.Misuse
import Courier.Text.Alphanumeric
import Courier.Text.Blank

/-!
# Files of assignments

A file of assignments holds lines `NAME=value`, with `export` in front if one likes, blank lines
and comments behind `#`. It adds to an `Environment`: a name that is assigned already keeps its
value.

A quoted value may span several lines, which together make one logical line. In a value, single
quotes keep everything as it is; elsewhere a backslash escapes, and `$NAME` and `${NAME}` stand for
the value of a name. The first line that cannot be read ends the file.
-/

namespace Courier

/-- Names with their values; of two entries for one name the first counts. -/
abbrev Environment := List (String × String)

namespace Environment

/-- The value of a name. -/
def get? (env : Environment) (name : String) : Option String := List.lookup name env

/-- What stands behind a text and an equals sign in an entry, written `NAME=value`. Behind a name
this is its value. A text that goes on behind the equals sign of an entry must agree with the
value up to another equals sign, and the rest of the value is what stands behind it. -/
def behind? (env : Environment) (text : List Char) : Option (List Char) := do
  let value ← env.get? (String.ofList (text.takeWhile (· ≠ '=')))
  match text.dropWhile (· ≠ '=') with
  | [] => some value.toList
  | _ :: beyond => List.isPrefixOf? (beyond ++ ['=']) value.toList

/-- Assigns a value to a name that has none. -/
def setDefault (env : Environment) (name value : String) : Except Misuse Environment :=
  if (env.get? name).isSome then .ok env
  else do
    checkVariable name value
    return env ++ [(name, value)]

/-- The environment with the given entries. -/
def ofList (entries : List (String × String)) : Except Misuse Environment :=
  entries.foldlM (fun env (name, value) => env.setDefault name value) []

end Environment

namespace EnvFile

/-! ## Logical lines -/

/-- What the characters read so far leave open. -/
inductive Openness where
  /-- Nothing. -/
  | closed
  /-- A blank was last, so that a comment may begin. -/
  | afterBlank
  | escape
  | singleQuote
  | singleQuoteEscape
  | doubleQuote
  | doubleQuoteEscape
deriving DecidableEq

/-- What a character outside of quotes leaves open. -/
def Openness.opens : Char → Openness
  | '\\' => .escape
  | '"' => .doubleQuote
  | '\'' => .singleQuote
  | _ => .closed

/-- What the next character leaves open; `none` if it begins a comment. -/
def Openness.next? (o : Openness) (c : Char) : Option Openness :=
  match o with
  | .closed =>
    if Text.isBlank c ∧ c ≠ '\n' ∧ c ≠ '\r' then some .afterBlank else some (opens c)
  | .afterBlank => if c = '#' then none else some (opens c)
  | .escape => some .closed
  | .singleQuote =>
    some (if c = '\\' then .singleQuoteEscape else if c = '\'' then .closed else .singleQuote)
  | .singleQuoteEscape => some .singleQuote
  | .doubleQuote =>
    some (if c = '\\' then .doubleQuoteEscape else if c = '"' then .closed else .doubleQuote)
  | .doubleQuoteEscape => some .doubleQuote

/-- Follows a physical line: its text up to a comment, and what it leaves open; `none` if it ends
in a comment. -/
def follow (o : Openness) : List Char → List Char × Option Openness
  | [] => ([], some o)
  | c :: rest =>
    match o.next? c with
    | none => ([], none)
    | some o =>
      let (kept, final) := follow o rest
      (c :: kept, final)

/-- The physical lines of a text, each with its line feed. -/
def physicalLines : List Char → List (List Char)
  | [] => []
  | '\n' :: rest => ['\n'] :: physicalLines rest
  | c :: rest =>
    match physicalLines rest with
    | [] => [[c]]
    | line :: lines => (c :: line) :: lines

/-- A line without the line feed, or carriage return and line feed, at its end. -/
def dropLineEnd (line : List Char) : List Char :=
  match line.reverse with
  | '\n' :: '\r' :: rest => rest.reverse
  | '\n' :: rest => rest.reverse
  | _ => line

/-- Joins physical lines to logical ones, `begun` being a logical line that is still open. A line
that is open at the end of the text is `none`. -/
def logicalLines (begun : List Char) (o : Openness) :
    List (List Char) → List (Option (List Char))
  | [] => if o = .closed then [] else [none]
  | line :: rest =>
    let whole := begun ++ line
    if (Text.trimStart whole).head? = some '#' then some [] :: logicalLines [] .closed rest
    else
      match follow o line with
      | (kept, none) => some (begun ++ kept) :: logicalLines [] .closed rest
      | (_, some .closed) => some (dropLineEnd whole) :: logicalLines [] .closed rest
      | (_, some o) => logicalLines whole o rest

/-! ## Values -/

/-- The values that names stand for while a file is read: what stands behind them in the environment
first, then what the file has assigned. -/
structure Names where
  env : Environment
  assigned : Environment

/-- The value that a name stands for; an unknown one stands for nothing. -/
def Names.value (names : Names) (name : List Char) : List Char :=
  match names.env.behind? name with
  | some value => value
  | none => ((names.assigned.get? (String.ofList name)).map String.toList).getD []

/-- How a character of a value is read. -/
inductive Mode where
  | plain
  | doubleQuote
  | singleQuote
  /-- Behind a backslash; the flag says whether in double quotes. -/
  | escape (quoted : Bool)
  /-- In a name behind `$`, whose characters so far are given. -/
  | name (quoted : Bool) (read : List Char)
  /-- In a name in braces. -/
  | bracedName (quoted : Bool) (read : List Char)
  /-- Behind the value, where only a comment may follow. -/
  | finished

/-- The mode outside of names and escapes. -/
def Mode.base (quoted : Bool) : Mode := if quoted then .doubleQuote else .plain

/-- The character that a character behind a backslash stands for. -/
def unescape? (c : Char) : Option Char :=
  if c = '\\' ∨ c = '\'' ∨ c = '"' ∨ c = '$' ∨ c = ' ' then some c
  else if c = 'n' then some '\n'
  else none

/-- Reads a value. A character that ends a name behind `$` stands for itself. -/
def readValue? (names : Names) : Mode → List Char → Option (List Char)
  | .plain, [] | .finished, [] | .escape false, [] => some []
  | .name false read, [] => some (names.value read)
  | .singleQuote, [] | .doubleQuote, [] | .escape true, [] | .name true _, []
  | .bracedName _ _, [] => none
  | .finished, c :: rest =>
    if c = ' ' ∨ c = '\t' then readValue? names .finished rest
    else if c = '#' then some []
    else none
  | .escape quoted, c :: rest => do
    let c ← unescape? c
    let value ← readValue? names (.base quoted) rest
    some (c :: value)
  | .singleQuote, c :: rest =>
    if c = '\'' then readValue? names .plain rest
    else (readValue? names .singleQuote rest).map (c :: ·)
  | .name quoted read, c :: rest =>
    if Text.isAlphanumeric c then readValue? names (.name quoted (read ++ [c])) rest
    else if c = '\x7b' ∧ read = [] then readValue? names (.bracedName quoted []) rest
    else if c = '$' then
      (readValue? names (.name quoted []) rest).map (names.value read ++ ·)
    else (readValue? names (.base quoted) rest).map (names.value read ++ c :: ·)
  | .bracedName quoted read, c :: rest =>
    if c = '\x7d' then (readValue? names (.base quoted) rest).map (names.value read ++ ·)
    else readValue? names (.bracedName quoted (read ++ [c])) rest
  | .doubleQuote, c :: rest =>
    if c = '$' then readValue? names (.name true []) rest
    else if c = '"' then readValue? names .plain rest
    else if c = '\\' then readValue? names (.escape true) rest
    else (readValue? names .doubleQuote rest).map (c :: ·)
  | .plain, c :: rest =>
    if c = '$' then readValue? names (.name false []) rest
    else if c = '\'' then readValue? names .singleQuote rest
    else if c = '"' then readValue? names .doubleQuote rest
    else if c = '\\' then readValue? names (.escape false) rest
    else if c = ' ' ∨ c = '\t' then readValue? names .finished rest
    else (readValue? names .plain rest).map (c :: ·)

/-! ## Assignments -/

/-- Reads a name: a letter or underscore, then letters, digits, underscores and points. -/
def readName? (text : List Char) : Option (List Char × List Char) :=
  match text with
  | [] => none
  | c :: _ =>
    if c.isAlpha ∨ c = '_' then
      some (text.span fun c => c.isAlphanum || c == '_' || c == '.')
    else none

/-- Takes away the equals sign, and the white space behind it. -/
def skipEquals? : List Char → Option (List Char)
  | '=' :: rest => some (Text.trimStart rest)
  | _ => none

/-- Reads the name of an assignment and what follows the equals sign. The word `export` in front
of a name does not count; in front of an equals sign it is a name. -/
def readTarget? (text : List Char) : Option (String × List Char) := do
  let (name, rest) ← readName? text
  let rest := Text.trimStart rest
  match skipEquals? rest with
  | some value => some (String.ofList name, value)
  | none =>
    if name = "export".toList then
      let (name, rest) ← readName? rest
      let value ← skipEquals? (Text.trimStart rest)
      some (String.ofList name, value)
    else none

/-- What a logical line does. -/
inductive Line where
  | blank
  | assignment (name value : String)
  | unreadable

/-- Whether nothing or a comment is left of a line. -/
def isOver (text : List Char) : Bool := text.isEmpty || text.head? == some '#'

/-- Reads a logical line. -/
def readLine (names : Names) (line : List Char) : Line :=
  let text := Text.trim line
  if isOver text then .blank
  else
    match readTarget? text with
    | none => .unreadable
    | some (name, rest) =>
      if isOver rest then .assignment name ""
      else
        match readValue? names .plain rest with
        | some value => .assignment name (String.ofList value)
        | none => .unreadable

/-- Adds the assignments of logical lines to an environment, up to the first that cannot be
read. -/
def loadLines (env assigned : Environment) :
    List (Option (List Char)) → Except Misuse Environment
  | [] => .ok env
  | none :: _ => .ok env
  | some line :: rest =>
    match readLine ⟨env, assigned⟩ line with
    | .blank => loadLines env assigned rest
    | .unreadable => .ok env
    | .assignment name value => do
      let env ← env.setDefault name value
      loadLines env ((name, value) :: assigned) rest

/-- Adds the assignments of a file to an environment. A byte order mark at its beginning does not
count. -/
def load (env : Environment) (text : String) : Except Misuse Environment :=
  let cs :=
    match text.toList with
    | '\ufeff' :: rest => rest
    | cs => cs
  loadLines env [] (logicalLines [] .closed (physicalLines cs))

end EnvFile
end Courier
