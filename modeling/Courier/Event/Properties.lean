import Courier.Event.Id
import Courier.Json.Decode

/-!
# Event properties

What travels with the payload of an event: its identifier, the time of its creation, where it
comes from, the name of its kind, and free headers.

Properties may be incomplete when an event is handed in. `Properties.complete` fills in the time
and the kind, and leaves everything else as it is.
-/

namespace Courier.Event

open Json (Value Document)

/-- The kind of a payload, known by its name. -/
structure Kind where
  name : String
deriving DecidableEq

/-- What travels with the payload of an event. -/
structure Properties where
  id : Id
  /-- The time of creation in milliseconds since the epoch; zero stands for none. -/
  createdAtMs : Nat
  traceId : Option String := none
  source : Option String := none
  /-- The name of the payload's kind. -/
  kindName : Option String := none
  /-- Headers in the order in which they were first set; every name occurs once. -/
  headers : List (String × Value) := []

namespace Properties

/-- Properties with a given identifier, created at a given time of day. -/
def create (id : Id) (nowMs : Nat) : Properties := { id, createdAtMs := nowMs }

/-- Sets one entry of a list of names and values. -/
def setEntry (name : String) (value : Value) : List (String × Value) → List (String × Value)
  | [] => [(name, value)]
  | (other, old) :: rest =>
    if other = name then (name, value) :: rest else (other, old) :: setEntry name value rest

/-- Sets a header. -/
def withHeader (p : Properties) (name : String) (value : Value) : Properties :=
  { p with headers := setEntry name value p.headers }

/-- Fills in the time if there is none, and the name of the kind if it is absent. -/
def complete (p : Properties) (kind : Kind) (nowMs : Nat) : Properties :=
  { p with
    createdAtMs := if p.createdAtMs = 0 then nowMs else p.createdAtMs
    kindName := some (p.kindName.getD kind.name) }

/-! ## JSON -/

/-- The names of the fields, in the order in which they are written. -/
def fieldNames : List String :=
  ["event_id", "event_at_ms", "trace_id", "event_source", "event_type", "headers"]

/-- Properties as a value. -/
def toValue (p : Properties) : Value :=
  .object [
    ("event_id", .string p.id.toString),
    ("event_at_ms", .natural p.createdAtMs),
    ("trace_id", .optional .string p.traceId),
    ("event_source", .optional .string p.source),
    ("event_type", .optional .string p.kindName),
    ("headers", .object p.headers)]

/-- An identifier, written in any of its forms. -/
def idOfDocument? (d : Document) : Option Id := d.text?.bind Id.parse?

/-- How many arrays and objects a value among the headers may nest: together with the properties
and the headers themselves, 127. -/
def headerDepth : Nat := 125

/-- Headers, which are the members of an object; of headers with one name, the last. -/
def headersOfDocument? : Document → Option (List (String × Value))
  | .object members => do
    let members ← Json.memberValues? headerDepth members
    some (members.foldl (fun headers (name, value) => setEntry name value headers) [])
  | _ => none

/-- The bound on times of creation, `2 ^ 128`. -/
def timeBound : Nat := 340282366920938463463374607431768211456

/-- Properties from a record that has at least an identifier and a time. -/
def ofDocument? (d : Document) : Option Properties :=
  match d.fields? fieldNames with
  | some [some id, some createdAtMs, traceId, source, kindName, headers] => do
    some {
      id := ← idOfDocument? id
      createdAtMs := ← createdAtMs.naturalBelow? timeBound
      traceId := ← Document.fieldOr none (·.optional? (·.text?)) traceId
      source := ← Document.fieldOr none (·.optional? (·.text?)) source
      kindName := ← Document.fieldOr none (·.optional? (·.text?)) kindName
      headers := ← Document.fieldOr [] headersOfDocument? headers }
  | _ => none

/-- The properties that a JSON text writes. -/
def parse? (text : String) : Option Properties := (Document.read? text).bind ofDocument?

end Properties
end Courier.Event
