import Courier.Event.Basic
import Courier.Text.Quoted

/-!
# Events, for inspection

The description of an event that shows everything but its payload, which may be of any type: the
properties field by field, and two dots where the rest is left out.
-/

namespace Courier

/-- Texts with commas between them. -/
def listed (texts : List String) : String := ", ".intercalate texts

mutual

/-- A value with the name of its shape. -/
def Json.Value.describe : Json.Value → String
  | .null => "Null"
  | .bool true => "Bool(true)"
  | .bool false => "Bool(false)"
  | .number n => "Number(" ++ String.ofList n.chars ++ ")"
  | .string s => "String(" ++ Text.quoted s ++ ")"
  | .array items => "Array [" ++ listed (Json.describeItems items) ++ "]"
  | .object members => "Object \x7b" ++ listed (Json.describeMembers members) ++ "\x7d"

/-- The items of an array. -/
def Json.describeItems : List Json.Value → List String
  | [] => []
  | item :: rest => item.describe :: Json.describeItems rest

/-- The members of an object. -/
def Json.describeMembers : List (String × Json.Value) → List String
  | [] => []
  | (name, value) :: rest =>
    (Text.quoted name ++ ": " ++ value.describe) :: Json.describeMembers rest

end

namespace Event

/-- A text that may be absent. -/
def describeText : Option String → String
  | none => "None"
  | some s => "Some(" ++ Text.quoted s ++ ")"

/-- The properties of an event, field by field. -/
def Properties.describe (p : Properties) : String :=
  "EventProperties \x7b event_id: EventId(" ++ p.id.toString ++
    "), event_at_ms: " ++ toString p.createdAtMs ++
    ", trace_id: " ++ describeText p.traceId ++
    ", event_source: " ++ describeText p.source ++
    ", event_type: " ++ describeText p.kindName ++
    ", headers: \x7b" ++ listed (Json.describeMembers p.headers) ++ "\x7d \x7d"

/-- An event without its payload. -/
def describe {α : Type} (e : Event α) : String :=
  "RawEnvelope \x7b properties: " ++ e.properties.describe ++ ", .. \x7d"

end Event
end Courier
