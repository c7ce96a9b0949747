import Courier.Event.Properties

/-!
# Events

An `Event` is a payload with its kind and its properties. `Event.ofKind?` is how a consumer that
expects one kind of payload receives an event of unknown kind.
-/

namespace Courier

/-- A payload of some kind with its properties. -/
structure Event (α : Type) where
  properties : Event.Properties
  kind : Event.Kind
  data : α

namespace Event

variable {α : Type}

/-- The identifier by which the event is acknowledged. -/
def id (e : Event α) : Id := e.properties.id

/-- An event whose kind is known. -/
def OfKind (α : Type) (k : Kind) : Type := { e : Event α // e.kind = k }

/-- The event as one of the given kind, if it is of that kind. -/
def ofKind? (e : Event α) (k : Kind) : Option (OfKind α k) :=
  if h : e.kind = k then some ⟨e, h⟩ else none

end Event
end Courier
