import Courier.Event.Basic

/-!
# Subscriptions

Handlers subscribe to one kind of payload each. The handlers of a kind are called in the order in
which they subscribed.
-/

namespace Courier

/-- How a handler ends. -/
inductive Handler.Outcome where
  | ok
  | error
  | panic
deriving DecidableEq

/-- What a handler does with an event: how often it suspends before it handles the event, and how
it ends. -/
structure Handler.Plan where
  suspensions : Nat
  outcome : Handler.Outcome
deriving DecidableEq

/-- A handler of events with payloads `α`, known by a label. -/
structure Handler (α ι : Type) where
  label : ι
  plan : α → Event.Properties → Handler.Plan

/-- A handler that does the same with every event. -/
def Handler.fixed {α ι : Type} (label : ι) (plan : Handler.Plan) : Handler α ι where
  label := label
  plan _ _ := plan

/-- The kinds and handlers of all subscriptions, in the order in which they were made. -/
structure Subscriptions (α ι : Type) where
  entries : List (Event.Kind × Handler α ι) := []

namespace Subscriptions

variable {α ι : Type}

/-- Adds a handler for a kind. -/
def subscribe (s : Subscriptions α ι) (kind : Event.Kind) (handler : Handler α ι) :
    Subscriptions α ι :=
  { entries := s.entries ++ [(kind, handler)] }

/-- The handlers of a kind. -/
def handlers (s : Subscriptions α ι) (kind : Event.Kind) : List (Handler α ι) :=
  (s.entries.filter (·.1 = kind)).map (·.2)

/-- The number of handlers of a kind. -/
def count (s : Subscriptions α ι) (kind : Event.Kind) : Nat := (s.handlers kind).length

/-- Removes every handler of a kind. The answer is their number. -/
def unsubscribeAll (s : Subscriptions α ι) (kind : Event.Kind) : Nat × Subscriptions α ι :=
  (s.count kind, { entries := s.entries.filter (·.1 ≠ kind) })

end Subscriptions
end Courier
