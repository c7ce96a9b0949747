import Courier.Broker.Rounds
import Courier.Mailbox.Session

/-!
# Brokers

A `Broker` brings events to the handlers that have subscribed to their kind, either at once or by
way of a mailbox. Publishing an event runs its handlers and leaves the mailbox alone; an event
from the mailbox is dispatched to the same handlers, and stays in flight until it is acknowledged.
-/

namespace Courier

/-- Subscriptions, and a mailbox for the events that wait. -/
structure Broker (α ι : Type) where
  inbox : Mailbox.Session α
  subscriptions : Subscriptions α ι := {}

namespace Broker

variable {α ι : Type}

/-- Runs the handlers of a kind on a payload with the given properties, completed. The answer says
whether there was a handler; after a panic there is none. -/
def publish (b : Broker α ι) (fresh : Event.Id) (kind : Event.Kind) (data : α)
    (supplied : Option Event.Properties) : List (Call α ι) × Option Bool :=
  let properties := Mailbox.postedProperties b.inbox.clock fresh kind supplied
  let (calls, report) := runHandlers (b.subscriptions.handlers kind) data properties
  (calls, report.map Report.handled)

/-- Runs the handlers of an event's kind on it. -/
def dispatch (b : Broker α ι) (e : Event α) : List (Call α ι) × Option Report :=
  runHandlers (b.subscriptions.handlers e.kind) e.data e.properties

/-- What came of an event from the mailbox. -/
inductive Dispatched where
  /-- There was no event of the kind. -/
  | nothing
  /-- A handler panicked. -/
  | panicked
  | done (report : Report) (acknowledged : Bool)

/-- Takes the oldest event of a kind out of the mailbox and dispatches it. If every handler
succeeds and the caller wishes so, it is acknowledged. -/
def dispatchNext (b : Broker α ι) (kind : Event.Kind) (acknowledge : Bool) :
    List (Call α ι) × Dispatched × Broker α ι :=
  match b.inbox.mailbox.take kind b.inbox.clock.monotonic with
  | (none, _) => ([], .nothing, b)
  | (some e, mailbox) =>
    let b := { b with inbox := { b.inbox with mailbox } }
    match b.dispatch e.1 with
    | (calls, none) => (calls, .panicked, b)
    | (calls, some report) =>
      if acknowledge ∧ report.allSucceeded then
        let (answer, mailbox) := mailbox.acknowledge e.1.id
        (calls, .done report answer, { b with inbox := { b.inbox with mailbox } })
      else (calls, .done report false, b)

/-- A request to a broker. -/
inductive Request (α ι : Type) where
  | subscribe (kind : Event.Kind) (handler : Handler α ι)
  | unsubscribeAll (kind : Event.Kind)
  | handlerCount (kind : Event.Kind)
  | publish (fresh : Event.Id) (kind : Event.Kind) (data : α)
      (supplied : Option Event.Properties)
  | dispatchNext (kind : Event.Kind) (acknowledge : Bool)
  /-- A request to the mailbox. -/
  | inbox (request : Mailbox.Request α)

/-- The answer to a request. -/
inductive Reply (α : Type) where
  | count (count : Nat)
  /-- Whether a published event was handled; `none` after a panic. -/
  | published (handled : Option Bool)
  | dispatched (result : Dispatched)
  | inbox (reply : Mailbox.Reply α)

/-- Answers a request. Besides the answer there is what handlers did. -/
def serve (b : Broker α ι) : Request α ι → List (Call α ι) × Reply α × Broker α ι
  | .subscribe kind handler =>
    let subscriptions := b.subscriptions.subscribe kind handler
    ([], .count (subscriptions.count kind), { b with subscriptions })
  | .unsubscribeAll kind =>
    let (count, subscriptions) := b.subscriptions.unsubscribeAll kind
    ([], .count count, { b with subscriptions })
  | .handlerCount kind => ([], .count (b.subscriptions.count kind), b)
  | .publish fresh kind data supplied =>
    let (calls, handled) := b.publish fresh kind data supplied
    (calls, .published handled, b)
  | .dispatchNext kind acknowledge =>
    let (calls, result, b) := b.dispatchNext kind acknowledge
    (calls, .dispatched result, b)
  | .inbox request =>
    let (reply, inbox) := b.inbox.serve request
    ([], .inbox reply, { b with inbox })

end Broker
end Courier
