import Courier.Mailbox.Stream

/-!
# A mailbox at work

A `Session` is a mailbox with the clock it runs by and the stream that is open on it, if there is
one. `Session.serve` answers one request; while time passes, the requeue loop does its passes,
each at its own instant.
-/

namespace Courier.Mailbox

/-- A mailbox, its clock, and the stream that is open. -/
structure Session (α : Type) where
  mailbox : Mailbox α
  clock : Clock
  stream : Option Stream := none

/-- A request to a mailbox. -/
inductive Request (α : Type) where
  | post (fresh : Event.Id) (kind : Event.Kind) (data : α) (supplied : Option Event.Properties)
  | take (kind : Event.Kind)
  | takeAny
  | acknowledge (id : Event.Id)
  | returnOverdue
  | deadline (id : Event.Id)
  | dispose
  | pass (nanos : Nat)
  | settings
  /-- Open a stream, in place of one that is open. -/
  | openStream
  | cancelStream
  | pollStream

/-- The answer to a request. -/
inductive Reply (α : Type) where
  | posted (result : Except Failure (Option Event.Id))
  | taken (event : Option (Event α))
  | acknowledged (answer : Bool)
  | returned (count : Nat)
  | deadline (instant : Option Instant)
  | done
  | now (clock : Clock)
  | settings (settings : QueueSettings)
  | opened (pollInterval : Span)
  | polled (result : Stream.Polled α)
  /-- There is no stream to poll. -/
  | noStream

namespace Session

variable {α : Type}

/-- Lets time pass. -/
def pass (s : Session α) (nanos : Nat) : Session α :=
  let clock := s.clock.advance nanos
  { s with
    mailbox := (passes α).runUntil clock.monotonic s.clock.monotonic s.mailbox
    clock }

/-- Answers a request. -/
def serve (s : Session α) : Request α → Reply α × Session α
  | .post fresh kind data supplied =>
    let (result, mailbox) := s.mailbox.post s.clock fresh kind data supplied
    (.posted result, { s with mailbox })
  | .take kind =>
    let (event, mailbox) := s.mailbox.take kind s.clock.monotonic
    (.taken (event.map (·.1)), { s with mailbox })
  | .takeAny =>
    let (event, mailbox) := s.mailbox.takeAny s.clock.monotonic
    (.taken event, { s with mailbox })
  | .acknowledge id =>
    let (answer, mailbox) := s.mailbox.acknowledge id
    (.acknowledged answer, { s with mailbox })
  | .returnOverdue =>
    let (count, mailbox) := s.mailbox.returnOverdue s.clock.monotonic
    (.returned count, { s with mailbox })
  | .deadline id => (.deadline (s.mailbox.deadline? id), s)
  | .dispose => (.done, { s with mailbox := s.mailbox.dispose })
  | .pass nanos =>
    let s := s.pass nanos
    (.now s.clock, s)
  | .settings => (.settings s.mailbox.settings, s)
  | .openStream => (.opened Stream.pollInterval, { s with stream := some {} })
  | .cancelStream =>
    (.done, { s with stream := s.stream.map fun stream => { stream with cancelled := true } })
  | .pollStream =>
    match s.stream with
    | none => (.noStream, s)
    | some stream =>
      let (result, stream, mailbox) := stream.poll s.mailbox s.clock.monotonic
      (.polled result, { s with mailbox, stream })

end Session
end Courier.Mailbox
