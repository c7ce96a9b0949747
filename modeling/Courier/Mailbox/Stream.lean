import Courier.Mailbox.Basic

/-!
# Streams of events

A `Stream` takes the events of a mailbox one after the other. Each poll takes at most one. A poll
that finds nothing puts the stream to sleep for `Stream.pollInterval`, and until then further
polls do not look. Cancelling ends the stream at its next poll, asleep or not.
-/

namespace Courier

/-- A stream over the events of a mailbox. -/
structure Stream where
  cancelled : Bool := false
  /-- When the stream looks again, if its last look was in vain. -/
  asleepUntil : Option Instant := none
deriving DecidableEq

namespace Stream

/-- How long a stream sleeps after it has found nothing. -/
def pollInterval : Span := .ofMillis 200

/-- What a poll brings. -/
inductive Polled (α : Type) where
  | event (e : Event α)
  | pending
  | ended

/-- Whether the stream does not look before a later instant. -/
def sleeps (s : Stream) (now : Instant) : Bool :=
  match s.asleepUntil with
  | none => false
  | some t => now < t

/-- Polls the stream. A stream that has ended is gone. -/
def poll {α : Type} (s : Stream) (m : Mailbox α) (now : Instant) :
    Polled α × Option Stream × Mailbox α :=
  if s.cancelled then (.ended, none, m)
  else if s.sleeps now then (.pending, some s, m)
  else
    match m.takeAny now with
    | (some e, m) => (.event e, some { s with asleepUntil := none }, m)
    | (none, m) => (.pending, some { s with asleepUntil := some (now.after pollInterval) }, m)

end Stream
end Courier
