import Courier.Collector.Cycle

/-!
# A collector at work

A `Session` is a collector with the clock it runs by. A request is answered at once, and then
every tick that is due runs; while time passes, each tick runs at its own instant.
-/

namespace Courier.Collector

/-- A collector and its clock. -/
structure Session (α σ : Type) where
  collector : Collector α σ
  clock : Clock
  /-- Whether the collector has been dropped, and only its journal is left. -/
  dropped : Bool := false

/-- A request to a collector. -/
inductive Request (α : Type) where
  | emit (item : α)
  | pass (nanos : Nat)
  | dispose
  | drop

/-- The answer to a request. -/
inductive Answer where
  | emitted (result : Except Failure Bool)
  | now (clock : Clock)
  | done
  | dropped

/-- The entries of the journal beyond the first `count`, earliest first. -/
def entriesSince {α σ : Type} (c : Collector α σ) (count : Nat) : List (Entry α) :=
  (c.journal.take (c.journal.length - count)).reverse

namespace Session

variable {α σ : Type} (S : Sink α σ)

/-- Lets time pass. -/
def pass (s : Session α σ) (nanos : Nat) : Session α σ :=
  let clock := s.clock.advance nanos
  { s with
    collector := (ticks S).runUntil clock.monotonic s.clock.monotonic s.collector
    clock }

/-- Runs every tick that is due. -/
def settle (s : Session α σ) : Session α σ := s.pass S 0

/-- Answers a request and runs what is due. -/
def serve (s : Session α σ) : Request α → Answer × Session α σ
  | .pass nanos =>
    let s := s.pass S nanos
    (.now s.clock, s)
  | .emit item =>
    if s.dropped then (.dropped, s)
    else
      let (result, collector) := s.collector.emit s.clock.monotonic item
      (.emitted result, { s with collector }.settle S)
  | .dispose =>
    if s.dropped then (.dropped, s)
    else (.done, { s with collector := s.collector.dispose S s.clock.monotonic }.settle S)
  | .drop =>
    if s.dropped then (.dropped, s)
    else
      (.done, { s with
        collector := s.collector.drop S s.clock.monotonic
        dropped := true }.settle S)

end Session
end Courier.Collector
