import Courier.Failure

/-!
# Sinks

A `Sink` receives the batches of a collector. It is called in three ways: to judge an item, to
take a batch, and when there was nothing to take. During a call it may turn to its collector with
commands, and the call ends with an outcome.

A sink has a state, and a `credit`: a bound on the number of items that it will still emit by
itself. Every call pays for its emissions out of the credit, so a sink cannot keep its collector
busy forever.
-/

namespace Courier

/-- What a sink asks of its collector during a call. -/
inductive Sink.Command (α : Type) where
  | emit (item : α)
  | dispose
  | stats

/-- How a call with a batch, or without one, ends. -/
inductive Sink.Outcome where
  | ok
  | error
  | panic
deriving DecidableEq

/-- How the judgement of an item ends. -/
inductive Sink.Verdict where
  | keep
  | discard
  | panic
deriving DecidableEq

/-- What a sink does when it is called: commands to its collector, an outcome, and its state after
the call. -/
structure Sink.Response (α σ ω : Type) where
  commands : List (Sink.Command α)
  outcome : ω
  next : σ

/-- How many items commands emit. -/
def Sink.emissions {α : Type} : List (Sink.Command α) → Nat
  | [] => 0
  | .emit _ :: rest => emissions rest + 1
  | .dispose :: rest => emissions rest
  | .stats :: rest => emissions rest

/-- A receiver of batches of items `α`, with states `σ`. -/
structure Sink (α σ : Type) where
  /-- Judges an item. -/
  judge : σ → α → Sink.Response α σ Sink.Verdict
  /-- Takes a batch. -/
  take : σ → List α → Sink.Response α σ Sink.Outcome
  /-- Hears that there is nothing to take. Only a panic counts as a failure here. -/
  idle : σ → Sink.Response α σ Sink.Outcome
  /-- A bound on the number of items that the sink will still emit. -/
  credit : σ → Nat
  credit_judge : ∀ s item,
    Sink.emissions (judge s item).commands + credit (judge s item).next ≤ credit s
  credit_take : ∀ s batch,
    Sink.emissions (take s batch).commands + credit (take s batch).next ≤ credit s
  credit_idle : ∀ s, Sink.emissions (idle s).commands + credit (idle s).next ≤ credit s

end Courier
