import Courier.Collector.Sink

/-!
# Scripted sinks

A scripted sink does in each call what a script says. Calls beyond the script go well and ask for
nothing, so its credit is the number of items that the script still emits.
-/

namespace Courier.Sink

/-- What a scripted sink does in one call. -/
structure Step (α : Type) where
  commands : List (Command α)
  outcome : Outcome

/-- The steps of the calls to come. -/
structure Script (α : Type) where
  /-- For the calls with a batch. -/
  takes : List (Step α) := []
  /-- For the calls without one. -/
  idles : List (Step α) := []

variable {α : Type}

/-- How many items steps emit. -/
def stepEmissions : List (Step α) → Nat
  | [] => 0
  | step :: rest => emissions step.commands + stepEmissions rest

/-- A sink that judges items by a fixed rule and follows a script in its other calls. -/
def scripted (verdict : α → Verdict) : Sink α (Script α) where
  judge s item := { commands := [], outcome := verdict item, next := s }
  take s _ :=
    match s.takes with
    | [] => { commands := [], outcome := .ok, next := s }
    | step :: rest =>
      { commands := step.commands, outcome := step.outcome, next := { s with takes := rest } }
  idle s :=
    match s.idles with
    | [] => { commands := [], outcome := .ok, next := s }
    | step :: rest =>
      { commands := step.commands, outcome := step.outcome, next := { s with idles := rest } }
  credit s := stepEmissions s.takes + stepEmissions s.idles
  credit_judge s item := by simp [emissions]
  credit_take s batch := by
    split
    · simp [emissions]
    · next h => rw [h]; simp only [stepEmissions]; omega
  credit_idle s := by
    split
    · simp [emissions]
    · next h => rw [h]; simp only [stepEmissions]; omega

end Courier.Sink
