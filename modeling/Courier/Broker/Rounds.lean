import Courier.Broker.Subscriptions

/-!
# Rounds of handlers

The handlers of an event run side by side on one thread. They are polled in rounds: in each round
every handler that has not ended is polled once, in order of subscription. A poll either suspends
the handler once more or has it handle the event and end. A panic ends everything at once.

> `runRounds` ends because a round lowers `pollsLeft`: each handler that is polled either ends or
> has one suspension less before it.
-/

namespace Courier.Broker

/-- What a handler can be seen to do. -/
inductive Call (α ι : Type) where
  | suspended (label : ι) (index : Nat)
  | handled (label : ι) (data : α) (properties : Event.Properties)

/-- A handler that has not ended. -/
structure Task (ι : Type) where
  label : ι
  /-- How often it has suspended. -/
  suspended : Nat := 0
  /-- How often it will still suspend. -/
  left : Nat
  outcome : Handler.Outcome

variable {α ι : Type}

/-- A handler that begins to handle an event. -/
def Task.begin (data : α) (properties : Event.Properties) (h : Handler α ι) : Task ι where
  label := h.label
  left := (h.plan data properties).suspensions
  outcome := (h.plan data properties).outcome

/-- How a round ends without a panic: the handlers that have not ended, and the number of those
that have ended with an error. -/
structure Round (ι : Type) where
  pending : List (Task ι) := []
  failed : Nat := 0

/-- One round: what the handlers do, and how the round ends, or `none` after a panic. -/
def poll (data : α) (properties : Event.Properties) :
    List (Task ι) → List (Call α ι) × Option (Round ι)
  | [] => ([], some {})
  | t :: rest =>
    match t.left, t.outcome with
    | left + 1, _ =>
      let (calls, round) := poll data properties rest
      let t := { t with suspended := t.suspended + 1, left }
      (.suspended t.label (t.suspended - 1) :: calls,
        round.map fun r => { r with pending := t :: r.pending })
    | 0, .panic => ([.handled t.label data properties], none)
    | 0, .ok =>
      let (calls, round) := poll data properties rest
      (.handled t.label data properties :: calls, round)
    | 0, .error =>
      let (calls, round) := poll data properties rest
      (.handled t.label data properties :: calls,
        round.map fun r => { r with failed := r.failed + 1 })

/-- How many polls handlers still need. -/
def pollsLeft : List (Task ι) → Nat
  | [] => 0
  | t :: rest => t.left + 1 + pollsLeft rest

/-- A round without a panic uses up one poll of every handler. -/
theorem pollsLeft_poll_le (data : α) (properties : Event.Properties) (tasks : List (Task ι))
    {r : Round ι} (h : (poll data properties tasks).2 = some r) :
    pollsLeft r.pending + tasks.length ≤ pollsLeft tasks := by
  induction tasks generalizing r with
  | nil => cases h; simp [pollsLeft]
  | cons t rest ih =>
    unfold poll at h
    split at h
    · next left _ hleft =>
      obtain ⟨r', hr', rfl⟩ := Option.map_eq_some_iff.1 h
      have := ih hr'
      simp only [pollsLeft, List.length_cons, hleft]
      omega
    · cases h
    · have := ih h
      simp only [pollsLeft, List.length_cons]
      omega
    · obtain ⟨r', hr', rfl⟩ := Option.map_eq_some_iff.1 h
      have := ih hr'
      simp only [pollsLeft, List.length_cons]
      omega

/-- A round with a handler in it leaves fewer polls. -/
theorem pollsLeft_poll_lt {data : α} {properties : Event.Properties} {t : Task ι}
    {rest : List (Task ι)} {calls : List (Call α ι)} {r : Round ι}
    (h : poll data properties (t :: rest) = (calls, some r)) :
    pollsLeft r.pending < pollsLeft (t :: rest) := by
  have := pollsLeft_poll_le data properties (t :: rest) (r := r) (by rw [h])
  simp only [List.length_cons] at this
  omega

/-- Polls round after round until every handler has ended: what the handlers do, and the number of
those that end with an error, or `none` after a panic. -/
def runRounds (data : α) (properties : Event.Properties) :
    List (Task ι) → List (Call α ι) × Option Nat
  | [] => ([], some 0)
  | t :: rest =>
    match _h : poll data properties (t :: rest) with
    | (calls, none) => (calls, none)
    | (calls, some r) =>
      let (later, failed) := runRounds data properties r.pending
      (calls ++ later, failed.map (r.failed + ·))
termination_by tasks => pollsLeft tasks
decreasing_by exact pollsLeft_poll_lt _h

/-- What came of an event. -/
structure Report where
  /-- The handlers that were called. -/
  handlers : Nat := 0
  /-- Those of them that ended with an error. -/
  failed : Nat := 0
deriving DecidableEq

namespace Report

/-- Whether there was a handler. -/
def handled (r : Report) : Bool := 0 < r.handlers

/-- Whether no handler ended with an error. -/
def allSucceeded (r : Report) : Bool := r.failed = 0

end Report

/-- Runs handlers on an event. After a panic there is no report. -/
def runHandlers (handlers : List (Handler α ι)) (data : α) (properties : Event.Properties) :
    List (Call α ι) × Option Report :=
  let (calls, failed) := runRounds data properties (handlers.map (Task.begin data properties))
  (calls, failed.map fun failed => { handlers := handlers.length, failed })

end Courier.Broker
