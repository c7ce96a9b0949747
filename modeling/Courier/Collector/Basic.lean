import Courier.Alarm.Basic
import Courier.Backlog
import Courier.Collector.Sink
import Courier.Pacing

/-!
# Collectors

A `Collector` gathers items into batches for a sink. Items wait in a backlog; at a tick they move
through the sink's filter into the staged batch, and the batch goes to the sink. A batch that the
sink does not take stays staged for the next tick.

This module holds the state of a collector, its statistics and its journal, and what can be asked
of it at any time: to take an item on, and to end. What happens at a tick is in
`Courier.Collector.Cycle`.
-/

namespace Courier

/-- How far a collector has come. -/
inductive Collector.Stage where
  /-- No item has arrived yet. -/
  | fresh
  /-- The collector ticks. -/
  | active
  /-- The sink has disposed the collector during a tick; the final cycle follows that tick. -/
  | closing
  /-- The final cycle has begun, or there is none. -/
  | closed
deriving DecidableEq

/-- The statistics of a collector. -/
structure Collector.Stats where
  /-- Items in the backlog. -/
  queued : Nat := 0
  /-- Items in the staged batch, as of the end of the last cycle. -/
  staged : Nat := 0
  /-- Items taken on. -/
  emitted : Nat := 0
  /-- Items refused because the backlog was full. -/
  droppedOnOverflow : Nat := 0
  /-- Items that the filter has discarded. -/
  filtered : Nat := 0
  /-- Batches that the sink has taken. -/
  batchesFlushed : Nat := 0
  /-- Items in these batches. -/
  itemsFlushed : Nat := 0
  /-- Cycles that ended in a failure. -/
  failedFlushes : Nat := 0
  /-- Items given up after failures. -/
  droppedOnFailure : Nat := 0
  /-- Failures since the last success, as of the end of the last cycle. -/
  consecutiveFailures : Nat := 0
deriving DecidableEq

/-- What a collector answers to a command of its sink. A collector that is being dropped is out of
the sink's reach. -/
inductive Collector.Reply where
  | emitted (result : Option (Except Failure Bool))
  | disposed (reached : Bool)
  | stats (stats : Option Collector.Stats)

/-- What a collector notes in its journal. -/
inductive Collector.Entry (α : Type) where
  | accepted (item : α)
  | refused (item : α)
  | cycleBegan (instant : Instant) (final : Bool)
  | kept (item : α)
  | filtered (item : α)
  | filterPanicked (instant : Instant) (item : α)
  | flushed (instant : Instant) (batch : List α) (replies : List Collector.Reply)
      (outcome : Sink.Outcome)
  | idled (instant : Instant) (replies : List Collector.Reply) (outcome : Sink.Outcome)
  | cycleFailed
  | batchDropped (items : List α)
  | backlogDropped (items : List α)

/-- A gatherer of items for a sink with states `σ`. -/
structure Collector (α σ : Type) where
  settings : BatchSettings
  valid : settings.Valid
  sink : σ
  backlog : Backlog α
  /-- The batch that goes to the sink next. -/
  staged : List α := []
  /-- The failures since the last success. -/
  failures : UInt32 := 0
  stage : Collector.Stage := .fresh
  /-- Whether the collector is being dropped, so that the sink cannot reach it. -/
  unreachable : Bool := false
  alarm : Alarm := { name := "periodic-batcher" }
  /-- The statistics that are counted, or noted at the end of a cycle. -/
  tally : Collector.Stats := {}
  /-- What has happened, latest first. -/
  journal : List (Collector.Entry α) := []

namespace Collector

variable {α σ : Type}

/-- A new collector. -/
def create (settings : BatchSettings) (sink : σ) : Except Failure (Collector α σ) :=
  match h : settings.defect? with
  | some defect => .error (.batchSettings defect)
  | none => do
    let backlog ← Backlog.ofLimit? (settings.queueLimit.map UInt64.toNat)
    return { settings, valid := h, sink, backlog }

/-- A new collector after the settings of all components have been checked. -/
def createChecked (settings : Settings) (sink : σ) : Except Failure (Collector α σ) :=
  match settings.defect? with
  | some defect => .error (.settings defect)
  | none => create settings.batching sink

/-- The pace at which the collector ticks. -/
def pacing (c : Collector α σ) : Pacing where
  period := c.settings.period
  policy := c.settings.backoff
  failures := c.failures

/-- The most items in one batch. -/
def batchSize (c : Collector α σ) : Nat := c.settings.batchSizeLimit.toNat

/-- The statistics. -/
def stats (c : Collector α σ) : Stats :=
  { c.tally with queued := c.backlog.size, droppedOnOverflow := c.backlog.refused }

/-- Adds an entry to the journal. -/
def note (c : Collector α σ) (entry : Entry α) : Collector α σ :=
  { c with journal := entry :: c.journal }

/-! ## Items -/

/-- Takes an item on, unless the collector has ended. The answer says whether there was room. -/
def offer (c : Collector α σ) (item : α) : Except Failure Bool × Collector α σ :=
  match c.stage with
  | .closing | .closed => (.error (.disposed .collector), c)
  | .fresh | .active =>
    match c.backlog.offer item with
    | (true, backlog) =>
      (.ok true,
        { c with
          backlog
          tally := { c.tally with emitted := c.tally.emitted + 1 } }.note (.accepted item))
    | (false, backlog) => (.ok false, { c with backlog }.note (.refused item))

/-- Takes an item on from outside. The first item has the collector tick at once. -/
def emit (c : Collector α σ) (now : Instant) (item : α) :
    Except Failure Bool × Collector α σ :=
  match c.stage with
  | .fresh =>
    let (result, c) := c.offer item
    let c := { c with stage := .active }
    match c.alarm.start now .zero with
    | .ok alarm => (result, { c with alarm })
    | .error e => (.error e, c)
  | _ => c.offer item

/-! ## Commands of the sink -/

/-- Ends the collector from within a tick; the final cycle follows that tick. -/
def requestClose (c : Collector α σ) : Collector α σ :=
  match c.stage with
  | .fresh | .active => { c with stage := .closing, alarm := c.alarm.dispose }
  | .closing | .closed => c

/-- Obeys a command of the sink. -/
def obey (c : Collector α σ) (command : Sink.Command α) : Reply × Collector α σ :=
  if c.unreachable then
    match command with
    | .emit _ => (.emitted none, c)
    | .dispose => (.disposed false, c)
    | .stats => (.stats none, c)
  else
    match command with
    | .emit item =>
      let (result, c) := c.offer item
      (.emitted (some result), c)
    | .dispose => (.disposed true, c.requestClose)
    | .stats => (.stats (some c.stats), c)

/-- Obeys commands of the sink, one after the other. -/
def obeyAll (c : Collector α σ) : List (Sink.Command α) → List Reply × Collector α σ
  | [] => ([], c)
  | command :: rest =>
    let (reply, c) := c.obey command
    let (replies, c) := c.obeyAll rest
    (reply :: replies, c)

/-! ## What a command leaves as it is -/

/-- What no command of the sink changes, except that the alarm may lose its deadline. -/
structure Kept (c d : Collector α σ) : Prop where
  settings : d.settings = c.settings
  sink : d.sink = c.sink
  staged : d.staged = c.staged
  due : c.alarm.due = none → d.alarm.due = none

/-- A collector keeps what it has. -/
theorem Kept.refl (c : Collector α σ) : Kept c c := ⟨rfl, rfl, rfl, id⟩

/-- What two steps keep, both together keep. -/
theorem Kept.trans {c d e : Collector α σ} (h : Kept c d) (h' : Kept d e) : Kept c e :=
  ⟨h'.settings.trans h.settings, h'.sink.trans h.sink, h'.staged.trans h.staged,
    fun hdue => h'.due (h.due hdue)⟩

/-- Taking an item on changes nothing that is kept. -/
theorem kept_offer (c : Collector α σ) (item : α) : Kept c (c.offer item).2 := by
  unfold offer
  split
  · exact .refl c
  · exact .refl c
  all_goals split <;> exact ⟨rfl, rfl, rfl, id⟩

/-- Taking an item on lengthens the backlog by at most one. -/
theorem size_offer_le (c : Collector α σ) (item : α) :
    (c.offer item).2.backlog.size ≤ c.backlog.size + 1 := by
  have := Backlog.size_offer_le c.backlog item
  unfold offer
  split
  · simp
  · simp
  all_goals
    split
    all_goals
      next h =>
        rw [h] at this
        exact this

/-- A request to end changes nothing that is kept. -/
theorem kept_requestClose (c : Collector α σ) : Kept c c.requestClose := by
  unfold requestClose
  split
  · exact ⟨rfl, rfl, rfl, Alarm.due_dispose⟩
  · exact ⟨rfl, rfl, rfl, Alarm.due_dispose⟩
  · exact .refl c
  · exact .refl c

/-- A command changes nothing that is kept. -/
theorem kept_obey (c : Collector α σ) (command : Sink.Command α) :
    Kept c (c.obey command).2 := by
  unfold obey
  split
  · split <;> exact .refl c
  · split
    · exact kept_offer c _
    · exact kept_requestClose c
    · exact .refl c

/-- A command lengthens the backlog by at most what it emits. -/
theorem size_obey_le (c : Collector α σ) (command : Sink.Command α) :
    (c.obey command).2.backlog.size ≤ c.backlog.size + Sink.emissions [command] := by
  unfold obey
  split
  · split <;> simp [Sink.emissions]
  · split
    · exact size_offer_le c _
    · unfold requestClose; split <;> simp [Sink.emissions]
    · simp [Sink.emissions]

/-- Commands change nothing that is kept. -/
theorem kept_obeyAll (c : Collector α σ) (commands : List (Sink.Command α)) :
    Kept c (c.obeyAll commands).2 := by
  induction commands generalizing c with
  | nil => exact .refl c
  | cons command rest ih => exact (kept_obey c command).trans (ih _)

/-- Commands lengthen the backlog by at most what they emit. -/
theorem size_obeyAll_le (c : Collector α σ) (commands : List (Sink.Command α)) :
    (c.obeyAll commands).2.backlog.size ≤ c.backlog.size + Sink.emissions commands := by
  induction commands generalizing c with
  | nil => simp [obeyAll, Sink.emissions]
  | cons command rest ih =>
    have h := size_obey_le c command
    have h' := ih (c.obey command).2
    have : Sink.emissions (command :: rest) = Sink.emissions [command] + Sink.emissions rest := by
      cases command <;> (simp [Sink.emissions]; try omega)
    rw [this]
    exact Nat.le_trans h' (by omega)

end Collector
end Courier
