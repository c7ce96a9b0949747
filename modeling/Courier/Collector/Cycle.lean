import Courier.Collector.Basic
import Courier.Time.Recurring

/-!
# Cycles and ticks

A cycle moves items through the sink's filter into the staged batch until the batch is full or
the backlog is empty, and hands the batch to the sink. A full batch is followed by the next one at
once; the cycle is over after a batch that was not full, or after a failure. If there is nothing
to hand over, the sink is told so.

> `work` ends because every call of the sink lowers `load`: an item that is judged leaves the
> backlog, a batch that is taken leaves the stage, and what the sink emits it pays for with its
> credit.

A tick is a cycle and the start of the alarm for the next one. If the sink has disposed the
collector meanwhile, the final cycle takes the place of that start.
-/

namespace Courier.Collector

variable {α σ : Type}

/-! ## One call of the sink -/

/-- What a call of the sink leads to. -/
inductive Turn (α σ : Type) where
  /-- The cycle goes on. -/
  | again (c : Collector α σ)
  /-- The cycle ends, without a failure or with one. -/
  | ended (ok : Bool) (c : Collector α σ)

/-- The collector after the call. -/
def Turn.collector : Turn α σ → Collector α σ
  | again c => c
  | ended _ c => c

/-- Has the sink judge an item that has left the backlog. -/
def judge (S : Sink α σ) (now : Instant) (c : Collector α σ) (item : α) : Turn α σ :=
  let response := S.judge c.sink item
  let (_, c) := { c with sink := response.next }.obeyAll response.commands
  match response.outcome with
  | .keep => .again ({ c with staged := c.staged ++ [item] }.note (.kept item))
  | .discard =>
    .again ({ c with tally := { c.tally with filtered := c.tally.filtered + 1 } }.note
      (.filtered item))
  | .panic => .ended false (c.note (.filterPanicked now item))

/-- The collector once the sink has taken the staged batch. -/
def delivered (c : Collector α σ) : Collector α σ :=
  { c with
    staged := []
    failures := c.pacing.succeeded.failures
    tally :=
      { c.tally with
        batchesFlushed := c.tally.batchesFlushed + 1
        itemsFlushed := c.tally.itemsFlushed + c.staged.length } }

/-- Hands the staged batch to the sink. -/
def deliver (S : Sink α σ) (now : Instant) (c : Collector α σ) : Turn α σ :=
  let batch := c.staged
  let response := S.take c.sink batch
  let (replies, c) := { c with sink := response.next }.obeyAll response.commands
  let c := c.note (.flushed now batch replies response.outcome)
  match response.outcome with
  | .ok =>
    if c.batchSize ≤ batch.length then .again c.delivered else .ended true c.delivered
  | .error | .panic => .ended false c

/-- Tells the sink that there is nothing to hand over. -/
def idle (S : Sink α σ) (now : Instant) (c : Collector α σ) : Turn α σ :=
  let response := S.idle c.sink
  let (replies, c) := { c with sink := response.next }.obeyAll response.commands
  .ended (response.outcome != .panic) (c.note (.idled now replies response.outcome))

/-- The next item to judge, while the staged batch is not full, and the backlog without it. -/
def nextItem? (c : Collector α σ) : Option (α × Backlog α) :=
  if c.staged.length < c.batchSize then c.backlog.pop? else none

/-- Calls the sink once. -/
def turn (S : Sink α σ) (now : Instant) (c : Collector α σ) : Turn α σ :=
  match c.nextItem? with
  | some (item, backlog) => judge S now { c with backlog } item
  | none => if c.staged.isEmpty then idle S now c else deliver S now c

/-! ## The cycle -/

/-- What a cycle still has to do at most: an item in the backlog or one that the sink may still
emit counts twice, once for its judgement and once for its delivery. -/
def load (S : Sink α σ) (c : Collector α σ) : Nat :=
  2 * (c.backlog.size + S.credit c.sink) + c.staged.length

/-- An item that is judged costs at least one of the two that its place in the backlog counted. -/
theorem load_judge_lt {S : Sink α σ} {now : Instant} {c d : Collector α σ} {item : α}
    (h : judge S now c item = .again d) : load S d < load S c + 2 := by
  have hcredit := S.credit_judge c.sink item
  have hkept := kept_obeyAll { c with sink := (S.judge c.sink item).next }
    (S.judge c.sink item).commands
  have hsize := size_obeyAll_le { c with sink := (S.judge c.sink item).next }
    (S.judge c.sink item).commands
  have hsink := hkept.sink
  have hstaged := hkept.staged
  dsimp only at hsink hstaged hsize
  unfold judge at h
  dsimp only at h
  split at h
  · cases h
    simp only [load, note, hsink, hstaged, List.length_append, List.length_singleton]
    omega
  · cases h
    simp only [load, note, hsink, hstaged]
    omega
  · cases h

/-- A batch that is taken leaves less to do. -/
theorem load_deliver_lt {S : Sink α σ} {now : Instant} {c d : Collector α σ}
    (hstage : c.staged ≠ []) (h : deliver S now c = .again d) : load S d < load S c := by
  have hcredit := S.credit_take c.sink c.staged
  have hkept := kept_obeyAll { c with sink := (S.take c.sink c.staged).next }
    (S.take c.sink c.staged).commands
  have hsize := size_obeyAll_le { c with sink := (S.take c.sink c.staged).next }
    (S.take c.sink c.staged).commands
  have hsink := hkept.sink
  have hpos := List.length_pos_iff.2 hstage
  dsimp only at hsink hsize
  unfold deliver at h
  dsimp only at h
  split at h
  · split at h
    · cases h
      simp only [load, note, delivered, hsink, List.length_nil]
      omega
    · cases h
  · cases h
  · cases h

/-- A call after which the cycle goes on leaves less to do. -/
theorem load_turn_lt {S : Sink α σ} {now : Instant} {c d : Collector α σ}
    (h : turn S now c = .again d) : load S d < load S c := by
  unfold turn at h
  split at h
  · next item backlog hnext =>
    have hlt := load_judge_lt h
    have hsize : c.backlog.size = backlog.size + 1 := by
      unfold nextItem? at hnext
      split at hnext
      · exact Backlog.size_pop? hnext
      · cases hnext
    simp only [load] at hlt ⊢
    omega
  · split at h
    · simp [idle] at h
    · next hne => exact load_deliver_lt (by simpa using hne) h

/-- Calls the sink until the cycle is over. The answer says whether it went without a failure. -/
def work (S : Sink α σ) (now : Instant) (c : Collector α σ) : Bool × Collector α σ :=
  match _h : turn S now c with
  | .again d => work S now d
  | .ended ok d => (ok, d)
termination_by load S c
decreasing_by exact load_turn_lt _h

/-- Counts a failure. -/
def recordFailure (c : Collector α σ) : Collector α σ :=
  { c with
    failures := c.pacing.failed.failures
    tally := { c.tally with failedFlushes := c.tally.failedFlushes + 1 } }.note .cycleFailed

/-- Gives the staged batch up after too many failures. -/
def dropBatch (c : Collector α σ) : Collector α σ :=
  if c.pacing.dropsBatch ∧ c.staged ≠ [] then
    { c with
      staged := []
      tally :=
        { c.tally with droppedOnFailure := c.tally.droppedOnFailure + c.staged.length } }.note
      (.batchDropped c.staged)
  else c

/-- Gives the backlog up after still more failures. -/
def dropBacklog (c : Collector α σ) : Collector α σ :=
  if c.pacing.dropsQueue then
    let (count, backlog) := c.backlog.clear
    { c with
      backlog
      tally := { c.tally with droppedOnFailure := c.tally.droppedOnFailure + count } }.note
      (.backlogDropped c.backlog.items)
  else c

/-- Notes the statistics of the end of a cycle. -/
def takeStock (c : Collector α σ) : Collector α σ :=
  { c with
    tally :=
      { c.tally with
        staged := c.staged.length
        consecutiveFailures := c.failures.toNat } }

/-- What follows the calls of a cycle: a failure is counted, and what has failed too often is
given up. -/
def conclude (ok : Bool) (c : Collector α σ) : Collector α σ :=
  let c := if ok then c else c.recordFailure
  c.dropBatch.dropBacklog.takeStock

/-- One cycle. -/
def cycle (S : Sink α σ) (now : Instant) (final : Bool) (c : Collector α σ) : Collector α σ :=
  let (ok, c) := work S now (c.note (.cycleBegan now final))
  conclude ok c

/-! ## Ticks and the end -/

/-- Starts the alarm for the next tick. -/
def schedule (now : Instant) (c : Collector α σ) : Collector α σ :=
  match c.alarm.start now c.pacing.wait with
  | .ok alarm => { c with alarm }
  | .error _ => c

/-- What follows the cycle of a tick: the final cycle if the sink has disposed the collector, else
the start of the alarm. -/
def afterCycle (S : Sink α σ) (now : Instant) (c : Collector α σ) : Collector α σ :=
  match c.stage with
  | .closing => { c with stage := .closed }.cycle S now true
  | .closed => c
  | .fresh | .active => c.schedule now

/-- The collector while the callback of its alarm begins to run. -/
def beginTick (c : Collector α σ) : Collector α σ := { c with alarm := c.alarm.enter }

/-- The collector once the callback of its alarm has returned. -/
def endTick (c : Collector α σ) : Collector α σ := { c with alarm := c.alarm.leave }

/-- One tick. A collector that has ended does nothing. -/
def tick (S : Sink α σ) (now : Instant) (c : Collector α σ) : Collector α σ :=
  let c := c.beginTick
  let c := if c.stage = .closed then c else (c.cycle S now false).afterCycle S now
  c.endTick

/-- Disposes the collector from outside: if it has taken an item on, it does one final cycle. -/
def dispose (S : Sink α σ) (now : Instant) (c : Collector α σ) : Collector α σ :=
  let closed := { c with stage := .closed, alarm := c.alarm.dispose }
  match c.stage with
  | .fresh => closed
  | .active => closed.cycle S now true
  | .closing | .closed => c

/-- Drops the collector: it is disposed, out of reach of its sink. -/
def drop (S : Sink α σ) (now : Instant) (c : Collector α σ) : Collector α σ :=
  { c with unreachable := true }.dispose S now

/-! ## The next tick lies ahead -/

/-- Commands of the sink set no deadline. -/
theorem due_called {c : Collector α σ} (s : σ) (commands : List (Sink.Command α))
    (h : c.alarm.due = none) : ({ c with sink := s }.obeyAll commands).2.alarm.due = none :=
  (kept_obeyAll { c with sink := s } commands).due h

/-- A call of the sink sets no deadline. -/
theorem due_turn {S : Sink α σ} {now : Instant} {c : Collector α σ} (h : c.alarm.due = none) :
    (turn S now c).collector.alarm.due = none := by
  unfold turn
  split
  · next item backlog _ =>
    have := due_called (c := { c with backlog }) (S.judge c.sink item).next
      (S.judge c.sink item).commands h
    unfold judge
    dsimp only
    split <;> exact this
  · split
    · exact due_called (S.idle c.sink).next (S.idle c.sink).commands h
    · have := due_called (S.take c.sink c.staged).next (S.take c.sink c.staged).commands h
      unfold deliver
      dsimp only
      split
      · split <;> exact this
      · exact this
      · exact this

/-- The calls of a cycle set no deadline. -/
theorem due_work {S : Sink α σ} {now : Instant} {c : Collector α σ} (h : c.alarm.due = none) :
    (work S now c).2.alarm.due = none := by
  fun_induction work S now c with
  | case1 c d hturn ih =>
    have := @due_turn _ _ S now c h
    rw [hturn] at this
    exact ih this
  | case2 c ok d hturn =>
    have := @due_turn _ _ S now c h
    rw [hturn] at this
    exact this

/-- What follows the calls sets no deadline. -/
theorem due_conclude {ok : Bool} {c : Collector α σ} (h : c.alarm.due = none) :
    (conclude ok c).alarm.due = none := by
  have hfail : (if ok then c else c.recordFailure).alarm.due = none := by
    split
    · exact h
    · exact h
  have hdrop {c : Collector α σ} (h : c.alarm.due = none) : c.dropBatch.alarm.due = none := by
    unfold dropBatch
    split <;> exact h
  have hclear {c : Collector α σ} (h : c.alarm.due = none) : c.dropBacklog.alarm.due = none := by
    unfold dropBacklog
    split <;> exact h
  exact hclear (hdrop hfail)

/-- A cycle sets no deadline. -/
theorem due_cycle {S : Sink α σ} {now : Instant} {final : Bool} {c : Collector α σ}
    (h : c.alarm.due = none) : (cycle S now final c).alarm.due = none :=
  due_conclude (due_work h)

/-- The alarm is started for a later instant. -/
theorem lt_deadline_schedule {now d : Instant} {c : Collector α σ} (h : c.alarm.due = none)
    (hd : (c.schedule now).alarm.deadline? = some d) : now < d := by
  unfold schedule at hd
  split at hd
  · next alarm hstart =>
    obtain ⟨_, hdis, hdue⟩ := Alarm.start_eq_ok hstart
    have hpos : 0 < c.pacing.wait.toNanos :=
      Nat.lt_of_lt_of_le c.valid.period_pos c.pacing.period_le_wait
    simp only [Alarm.deadline?, hdis, hdue, Bool.false_eq_true, if_false, Option.some.injEq] at hd
    rw [← hd, Instant.lt_iff, Instant.after]
    exact Nat.lt_add_of_pos_right hpos
  · simp only [Alarm.deadline?, h, ite_self] at hd
    cases hd

/-- An alarm without a deadline has none that is not later. -/
theorem lt_of_due_none {a : Alarm} {now d : Instant} (h : a.due = none)
    (hd : a.deadline? = some d) : now < d := by
  rw [Alarm.deadline?, h, ite_self] at hd
  cases hd

/-- After a cycle the only deadline is a later one. -/
theorem lt_deadline_afterCycle {S : Sink α σ} {now d : Instant} {c : Collector α σ}
    (h : c.alarm.due = none) (hd : (c.afterCycle S now).alarm.deadline? = some d) : now < d := by
  unfold afterCycle at hd
  split at hd
  · have hcycle : ({ c with stage := .closed }.cycle S now true).alarm.due = none := due_cycle h
    exact lt_of_due_none hcycle hd
  · exact lt_of_due_none h hd
  · exact lt_deadline_schedule h hd
  · exact lt_deadline_schedule h hd

/-- The instant of the next tick. -/
def nextTick? (c : Collector α σ) : Option Instant := c.alarm.deadline?

/-- The tick after a tick is a later one. -/
theorem lt_nextTick?_tick {S : Sink α σ} {now d : Instant} {c : Collector α σ}
    (h : (c.tick S now).nextTick? = some d) : now < d := by
  have hdue : c.beginTick.alarm.due = none := rfl
  rw [nextTick?, tick, endTick] at h
  dsimp only at h
  rw [Alarm.deadline?_leave] at h
  split at h
  · exact lt_of_due_none hdue h
  · exact lt_deadline_afterCycle (due_cycle hdue) h

/-- The collector as a machine that fires at each tick. -/
def ticks (S : Sink α σ) : Recurring (Collector α σ) where
  due := nextTick?
  fire := tick S
  due_fire h := lt_nextTick?_tick h

end Courier.Collector
