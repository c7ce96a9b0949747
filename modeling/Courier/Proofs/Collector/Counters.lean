import Courier.Proofs.Collector.Moves

/-!
# The counters of a collector

The counters of a collector grow by what its journal tells: a counter of items by the number of
items that the entries bring, and a counter of events by the number of such entries.

> `tallied_invariant`: this holds between any two moments in the life of a collector.

> `streak_invariant`: so does the streak of failures, which a delivery ends.
-/

namespace Courier.Collector

variable {α σ : Type}

/-- What the counters show, if they showed `before` when the entries began. -/
structure Tallied (before : Stats) (entries : List (Entry α)) (tally : Stats) : Prop where
  emitted : tally.emitted = before.emitted + (collect Entry.taken entries).length
  filtered : tally.filtered = before.filtered + (collect (Entry.settled .rejected) entries).length
  batchesFlushed : tally.batchesFlushed = before.batchesFlushed + entries.countP Entry.isDelivery
  itemsFlushed : tally.itemsFlushed =
    before.itemsFlushed + (collect (Entry.settled .delivered) entries).length
  failedFlushes : tally.failedFlushes = before.failedFlushes + entries.countP Entry.isFailure
  droppedOnFailure : tally.droppedOnFailure =
    before.droppedOnFailure + (collect (Entry.settled .discarded) entries).length

/-- What one entry adds to the counters. -/
structure Counts (entry : Entry α) (before after : Stats) : Prop where
  emitted : after.emitted = before.emitted + entry.taken.length
  filtered : after.filtered = before.filtered + (entry.settled .rejected).length
  batchesFlushed : after.batchesFlushed = before.batchesFlushed + entry.isDelivery.toNat
  itemsFlushed : after.itemsFlushed = before.itemsFlushed + (entry.settled .delivered).length
  failedFlushes : after.failedFlushes = before.failedFlushes + entry.isFailure.toNat
  droppedOnFailure : after.droppedOnFailure =
    before.droppedOnFailure + (entry.settled .discarded).length

theorem Tallied.refl (tally : Stats) : Tallied tally ([] : List (Entry α)) tally :=
  ⟨rfl, rfl, rfl, rfl, rfl, rfl⟩

/-- Each entry is counted once. -/
theorem Tallied.cons {before tally after : Stats} {entry : Entry α} {entries : List (Entry α)}
    (h : Tallied before entries tally) (hentry : Counts entry tally after) :
    Tallied before (entry :: entries) after := by
  have hcount (p : Entry α → Bool) :
      (entry :: entries).countP p = entries.countP p + (p entry).toNat := by
    rw [List.countP_cons]
    cases p entry <;> rfl
  constructor
  · rw [collect_cons, List.length_append, hentry.emitted, h.emitted, Nat.add_assoc]
  · rw [collect_cons, List.length_append, hentry.filtered, h.filtered, Nat.add_assoc]
  · rw [hcount, hentry.batchesFlushed, h.batchesFlushed, Nat.add_assoc]
  · rw [collect_cons, List.length_append, hentry.itemsFlushed, h.itemsFlushed, Nat.add_assoc]
  · rw [hcount, hentry.failedFlushes, h.failedFlushes, Nat.add_assoc]
  · rw [collect_cons, List.length_append, hentry.droppedOnFailure, h.droppedOnFailure,
      Nat.add_assoc]

/-- The counters since the journal was `base` are those of the entries since then. -/
def Counted (before : Stats) (base : List (Entry α)) (b : Bench α σ) : Prop :=
  ∃ entries, b.2.journal = entries ++ base ∧ Tallied before entries b.2.tally

/-- An entry that is noted is counted. -/
theorem Counted.note {before : Stats} {base : List (Entry α)} {hand hand' : Option α}
    {c d : Collector α σ} {entry : Entry α} (h : Counted before base (hand, c))
    (hjournal : d.journal = entry :: c.journal) (hentry : Counts entry c.tally d.tally) :
    Counted before base (hand', d) := by
  obtain ⟨entries, hbase, h⟩ := h
  refine ⟨entry :: entries, ?_, h.cons hentry⟩
  rw [hjournal, hbase, List.cons_append]

/-- Every step of a collector keeps its counters true. -/
theorem tallied_invariant (before : Stats) (base : List (Entry α)) :
    Invariant (σ := σ) (Counted before base) where
  move h hmove := by
    cases hmove with
    | advanced => exact h
    | accepted hand c item => exact h.note rfl ⟨rfl, rfl, rfl, rfl, rfl, rfl⟩
    | refused hand c item => exact h.note rfl ⟨rfl, rfl, rfl, rfl, rfl, rfl⟩
    | closing => exact h
    | picked => exact h
    | kept c item => exact h.note rfl ⟨rfl, rfl, rfl, rfl, rfl, rfl⟩
    | rejected c item => exact h.note rfl ⟨rfl, rfl, rfl, rfl, rfl, rfl⟩
    | panicked c now item => exact h.note rfl ⟨rfl, rfl, rfl, rfl, rfl, rfl⟩
    | delivered c now replies => exact h.note rfl ⟨rfl, rfl, rfl, rfl, rfl, rfl⟩
    | undelivered c now replies outcome _ fault =>
      refine h.note rfl ?_
      cases outcome with
      | ok => exact absurd rfl fault
      | error => exact ⟨rfl, rfl, rfl, rfl, rfl, rfl⟩
      | panic => exact ⟨rfl, rfl, rfl, rfl, rfl, rfl⟩
    | idled c now replies outcome => exact h.note rfl ⟨rfl, rfl, rfl, rfl, rfl, rfl⟩
  cycleBegan now final h := h.note rfl ⟨rfl, rfl, rfl, rfl, rfl, rfl⟩
  recordFailure h _ := h.note rfl ⟨rfl, rfl, rfl, rfl, rfl, rfl⟩
  dropBatch h := by
    unfold dropBatch
    split
    next => exact h.note rfl ⟨rfl, rfl, rfl, rfl, rfl, rfl⟩
    next => exact h
  dropBacklog h _ := by
    unfold dropBacklog
    split
    next => exact h.note rfl ⟨rfl, rfl, rfl, rfl, rfl, rfl⟩
    next => exact h
  takeStock h := by
    obtain ⟨entries, hbase, h⟩ := h
    exact ⟨entries, hbase, h.emitted, h.filtered, h.batchesFlushed, h.itemsFlushed,
      h.failedFlushes, h.droppedOnFailure⟩
  outside _ _ _ h := h

/-! ## The streak of failures -/

/-- The failures of a collector are the streak that the entries since `base` tell, if there were
`before` failures then. -/
def Streak (before : UInt32) (base : List (Entry α)) (b : Bench α σ) : Prop :=
  ∃ entries, b.2.journal = entries ++ base ∧ b.2.failures = failuresAfter before entries

/-- An entry that neither ends nor lengthens the streak leaves the failures as they were. -/
theorem Streak.note {before : UInt32} {base : List (Entry α)} {hand hand' : Option α}
    {c d : Collector α σ} {entry : Entry α} (h : Streak before base (hand, c))
    (hjournal : d.journal = entry :: c.journal) (hfailures : d.failures = c.failures)
    (hd : entry.isDelivery = false) (hf : entry.isFailure = false) :
    Streak before base (hand', d) := by
  obtain ⟨entries, hbase, h⟩ := h
  refine ⟨entry :: entries, ?_, ?_⟩
  · rw [hjournal, hbase, List.cons_append]
  · rw [failuresAfter_cons hd hf, ← h]
    exact hfailures

/-- Every step of a collector keeps count of the streak. -/
theorem streak_invariant (before : UInt32) (base : List (Entry α)) :
    Invariant (σ := σ) (Streak before base) where
  move h hmove := by
    cases hmove with
    | advanced => exact h
    | accepted hand c item => exact h.note rfl rfl rfl rfl
    | refused hand c item => exact h.note rfl rfl rfl rfl
    | closing => exact h
    | picked => exact h
    | kept c item => exact h.note rfl rfl rfl rfl
    | rejected c item => exact h.note rfl rfl rfl rfl
    | panicked c now item => exact h.note rfl rfl rfl rfl
    | delivered c now replies =>
      obtain ⟨entries, hbase, -⟩ := h
      exact ⟨.flushed now c.staged replies .ok :: entries, congrArg _ hbase, rfl⟩
    | undelivered c now replies outcome _ fault =>
      cases outcome with
      | ok => exact absurd rfl fault
      | error => exact h.note rfl rfl rfl rfl
      | panic => exact h.note rfl rfl rfl rfl
    | idled c now replies outcome => exact h.note rfl rfl rfl rfl
  cycleBegan now final h := h.note rfl rfl rfl rfl
  recordFailure {c} h _ := by
    obtain ⟨entries, hbase, h⟩ := h
    exact ⟨_, congrArg _ hbase, failuresAfter_failed c before entries h⟩
  dropBatch h := by
    unfold dropBatch
    split
    next => exact h.note rfl rfl rfl rfl
    next => exact h
  dropBacklog h _ := by
    unfold dropBacklog
    split
    next => exact h.note rfl rfl rfl rfl
    next => exact h
  takeStock h := h
  outside _ _ _ h := h

end Courier.Collector
