import Courier.Proofs.Collector.Transcript

/-!
# The accounts of a collector

The statistics of a collector account for every item that it took on and for every call of its
sink, however often a cycle failed in between: an item that was taken on is counted by one statistic
for its fate, and only one over which the sink has panicked is counted by none.

> `failedCycles_cycle`: a cycle counts as failed exactly if the sink was at fault in it.

> `audited_run`: the accounts after any run.
-/

namespace Courier.Collector

variable {α σ : Type}

/-! ## Failed cycles -/

/-- How many cycles of a journal ended in a failure. Each of them goes from its beginning to that of
the next one, and the sink was at fault in it. -/
def failedCycles (journal : List (Entry α)) : Nat :=
  (journal.splitOnP Entry.isBeginning).countP fun entries => entries.any Entry.isFault

/-- An entry that is no fault and begins no cycle does not count. -/
theorem failedCycles_cons {entry : Entry α} (hbeginning : entry.isBeginning = false)
    (hfault : entry.isFault = false) (journal : List (Entry α)) :
    failedCycles (entry :: journal) = failedCycles journal := by
  unfold failedCycles
  rw [List.splitOnP_cons_eq_if_modifyHead, hbeginning, if_neg Bool.false_ne_true]
  cases journal.splitOnP Entry.isBeginning with
  | nil => rfl
  | cons entries earlier =>
    rw [List.modifyHead_cons, List.countP_cons, List.countP_cons, List.any_cons, hfault,
      Bool.false_or]

/-- The entries of one cycle count once if there is a fault among them. -/
theorem failedCycles_append {entries : List (Entry α)}
    (h : ∀ entry ∈ entries, entry.isBeginning = false) (now : Instant) (final : Bool)
    (journal : List (Entry α)) :
    failedCycles (entries ++ .cycleBegan now final :: journal) =
      failedCycles journal + (entries.any Entry.isFault).toNat := by
  unfold failedCycles
  rw [List.splitOnP_append_cons_of_forall_mem h _ rfl, List.countP_cons]
  cases entries.any Entry.isFault <;> rfl

/-- An offer is no fault of the sink. -/
theorem Entry.isFault_of_isOffer {entry : Entry α} (h : entry.isOffer = true) :
    entry.isFault = false := by
  cases entry with
  | accepted item => rfl
  | refused item => rfl
  | _ => cases h

/-- A call notes a fault exactly if the cycle fails with it. -/
theorem faults_of_turn (S : Sink α σ) (now : Instant) (c : Collector α σ) :
    ∃ entries, (turn S now c).collector.journal = entries ++ c.journal ∧
      (∀ entry ∈ entries, entry.isBeginning = false) ∧
      entries.any Entry.isFault = (turn S now c).hasFailed := by
  obtain ⟨entry, hturn⟩ := turn_completes S now c
  obtain ⟨offers, hjournal, hoffers, -⟩ := offered_obeyAll (nextCall S c).1 (nextCall S c).2
  have hcall : (nextCall S c).1.journal = c.journal := by
    unfold nextCall
    split <;> rfl
  have hquiet : offers.any Entry.isFault = false := by
    rw [List.any_eq_false]
    intro e he
    rw [Entry.isFault_of_isOffer (hoffers e he)]
    exact Bool.false_ne_true
  refine ⟨entry :: offers, ?_, ?_, ?_⟩
  · rw [hturn.journal, show (afterCommands S c).journal = _ from hjournal, hcall, List.cons_append]
  · intro e he
    rcases List.mem_cons.1 he with rfl | he
    · exact hturn.beginning
    · exact Entry.isBeginning_of_isOffer (hoffers e he)
  · rw [List.any_cons, hquiet, hturn.fault, Bool.or_false]

/-- The calls of a cycle note a fault exactly if the cycle fails. -/
theorem faults_of_work (S : Sink α σ) (now : Instant) (c : Collector α σ) :
    ∃ entries, (work S now c).2.journal = entries ++ c.journal ∧
      (∀ entry ∈ entries, entry.isBeginning = false) ∧
      entries.any Entry.isFault = !(work S now c).1 := by
  fun_induction work S now c with
  | case1 c d hturn ih =>
    obtain ⟨later, hlater, hbegan, hfaults⟩ := ih
    obtain ⟨entries, hjournal, hbegan', hfaults'⟩ := faults_of_turn S now c
    rw [hturn] at hjournal hfaults'
    refine ⟨later ++ entries, ?_, ?_, ?_⟩
    · rw [hlater, show d.journal = _ from hjournal, List.append_assoc]
    · intro entry hentry
      rcases List.mem_append.1 hentry with he | he
      · exact hbegan entry he
      · exact hbegan' entry he
    · rw [List.any_append, hfaults, hfaults']
      exact Bool.or_false _
  | case2 c ok d hturn =>
    obtain ⟨entries, hjournal, hbegan, hfaults⟩ := faults_of_turn S now c
    rw [hturn] at hjournal hfaults
    refine ⟨entries, hjournal, hbegan, ?_⟩
    rw [hfaults]
    cases ok <;> rfl

/-- The end of a cycle notes no fault. -/
theorem failedCycles_conclude (ok : Bool) (c : Collector α σ) :
    failedCycles (conclude ok c).journal = failedCycles c.journal := by
  have hafter := eq_conclude (fun d : Collector α σ => failedCycles d.journal)
    (fun d => by
      unfold dropBatch
      split
      next => exact failedCycles_cons rfl rfl _
      next => rfl)
    (fun d => by
      unfold dropBacklog
      split
      next => exact failedCycles_cons rfl rfl _
      next => rfl)
    (fun _ => rfl) ok c
  refine hafter.trans ?_
  cases ok with
  | true => rfl
  | false => exact failedCycles_cons rfl rfl _

/-- A cycle that fails is counted when it ends. -/
theorem failedFlushes_conclude (ok : Bool) (c : Collector α σ) :
    (conclude ok c).tally.failedFlushes = c.tally.failedFlushes + (!ok).toNat := by
  have hafter := eq_conclude (fun d : Collector α σ => d.tally.failedFlushes)
    (fun d => by unfold dropBatch; split <;> rfl) (fun d => by unfold dropBacklog; split <;> rfl)
    (fun _ => rfl) ok c
  refine hafter.trans ?_
  cases ok <;> rfl

/-- Before its end it is not counted. -/
theorem failedFlushes_work (S : Sink α σ) (now : Instant) (c : Collector α σ) :
    (work S now c).2.tally.failedFlushes = c.tally.failedFlushes := by
  refine (moves_work S now c).keep
    (P := fun b => b.2.tally.failedFlushes = c.tally.failedFlushes) ?_ rfl
  intro b b' hb hmove
  cases hmove <;> exact hb

/-- A cycle counts as failed exactly if the sink was at fault in it. -/
theorem failedCycles_cycle {c : Collector α σ} (h : c.tally.failedFlushes = failedCycles c.journal)
    (S : Sink α σ) (now : Instant) (final : Bool) :
    (c.cycle S now final).tally.failedFlushes = failedCycles (c.cycle S now final).journal := by
  obtain ⟨entries, hjournal, hbegan, hfaults⟩ :=
    faults_of_work S now (c.note (.cycleBegan now final))
  have hafter : failedCycles (c.cycle S now final).journal =
      failedCycles c.journal + (entries.any Entry.isFault).toNat := by
    rw [← failedCycles_append hbegan now final]
    exact (failedCycles_conclude _ _).trans (congrArg failedCycles hjournal)
  have hcount : (c.cycle S now final).tally.failedFlushes =
      c.tally.failedFlushes + (!(work S now (c.note (.cycleBegan now final))).1).toNat := by
    refine (failedFlushes_conclude _ _).trans ?_
    rw [failedFlushes_work]
    rfl
  rw [hcount, hafter, hfaults, h]

/-- Between cycles as many of them are counted as have failed. -/
theorem failedCycles_rest (S : Sink α σ) :
    RestInvariant S fun c => c.tally.failedFlushes = failedCycles c.journal where
  cycle now final h := failedCycles_cycle h S now final
  offer {c} item h := by
    rcases offer_cases c item with hsame | ⟨-, ⟨-, haccept⟩ | ⟨-, hrefuse⟩⟩
    · rw [hsame]
      exact h
    · rw [haccept]
      exact h.trans (failedCycles_cons rfl rfl _).symm
    · rw [hrefuse]
      exact h.trans (failedCycles_cons rfl rfl _).symm
  outside _ _ _ h := h

/-! ## Snapshots and limits -/

/-- Between cycles the statistics show how much is staged. -/
theorem staged_rest (S : Sink α σ) : RestInvariant S fun c => c.stats.staged = c.staged.length where
  cycle now final h := rfl
  offer {c} item h := by
    rcases offer_cases c item with hsame | ⟨-, ⟨-, haccept⟩ | ⟨-, hrefuse⟩⟩
    · rw [hsame]
      exact h
    · rw [haccept]
      exact h
    · rw [hrefuse]
      exact h
  outside _ _ _ h := h

/-- The limit of the backlog stays as it is. -/
theorem limit_invariant (limit : Option Nat) :
    Invariant (α := α) (σ := σ) fun b => b.2.backlog.limit = limit where
  move h hmove := by cases hmove <;> exact h
  cycleBegan _ _ h := h
  recordFailure h _ := h
  dropBatch h := by
    unfold dropBatch
    split <;> exact h
  dropBacklog h _ := by
    unfold dropBacklog
    split <;> exact h
  takeStock h := h
  outside _ _ _ h := h

/-- Whether there is room for another item. -/
def hasRoom (settings : BatchSettings) (c : Collector α σ) : Bool :=
  match settings.queueLimit with
  | none => true
  | some limit => c.stats.queued < limit.toNat

/-- Unless the collector has ended, an offer is answered with whether there is room. -/
theorem offer_of_unended {settings : BatchSettings} {c : Collector α σ} (h : Unended c)
    (hlimit : c.backlog.limit = settings.queueLimit.map UInt64.toNat) (item : α) :
    (c.offer item).1 = .ok (c.hasRoom settings) := by
  have hfull : c.hasRoom settings = !c.backlog.isFull := by
    unfold hasRoom Backlog.isFull
    rw [hlimit]
    cases settings.queueLimit with
    | none => rfl
    | some limit =>
      show decide (c.backlog.size < limit.toNat) = !decide (limit.toNat ≤ c.backlog.size)
      rw [← decide_not]
      exact decide_eq_decide.2 Nat.not_le.symm
  have hoffer : (c.offer item).1 = .ok (c.backlog.offer item).1 := by
    unfold offer
    rcases h with hstage | hstage <;> rw [hstage] <;> dsimp only <;> split <;>
      next hb => rw [hb]
  rw [hoffer, hfull]
  unfold Backlog.offer
  cases c.backlog.isFull <;> rfl

/-! ## Fates -/

/-- The statistic that counts the items with a fate. Items over which the sink has panicked are not
counted. -/
def Fate.statistic : Fate → Option (Stats → Nat)
  | .queued => some Stats.queued
  | .staged => some Stats.staged
  | .delivered => some Stats.itemsFlushed
  | .rejected => some Stats.filtered
  | .panicked => none
  | .discarded => some Stats.droppedOnFailure

/-- Whether the sink has panicked over an item. -/
def Entry.isFilterPanic : Entry α → Bool
  | .filterPanicked _ _ => true
  | _ => false

/-- The batch that the sink has taken. -/
def Entry.delivery? : Entry α → Option (List α)
  | .flushed _ batch _ .ok => some batch
  | _ => none

/-- The batches that the sink has taken, latest first. -/
def deliveries (journal : List (Entry α)) : List (List α) := journal.filterMap Entry.delivery?

/-- There are as many deliveries as entries that say so. -/
theorem length_deliveries (journal : List (Entry α)) :
    (deliveries journal).length = journal.countP Entry.isDelivery := by
  unfold deliveries
  rw [List.length_filterMap_eq_countP]
  congr 1
  funext entry
  cases entry with
  | flushed instant batch replies outcome => cases outcome <;> rfl
  | _ => rfl

/-- The items that are delivered are those of the batches. -/
theorem sum_deliveries (journal : List (Entry α)) :
    ((deliveries journal).map List.length).sum =
      (collect (Entry.settled .delivered) journal).length := by
  induction journal with
  | nil => rfl
  | cons entry earlier ih =>
    have hsettled : entry.settled .delivered = entry.delivery?.getD [] := by
      cases entry with
      | flushed instant batch replies outcome => cases outcome <;> rfl
      | _ => rfl
    rw [collect_cons, List.length_append, ← ih, hsettled]
    unfold deliveries
    rw [List.filterMap_cons]
    cases entry.delivery? with
    | none => rfl
    | some batch =>
      rw [List.map_cons, List.sum_cons, Nat.add_comm]
      rfl

/-- There are as many items over which the sink has panicked as entries that say so. -/
theorem length_panicked (journal : List (Entry α)) :
    (collect (Entry.settled .panicked) journal).length = journal.countP Entry.isFilterPanic := by
  induction journal with
  | nil => rfl
  | cons entry earlier ih =>
    rw [collect_cons, List.length_append, ih, List.countP_cons]
    cases entry with
    | flushed instant batch replies outcome => cases outcome <;> rfl
    | _ => rfl

/-- Every marked item has one of the six fates. -/
theorem length_eq_fates (marked : List (α × Fate)) :
    marked.length = (withFate .queued marked).length + (withFate .staged marked).length +
      (withFate .delivered marked).length + (withFate .rejected marked).length +
      (withFate .discarded marked).length + (withFate .panicked marked).length := by
  induction marked with
  | nil => rfl
  | cons p rest ih =>
    simp only [withFate_cons, List.length_cons]
    cases p.2 <;> simp <;> omega

/-- The statistic of a fate is the number of items that are marked with it. -/
theorem Marking.statistic {c : Collector α σ} {items : List α} {marked : List (α × Fate)}
    (h : Marking c c.journal items marked) (htally : Tallied {} c.journal c.tally)
    (hstaged : c.stats.staged = c.staged.length) (fate : Fate) (statistic : Stats → Nat)
    (hstatistic : fate.statistic = some statistic) :
    statistic c.stats = (withFate fate marked).length := by
  rw [h.fates]
  cases fate with
  | queued => cases hstatistic; rfl
  | staged => cases hstatistic; exact hstaged
  | delivered => cases hstatistic; exact htally.itemsFlushed.trans (Nat.zero_add _)
  | rejected => cases hstatistic; exact htally.filtered.trans (Nat.zero_add _)
  | panicked => cases hstatistic
  | discarded => cases hstatistic; exact htally.droppedOnFailure.trans (Nat.zero_add _)

/-- The statistic that is missing is the number of these entries. -/
theorem Marking.panicked {c : Collector α σ} {items : List α} {marked : List (α × Fate)}
    (h : Marking c c.journal items marked) :
    (withFate .panicked marked).length = c.journal.countP Entry.isFilterPanic := by
  rw [h.fates]
  exact length_panicked c.journal

/-! ## The accounts -/

/-- The accounts of a collector after a run, with the answers to the requests and the commands of
the sink in the run. -/
structure Audited (settings : BatchSettings) (now : Instant) (c : Collector α σ)
    (answers : List Answer) (asked : List (Asked α σ)) : Prop where
  /-- Every item that was taken on has one fate. The statistic of a fate is the number of items with
  it, and as long as the sink does not panic over items every fate has one. -/
  fates : ∃ marked, marked.map Prod.fst = collect Entry.taken c.journal ∧
    (∀ fate statistic, Fate.statistic fate = some statistic →
      statistic c.stats = (withFate fate marked).length) ∧
    (c.journal.countP Entry.isFilterPanic = 0 → ∀ p ∈ marked, p.2.statistic.isSome = true)
  balance : c.stats.emitted = c.stats.queued + c.stats.staged + c.stats.itemsFlushed +
    c.stats.filtered + c.stats.droppedOnFailure + c.journal.countP Entry.isFilterPanic
  /-- Items that were answered for without a failure were taken on, or found no room. -/
  answered : now.Shown → c.stats.emitted + c.stats.droppedOnOverflow =
    answers.countP Answer.isOk + asked.countP Asked.isOk
  emit : now.Shown → Unended c → ∀ item, (c.emit now item).1 = .ok (c.hasRoom settings)
  commands : ∀ x ∈ asked, Unended x.collector → ∀ item, x.command = .emit item →
    x.reply = .emitted (some (.ok (x.collector.hasRoom settings)))
  batchesFlushed : c.stats.batchesFlushed = (deliveries c.journal).length
  itemsFlushed : c.stats.itemsFlushed = ((deliveries c.journal).map List.length).sum
  failedFlushes : c.stats.failedFlushes = failedCycles c.journal

section Run

variable {S : Sink α σ} {settings : BatchSettings} {sink : σ} {clock : Clock} {s : Session α σ}

/-- While the collector has not ended, an item that its sink emits is answered by the room that
there is. -/
theorem reply_of_mem_askedInRun (h : Session.create settings sink clock = .ok s)
    (requests : List (Request α)) (x : Asked α σ) (hx : x ∈ s.askedInRun S requests)
    (hunended : Unended x.collector) (item : α) (hcommand : x.command = .emit item) :
    x.reply = .emitted (some (.ok (x.collector.hasRoom settings))) := by
  obtain ⟨start, hstart, hx⟩ := List.mem_flatMap.1 hx
  obtain ⟨now, c, hsteps, hbegins⟩ := reached_of_mem_startsInRun hstart
  have hfirst : s.collector.unreachable = false ∧
      s.collector.backlog.limit = settings.queueLimit.map UInt64.toNat ∧
      s.clock = clock := by
    obtain ⟨valid, rfl⟩ := Session.eq_of_create h
    exact ⟨rfl, rfl, rfl⟩
  obtain ⟨hreach, hlimit, rfl⟩ := hfirst
  -- The cycle has begun with a collector that can be reached, unless it had ended before.
  have hopen := open_of_begins (resting_of_steps h hsteps) hreach hbegins
  have hlimits := (limit_invariant (α := α) (σ := σ) (settings.queueLimit.map UInt64.toNat)).rest S
  have hstartlimit := hlimits.begins (hsteps.keep (P := fun m => m.2.backlog.limit = _)
    hlimits.step hlimit) hbegins
  obtain ⟨hand, hwithin⟩ := (within_invariant _ _).asked
    (within_began start.instant start.final start.collector) x hx
  obtain ⟨_, hxlimit⟩ := (limit_invariant _).asked (c := start.collector) hstartlimit x hx
  have hxreach : x.collector.unreachable = false := by
    rcases hopen with hdisposed | hreach
    · exact absurd (hwithin.disposed hdisposed) (not_disposed_of_unended hunended)
    · exact hwithin.unreachable.trans hreach
  unfold Asked.reply obey
  rw [hcommand, hxreach]
  show Reply.emitted (some (x.collector.offer item).1) = _
  rw [offer_of_unended hunended hxlimit item]

/-- The statistics of a run agree with its journal. -/
theorem tallied_run (h : Session.create settings sink clock = .ok s) (S : Sink α σ)
    (requests : List (Request α)) :
    Tallied {} (s.run S requests).2.collector.journal (s.run S requests).2.collector.tally := by
  have hcounted : Counted {} [] (none, s.collector) := by
    obtain ⟨valid, rfl⟩ := Session.eq_of_create h
    exact ⟨[], rfl, .refl _⟩
  obtain ⟨entries, hjournal, htally⟩ := (tallied_invariant {} []).run hcounted (S := S) requests
  rw [List.append_nil] at hjournal
  rw [show (s.run S requests).2.collector.journal = entries from hjournal]
  exact htally

/-- In every run the accounts of a collector are in order. -/
theorem audited_run (h : Session.create settings sink clock = .ok s) (S : Sink α σ)
    (requests : List (Request α)) :
    Audited settings (s.run S requests).2.clock.monotonic (s.run S requests).2.collector
      (s.run S requests).1 (s.askedInRun S requests) := by
  obtain ⟨marked, hmarking⟩ := exists_marking_run (S := S) h requests
  have htally := tallied_run h S requests
  -- A new collector has nothing to account for.
  obtain ⟨hclock, hstaged, hfailed, hlimit, hnone⟩ :
      s.clock = clock ∧ s.collector.stats.staged = s.collector.staged.length ∧
        s.collector.tally.failedFlushes = failedCycles s.collector.journal ∧
        s.collector.backlog.limit = settings.queueLimit.map UInt64.toNat ∧
        s.collector.answered = 0 := by
    obtain ⟨valid, rfl⟩ := Session.eq_of_create h
    exact ⟨rfl, rfl, rfl, rfl, rfl⟩
  obtain rfl := hclock
  have hanswered := answered_run h (.refl (r := Step S)) requests
  have hstaged := (staged_rest S).run hstaged requests
  have hfates := hmarking.statistic htally hstaged
  have hpanicked := hmarking.panicked
  refine ⟨⟨marked, hmarking.items, hfates, ?_⟩, ?_, ?_, ?_,
    reply_of_mem_askedInRun h requests, ?_, ?_, (failedCycles_rest S).run hfailed requests⟩
  · intro hnever p hp
    rw [hnever, List.length_eq_zero_iff] at hpanicked
    have hne := withFate_eq_nil.1 hpanicked p hp
    cases hfate : p.2 with
    | panicked => exact absurd hfate hne
    | _ => rfl
  · have hemitted : (s.run S requests).2.collector.stats.emitted = marked.length := by
      rw [← List.length_map (f := Prod.fst), hmarking.items]
      exact htally.emitted.trans (Nat.zero_add _)
    rw [hemitted, length_eq_fates, hfates .queued _ rfl, hfates .staged _ rfl,
      hfates .delivered _ rfl, hfates .rejected _ rfl, hfates .discarded _ rfl, hpanicked]
  · intro shown
    rw [hnone, Nat.zero_add] at hanswered
    exact hanswered shown
  · intro shown hunended item
    rw [(emit_eq_offer shown (disposing_of_fresh h (steps_run (S := S) s requests)) item).1]
    exact offer_of_unended hunended (((limit_invariant _).rest S).run hlimit requests) item
  · rw [length_deliveries]
    exact htally.batchesFlushed.trans (Nat.zero_add _)
  · rw [sum_deliveries]
    exact htally.itemsFlushed.trans (Nat.zero_add _)

end Run

/-- Settings with a backlog that is soon full. -/
def narrow : BatchSettings := { batchSizeLimit := 2, periodMs := 1000, queueLimit := some 2 }

/-- A sink that wants even numbers, and panics over the number seven. -/
def fussy : Sink Nat (Sink.Script Nat) :=
  .scripted fun n => if n = 7 then .panic else if n % 2 = 0 then .keep else .discard

/-- The sink fails in one cycle and panics in another one, and it emits more than there is room for;
so do the requests. -/
theorem audited_run_fussy :
    ∃ s : Session Nat (Sink.Script Nat),
      Session.create narrow { takes := [⟨[.emit 4, .emit 6, .emit 8], .error⟩, ⟨[.emit 10], .ok⟩] }
          ⟨⟨0⟩, 0⟩ = .ok s ∧
        let requests := [.emit 2, .pass 5000000000, .emit 7, .emit 1, .emit 5, .pass 6000000000,
          .emit 14]
        let t := (s.run fussy requests).2
        t.clock.monotonic.Shown ∧ t.collector.stage = .active ∧
          t.collector.stats = ⟨1, 0, 7, 2, 1, 2, 4, 2, 0, 1⟩ ∧
          t.collector.journal.countP Entry.isFilterPanic = 1 ∧
          ((s.run fussy requests).1.countP Answer.isOk,
            (s.askedInRun fussy requests).countP Asked.isOk) = (5, 4) ∧
          Audited narrow t.clock.monotonic t.collector (s.run fussy requests).1
            (s.askedInRun fussy requests) := by
  refine ⟨_, rfl, ?_, ?_, ?_, ?_, ?_, audited_run rfl fussy _⟩
  · unfold Instant.Shown
    decide +kernel
  all_goals decide +kernel

end Courier.Collector
