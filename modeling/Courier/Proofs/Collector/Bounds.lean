import Courier.Proofs.Collector.Accounts
import Mathlib.Data.List.TakeWhile

/-!
# What a collector holds under a failing sink

However often its sink fails, a collector holds a bounded number of items: the backlog is never
longer than its limit, the staged batch never longer than a batch, and both are given up when the
failures reach their thresholds.

> `streak_cycle`: the count of failures is that of the failed cycles since the last delivery.

> `retained_rest`: a batch stays staged only while there have been failures, and too few of them to
> give it up.

> `contained_run`: the bounds after any run, and at the end of every cycle in it.
-/

namespace Courier.Collector

variable {α σ : Type}

/-! ## The streak of failed cycles -/

/-- The entries since the last delivery. -/
def sinceDelivery (journal : List (Entry α)) : List (Entry α) :=
  journal.takeWhile fun entry => !entry.isDelivery

/-- A fault is no delivery. -/
theorem Entry.isDelivery_of_isFault {entry : Entry α} (h : entry.isFault = true) :
    entry.isDelivery = false := by
  cases entry with
  | flushed instant batch replies outcome =>
    cases outcome with
    | ok => cases h
    | error => rfl
    | panic => rfl
  | _ => rfl

/-- An entry that begins no cycle, tells of no fault and delivers nothing leaves the streak. -/
theorem failedCycles_sinceDelivery_cons {entry : Entry α} (hbeginning : entry.isBeginning = false)
    (hfault : entry.isFault = false) (hdelivery : entry.isDelivery = false)
    (journal : List (Entry α)) :
    failedCycles (sinceDelivery (entry :: journal)) = failedCycles (sinceDelivery journal) := by
  unfold sinceDelivery
  rw [List.takeWhile_cons, hdelivery]
  exact failedCycles_cons hbeginning hfault _

/-- Without the beginning of a cycle there is one cycle at most. -/
theorem failedCycles_of_no_beginning {entries : List (Entry α)}
    (h : ∀ entry ∈ entries, entry.isBeginning = false) :
    failedCycles entries = (entries.any Entry.isFault).toNat := by
  unfold failedCycles
  have hsplit : entries.splitOnP Entry.isBeginning = [entries] := by
    refine List.splitOnP_eq_singleton ?_
    intro entry hentry
    exact h entry hentry
  rw [hsplit]
  cases hfault : entries.any Entry.isFault <;> simp [hfault]

/-- The streak after the calls of a cycle, if the fault that ends them is noted last. -/
theorem failedCycles_sinceDelivery_append {entries : List (Entry α)}
    (hbegan : ∀ entry ∈ entries, entry.isBeginning = false)
    (hlast : entries.any Entry.isFault = true →
      ∃ fault earlier, entries = fault :: earlier ∧ fault.isFault = true)
    (now : Instant) (final : Bool) (journal : List (Entry α)) :
    failedCycles (sinceDelivery (entries ++ .cycleBegan now final :: journal)) =
      (if entries.any Entry.isDelivery then 0 else failedCycles (sinceDelivery journal)) +
        (entries.any Entry.isFault).toNat := by
  by_cases hdelivery : entries.any Entry.isDelivery = true
  · -- A delivery cuts the cycle in two, and its fault comes behind the cut.
    have hcut : sinceDelivery (entries ++ .cycleBegan now final :: journal) =
        sinceDelivery entries := by
      unfold sinceDelivery
      rw [List.takeWhile_append, if_neg]
      intro hall
      have hself := (List.takeWhile_prefix fun e : Entry α => !e.isDelivery).eq_of_length hall
      obtain ⟨entry, hentry, hd⟩ := List.any_eq_true.1 hdelivery
      have hnone := List.takeWhile_eq_self_iff.1 hself entry hentry
      simp [hd] at hnone
    have hfaults : (sinceDelivery entries).any Entry.isFault = entries.any Entry.isFault := by
      cases hfault : entries.any Entry.isFault with
      | true =>
        obtain ⟨fault, earlier, rfl, hisFault⟩ := hlast hfault
        unfold sinceDelivery
        rw [List.takeWhile_cons, Entry.isDelivery_of_isFault hisFault]
        simp [hisFault]
      | false =>
        rw [List.any_eq_false] at hfault ⊢
        intro entry hentry
        exact hfault entry (List.takeWhile_subset _ hentry)
    rw [hcut, failedCycles_of_no_beginning, hfaults, if_pos hdelivery, Nat.zero_add]
    intro entry hentry
    exact hbegan entry (List.takeWhile_subset _ hentry)
  · have hpass : sinceDelivery (entries ++ .cycleBegan now final :: journal) =
        entries ++ .cycleBegan now final :: sinceDelivery journal := by
      unfold sinceDelivery
      rw [List.takeWhile_append_of_pos, List.takeWhile_cons]
      · rfl
      · intro entry hentry
        simp only [List.any_eq_true, not_exists, not_and] at hdelivery
        simpa using hdelivery entry hentry
    rw [hpass, failedCycles_append hbegan, if_neg hdelivery]

/-! ## The count of failures -/

/-- The collector counts the failed cycles since the last delivery, as far as its counter goes. -/
def StreakCounted (c : Collector α σ) : Prop :=
  c.failures.toNat = min (failedCycles (sinceDelivery c.journal)) (UInt32.size - 1)

/-- A failure is counted, as far as the counter goes. -/
theorem toNat_recordFailure (c : Collector α σ) :
    c.recordFailure.failures.toNat = min (c.failures.toNat + 1) (UInt32.size - 1) := by
  show (if c.failures.toNat + 1 < UInt32.size then c.failures + 1 else c.failures).toNat = _
  have hlt := UInt32.toNat_lt_size c.failures
  split
  next hroom =>
    rw [UInt32.toNat_add, show (1 : UInt32).toNat = 1 from rfl, Nat.mod_eq_of_lt hroom]
    omega
  next => omega

/-- What the end of a cycle notes is no part of the streak. -/
theorem sinceDelivery_conclude (ok : Bool) (c : Collector α σ) :
    failedCycles (sinceDelivery (conclude ok c).journal) =
      failedCycles (sinceDelivery c.journal) := by
  have hafter := eq_conclude (fun d : Collector α σ => failedCycles (sinceDelivery d.journal))
    (fun d => by
      unfold dropBatch
      split
      next => exact failedCycles_sinceDelivery_cons rfl rfl rfl _
      next => rfl)
    (fun d => by
      unfold dropBacklog
      split
      next => exact failedCycles_sinceDelivery_cons rfl rfl rfl _
      next => rfl)
    (fun _ => rfl) ok c
  refine hafter.trans ?_
  cases ok with
  | true => rfl
  | false => exact failedCycles_sinceDelivery_cons rfl rfl rfl _

/-- The calls of a cycle end the streak if they deliver a batch, and count no failure yet. -/
theorem failures_work (S : Sink α σ) (now : Instant) (final : Bool) (c : Collector α σ)
    {entries : List (Entry α)}
    (hjournal : (work S now (c.note (.cycleBegan now final))).2.journal =
      entries ++ .cycleBegan now final :: c.journal) :
    (work S now (c.note (.cycleBegan now final))).2.failures =
      if entries.any Entry.isDelivery then 0 else c.failures := by
  have hmoves := moves_work S now (c.note (.cycleBegan now final))
  obtain ⟨-, worked, hworked, -, hquiet⟩ := hmoves.keep Working.move (working_began c now final)
  obtain ⟨streak, hstreak, hfailures⟩ :=
    hmoves.keep (streak_invariant c.failures c.journal).move ⟨[.cycleBegan now final], rfl, rfl⟩
  dsimp only at hworked hstreak hfailures
  -- Both tell of the same entries, those since the cycle began.
  rw [List.append_cons] at hjournal
  obtain rfl := List.append_cancel_right (hworked.symm.trans hjournal)
  obtain rfl := List.append_cancel_right (hstreak.symm.trans hjournal)
  rw [hfailures, failuresAfter_of_no_failure fun entry hentry => (hquiet entry hentry).1]
  simp [Entry.isDelivery]

/-- The fault that ends the calls of a cycle is noted last. -/
theorem latest_fault_of_work {S : Sink α σ} {now : Instant} {c : Collector α σ}
    {entries : List (Entry α)} (hjournal : (work S now c).2.journal = entries ++ c.journal)
    (hfaults : entries.any Entry.isFault = !(work S now c).1)
    (hfault : entries.any Entry.isFault = true) :
    ∃ fault earlier, entries = fault :: earlier ∧ fault.isFault = true := by
  rw [hfault] at hfaults
  have hfailed : (work S now c).1 = false := by simpa using hfaults
  obtain ⟨fault, earlier, hlatest, hisFault⟩ := faulted_of_work hfailed
  cases entries with
  | nil => cases hfault
  | cons entry rest =>
    rw [hjournal] at hlatest
    obtain ⟨rfl, -⟩ := List.cons.inj hlatest
    exact ⟨entry, rest, rfl, hisFault⟩

/-- A cycle keeps the count of the streak. -/
theorem streak_cycle {c : Collector α σ} (h : StreakCounted c) (S : Sink α σ) (now : Instant)
    (final : Bool) : StreakCounted (c.cycle S now final) := by
  obtain ⟨entries, hjournal, hbegan, hfaults⟩ :=
    faults_of_work S now (c.note (.cycleBegan now final))
  have hfailures := failures_work S now final c hjournal
  have hlast := latest_fault_of_work hjournal hfaults
  unfold StreakCounted at h ⊢
  rw [cycle_of_work rfl, sinceDelivery_conclude, (concluded _ _).failures, hjournal]
  show _ = min (failedCycles (sinceDelivery (entries ++ .cycleBegan now final :: c.journal))) _
  rw [failedCycles_sinceDelivery_append hbegan hlast, hfaults]
  have hsize : UInt32.size = 4294967296 := rfl
  cases (work S now (c.note (.cycleBegan now final))).1 with
  | true =>
    rw [if_pos rfl, hfailures]
    cases entries.any Entry.isDelivery with
    | true => simp
    | false => simpa using h
  | false =>
    rw [if_neg Bool.false_ne_true, toNat_recordFailure, hfailures]
    cases entries.any Entry.isDelivery with
    | true => simp [hsize]
    | false =>
      simp only [Bool.not_false, Bool.toNat_true, if_neg Bool.false_ne_true, h]
      omega

/-- Between cycles the failures are counted so. -/
theorem streak_rest (S : Sink α σ) : RestInvariant S StreakCounted where
  cycle now final h := streak_cycle h S now final
  offer item h := by
    refine offer_keeps h ?_ ?_
    · exact h.trans (congrArg (min · _) (failedCycles_sinceDelivery_cons rfl rfl rfl _).symm)
    · exact h.trans (congrArg (min · _) (failedCycles_sinceDelivery_cons rfl rfl rfl _).symm)
  outside _ _ _ h := h

/-! ## What stays and what is given up -/

/-- The statistics show the failures, and a batch is staged only while there have been failures, but
too few of them to give it up. -/
structure Retained (settings : BatchSettings) (c : Collector α σ) : Prop where
  fixed : c.settings = settings
  shown : c.stats.consecutiveFailures = c.failures.toNat
  staged : c.staged ≠ [] →
    1 ≤ c.failures.toNat ∧ c.failures.toNat < settings.backoff.dropBatchAfter.toNat

/-- A cycle leaves the settings as they are. -/
theorem settings_cycle (S : Sink α σ) (now : Instant) (final : Bool) (c : Collector α σ) :
    (c.cycle S now final).settings = c.settings := by
  rw [cycle_of_work rfl, (concluded _ _).settings]
  exact ((moves_work S now _).keep Working.move (working_began c now final)).fixed

/-- To give the backlog up leaves the batch as it is. -/
theorem staged_dropBacklog (c : Collector α σ) : c.dropBacklog.staged = c.staged := by
  unfold dropBacklog
  split <;> rfl

/-- At the end of a cycle the staged batch is given up if the failures are enough for that. -/
theorem staged_conclude (ok : Bool) (c : Collector α σ)
    (h : c.settings.backoff.dropBatchAfter.toNat ≤ (conclude ok c).failures.toNat) :
    (conclude ok c).staged = [] := by
  show ((if ok then c else c.recordFailure).dropBatch.dropBacklog).staged = []
  rw [staged_dropBacklog]
  have hdrops : (if ok then c else c.recordFailure).pacing.dropsBatch = true := by
    rw [(concluded _ _).failures] at h
    refine decide_eq_true (UInt32.le_iff_toNat_le.2 ?_)
    cases ok <;> exact h
  generalize (if ok then c else c.recordFailure) = d at hdrops
  unfold dropBatch
  by_cases hstaged : d.staged = []
  · rw [if_neg fun hdrop => hdrop.2 hstaged]
    exact hstaged
  · rw [if_pos ⟨hdrops, hstaged⟩]
    rfl

/-- So is the backlog. -/
theorem backlog_conclude (ok : Bool) (c : Collector α σ)
    (h : c.settings.backoff.dropQueueAfter.toNat ≤ (conclude ok c).failures.toNat) :
    (conclude ok c).backlog.items = [] := by
  show ((if ok then c else c.recordFailure).dropBatch.dropBacklog).backlog.items = []
  have hdrops : (if ok then c else c.recordFailure).dropBatch.pacing.dropsQueue = true := by
    have hsame (d : Collector α σ) : d.dropBatch.pacing = d.pacing := by
      unfold dropBatch
      split <;> rfl
    rw [hsame]
    rw [(concluded _ _).failures] at h
    refine decide_eq_true (UInt32.le_iff_toNat_le.2 ?_)
    cases ok <;> exact h
  unfold dropBacklog
  rw [if_pos hdrops]
  rfl

/-- What a cycle leaves when the failures have reached the thresholds. -/
theorem givenUp_cycle (S : Sink α σ) (now : Instant) (final : Bool) (c : Collector α σ) :
    (c.settings.backoff.dropBatchAfter.toNat ≤ (c.cycle S now final).stats.consecutiveFailures →
      (c.cycle S now final).staged = []) ∧
    (c.settings.backoff.dropQueueAfter.toNat ≤ (c.cycle S now final).stats.consecutiveFailures →
      (c.cycle S now final).staged = [] ∧ (c.cycle S now final).backlog.items = []) := by
  have hshown : (c.cycle S now final).stats.consecutiveFailures =
      (c.cycle S now final).failures.toNat := rfl
  obtain ⟨-, horder⟩ := BatchSettings.Valid.thresholds c.valid
  have hsettings : (work S now (c.note (.cycleBegan now final))).2.settings = c.settings :=
    ((moves_work S now _).keep Working.move (working_began c now final)).fixed
  rw [hshown, cycle_of_work rfl]
  generalize work S now (c.note (.cycleBegan now final)) = worked at hsettings ⊢
  rw [← hsettings] at horder ⊢
  refine ⟨staged_conclude _ _, ?_⟩
  intro hreached
  refine ⟨staged_conclude _ _ ?_, backlog_conclude _ _ hreached⟩
  exact Nat.le_trans (UInt32.le_iff_toNat_le.1 horder) hreached

/-- The calls of a cycle that have not failed leave nothing staged. -/
theorem staged_of_work {S : Sink α σ} {now : Instant} {c : Collector α σ}
    (h : (work S now c).1 = true) : (work S now c).2.staged = [] := by
  obtain ⟨d, -, hlast⟩ := exists_last_turn S now (P := fun _ => True) (fun _ _ => trivial)
    (c := c) trivial
  rw [h] at hlast
  exact (settled_of_turn hlast).1

/-- Without a batch there is none to give up. -/
theorem staged_dropBatch_of_nil {c : Collector α σ} (h : c.staged = []) :
    c.dropBatch.staged = [] := by
  unfold dropBatch
  split
  next => rfl
  next => exact h

/-- A cycle leaves a batch behind only if it has failed. -/
theorem retained_cycle {settings : BatchSettings} {c : Collector α σ} (h : Retained settings c)
    (S : Sink α σ) (now : Instant) (final : Bool) : Retained settings (c.cycle S now final) := by
  have hfixed : (c.cycle S now final).settings = settings :=
    (settings_cycle S now final c).trans h.fixed
  refine ⟨hfixed, rfl, ?_⟩
  intro hstaged
  constructor
  · cases hwork : (work S now (c.note (.cycleBegan now final))).1 with
    | true =>
      refine absurd ?_ hstaged
      rw [cycle_of_work hwork]
      show (work S now (c.note (.cycleBegan now final))).2.dropBatch.dropBacklog.staged = []
      rw [staged_dropBacklog]
      exact staged_dropBatch_of_nil (staged_of_work hwork)
    | false =>
      rw [cycle_of_work hwork, (concluded _ _).failures, if_neg Bool.false_ne_true,
        toNat_recordFailure]
      have hsize : UInt32.size = 4294967296 := rfl
      omega
  · by_contra hreached
    rw [cycle_of_work rfl] at hstaged hfixed hreached
    rw [(concluded _ _).settings] at hfixed
    exact hstaged (staged_conclude _ _ (by rw [hfixed]; exact Nat.not_lt.1 hreached))

/-- Between cycles that is so after any run. -/
theorem retained_rest (settings : BatchSettings) (S : Sink α σ) :
    RestInvariant S (Retained settings) where
  cycle now final h := retained_cycle h S now final
  offer _ h := offer_keeps h ⟨h.fixed, h.shown, h.staged⟩ ⟨h.fixed, h.shown, h.staged⟩
  outside _ _ _ h := ⟨h.fixed, h.shown, h.staged⟩

/-- The backlog is not longer than its limit. -/
theorem fits_invariant : Invariant (α := α) (σ := σ) fun b =>
    ∀ limit, b.2.backlog.limit = some limit → b.2.backlog.size ≤ limit where
  move h hmove := by
    cases hmove with
    | accepted hand c item _ room =>
      intro limit hlimit
      have hlimit' : c.backlog.limit = some limit := hlimit
      unfold Backlog.isFull at room
      rw [hlimit'] at room
      have hlt : c.backlog.size < limit := by simpa using room
      show (c.backlog.items ++ [item]).length ≤ limit
      rw [List.length_append, List.length_singleton]
      exact hlt
    | picked c item rest backlog =>
      intro limit hlimit
      have hle : c.backlog.size ≤ limit := h limit hlimit
      unfold Backlog.size at hle
      rw [backlog, List.length_cons] at hle
      exact Nat.le_of_succ_le hle
    | _ => exact h
  cycleBegan _ _ h := h
  recordFailure h _ := h
  dropBatch h := by
    unfold dropBatch
    split <;> exact h
  dropBacklog h _ := by
    unfold dropBacklog
    split
    next => exact fun _ _ => Nat.zero_le _
    next => exact h
  takeStock h := h
  outside _ _ _ h := h

/-! ## Runs -/

/-- How much a collector holds after a run, and what each of the cycles in the run leaves. -/
structure Contained (S : Sink α σ) (settings : BatchSettings) (c : Collector α σ)
    (starts : List (Start α σ)) : Prop where
  staged : c.stats.staged = c.staged.length
  batch : c.stats.staged ≤ settings.batchSizeLimit.toNat
  queued : ∀ limit, settings.queueLimit = some limit → c.stats.queued ≤ limit.toNat
  /-- The counter goes up to the greatest number that it can hold. -/
  failures : c.stats.consecutiveFailures =
    min (failedCycles (sinceDelivery c.journal)) (UInt32.size - 1)
  retained : 0 < c.stats.staged → 1 ≤ c.stats.consecutiveFailures ∧
    c.stats.consecutiveFailures < settings.backoff.dropBatchAfter.toNat
  batchGivenUp : ∀ start ∈ starts,
    let d := start.collector.cycle S start.instant start.final
    settings.backoff.dropBatchAfter.toNat ≤ d.stats.consecutiveFailures → d.staged = []
  queueGivenUp : ∀ start ∈ starts,
    let d := start.collector.cycle S start.instant start.final
    settings.backoff.dropQueueAfter.toNat ≤ d.stats.consecutiveFailures →
      d.staged = [] ∧ d.backlog.items = []

/-- In every run a collector keeps to its bounds. -/
theorem contained_run {settings : BatchSettings} {sink : σ} {clock : Clock} {s : Session α σ}
    (h : Session.create settings sink clock = .ok s) (S : Sink α σ) (requests : List (Request α)) :
    Contained S settings (s.run S requests).2.collector (s.startsInRun S requests) := by
  have hbatched := batched_of_create h
  -- A new collector holds nothing.
  obtain ⟨hretained, hcounted, hstock, hlimit, hfits⟩ :
      Retained settings s.collector ∧ StreakCounted s.collector ∧
        s.collector.stats.staged = s.collector.staged.length ∧
        s.collector.backlog.limit = settings.queueLimit.map UInt64.toNat ∧
        ∀ limit, s.collector.backlog.limit = some limit → s.collector.backlog.size ≤ limit := by
    obtain ⟨valid, rfl⟩ := Session.eq_of_create h
    exact ⟨⟨rfl, rfl, fun hne => absurd rfl hne⟩, rfl, rfl, rfl, fun _ _ => Nat.zero_le _⟩
  have hstaged := (staged_rest S).run hstock requests
  have hkept := (retained_rest settings S).run hretained requests
  have hsettings : ∀ start ∈ s.startsInRun S requests, start.collector.settings = settings := by
    intro start hstart
    obtain ⟨now, c, hsteps, hbegins⟩ := reached_of_mem_startsInRun hstart
    have hreached := hsteps.keep (P := fun m => Retained settings m.2)
      (retained_rest settings S).step hretained
    exact ((retained_rest settings S).begins hreached hbegins).fixed
  refine ⟨hstaged, ?_, ?_, ?_, ?_, ?_, ?_⟩
  · rw [hstaged]
    exact ((batched_invariant settings).run hbatched requests).size
  · intro limit hset
    refine fits_invariant.run (S := S) hfits requests _ ?_
    rw [((limit_invariant _).rest S).run hlimit requests, hset]
    rfl
  · rw [hkept.shown]
    exact (streak_rest S).run hcounted requests
  · intro hpos
    rw [hstaged] at hpos
    rw [hkept.shown]
    exact hkept.staged (List.length_pos_iff.1 hpos)
  · intro start hstart
    rw [← hsettings start hstart]
    exact (givenUp_cycle S _ _ _).1
  · intro start hstart
    rw [← hsettings start hstart]
    exact (givenUp_cycle S _ _ _).2

/-- Settings with which a batch goes to the sink three times at most. -/
def patient : BatchSettings :=
  { batchSizeLimit := 2, periodMs := 1000, queueLimit := some 3, backoff := ⟨1000, 1000, 3, 4⟩ }

/-- The sink takes the first batch, and then fails until the staged batch is given up. The backlog
outlives it. -/
theorem contained_run_patient :
    ∃ s : Session Nat (Sink.Script Nat),
      Session.create patient
          { takes := [⟨[], .ok⟩, ⟨[], .error⟩, ⟨[], .panic⟩, ⟨[], .error⟩, ⟨[], .error⟩] }
          ⟨⟨0⟩, 0⟩ = .ok s ∧
        let S := Sink.scripted fun _ : Nat => .keep
        let requests := [.emit 1, .emit 2, .emit 3, .emit 4, .emit 5, .pass 2000000000]
        (s.run S requests).2.collector.stats = ⟨1, 2, 4, 1, 0, 1, 1, 2, 0, 2⟩ ∧
          ((s.run S (requests ++ [.pass 1000000000])).2.collector.staged,
            (s.run S (requests ++ [.pass 1000000000])).2.collector.backlog.items) = ([], [4]) ∧
          Contained S patient (s.run S requests).2.collector (s.startsInRun S requests) := by
  refine ⟨_, rfl, ?_, ?_, contained_run rfl _ _⟩
  · decide +kernel
  · decide +kernel

end Courier.Collector
