import Courier.Collector.Script
import Courier.Proofs.Collector.Batches
import Courier.Proofs.Collector.Counters
import Courier.Proofs.Collector.Ledger
import Courier.Proofs.Collector.Runs

/-!
# What a cycle without a fault gives up

The thresholds for giving items up are looked at in every cycle, also in one in which the sink was
not at fault. Such a cycle empties the stage and the backlog, so there is hardly anything left to
give up: only what the sink emits when it hears that there is nothing to take. If the failures of
earlier cycles still count, because nothing was delivered meanwhile, these items are discarded.

> `faultless_cycle`: of the items that a cycle without a fault holds or takes on, those are
> discarded, in that case, and no others.

> `idle_items_discarded`: a run in which it happens.
-/

namespace Courier.Collector

variable {α σ : Type}

/-! ## A sink without faults -/

/-- Where the sink is not at fault, it does not panic over items. -/
theorem panicked_of_faultless {entry : Entry α} (h : entry.isFault = false) :
    entry.settled .panicked = [] := by
  cases entry with
  | flushed instant batch replies outcome => cases outcome <;> rfl
  | filterPanicked instant item => cases h
  | _ => rfl

/-- Without failures no threshold is reached. -/
theorem not_drops_of_healthy {c : Collector α σ} (h : c.failures = 0) :
    c.pacing.dropsBatch = false ∧ c.pacing.dropsQueue = false := by
  obtain ⟨hpos, horder⟩ := BatchSettings.Valid.thresholds c.valid
  constructor
  · refine decide_eq_false fun hle => ?_
    have hle' : c.settings.backoff.dropBatchAfter ≤ c.failures := hle
    rw [h] at hle'
    exact UInt32.not_lt.2 hle' hpos
  · refine decide_eq_false fun hle => ?_
    have hle' : c.settings.backoff.dropQueueAfter ≤ c.failures := hle
    rw [h] at hle'
    exact UInt32.not_lt.2 (UInt32.le_trans horder hle') hpos

/-! ## Offers in the journal -/

namespace Entry

/-- Whether an item was offered to the collector. -/
def isOffer : Entry α → Bool
  | .accepted _ | .refused _ => true
  | _ => false

end Entry

/-- The items that were taken on while the sink heard for the last time that there is nothing to
take. -/
def idleItems : List (Entry α) → List α
  | [] => []
  | .idled _ _ _ :: earlier => collect Entry.taken (earlier.takeWhile Entry.isOffer)
  | _ :: earlier => idleItems earlier

/-- From `c` to `d` nothing has happened but offers. -/
def Offered (c d : Collector α σ) : Prop :=
  ∃ offers, d.journal = offers ++ c.journal ∧ (∀ entry ∈ offers, entry.isOffer = true) ∧
    d.backlog.items = c.backlog.items ++ collect Entry.taken offers

/-- Where nothing is noted and the backlog stays, nothing was offered. -/
theorem Offered.of_silent {c d : Collector α σ} (hjournal : d.journal = c.journal)
    (hbacklog : d.backlog.items = c.backlog.items) : Offered c d :=
  ⟨[], hjournal, List.forall_mem_nil _, by rw [hbacklog]; exact (List.append_nil _).symm⟩

/-- Offers can follow offers. -/
theorem Offered.trans {c d e : Collector α σ} (h : Offered c d) (h' : Offered d e) :
    Offered c e := by
  obtain ⟨offers, hjournal, hoffers, hbacklog⟩ := h
  obtain ⟨offers', hjournal', hoffers', hbacklog'⟩ := h'
  refine ⟨offers' ++ offers, ?_, ?_, ?_⟩
  · rw [hjournal', hjournal, List.append_assoc]
  · intro entry hentry
    rcases List.mem_append.1 hentry with he | he
    · exact hoffers' entry he
    · exact hoffers entry he
  · rw [hbacklog', hbacklog, collect_append, List.append_assoc]

/-- An offer is noted as taken on or as refused, or not at all. -/
theorem offered_offer (c : Collector α σ) (item : α) : Offered c (c.offer item).2 := by
  rcases offer_cases c item with h | ⟨-, ⟨-, h⟩ | ⟨-, h⟩⟩
  · rw [h]
    exact .of_silent rfl rfl
  · rw [h]
    exact ⟨[.accepted item], rfl, by simp [Entry.isOffer], rfl⟩
  · rw [h]
    exact ⟨[.refused item], rfl, by simp [Entry.isOffer], (List.append_nil _).symm⟩

/-- Commands of the sink are offers, or leave the journal and the backlog as they are. -/
theorem offered_obeyAll (c : Collector α σ) (commands : List (Sink.Command α)) :
    Offered c (c.obeyAll commands).2 := by
  induction commands generalizing c with
  | nil => exact .of_silent rfl rfl
  | cons command rest ih =>
    refine Offered.trans ?_ (ih (c.obey command).2)
    unfold obey
    split
    next => split <;> exact .of_silent rfl rfl
    next =>
      split
      next item => exact offered_offer c item
      next => unfold requestClose; split <;> exact .of_silent rfl rfl
      next => exact .of_silent rfl rfl

/-! ## The calls of a cycle -/

/-- The calls of a cycle since the journal was `base`, during which nothing fails for good and
nothing is given up, and the latest entry is not an offer. -/
structure Working (settings : BatchSettings) (base : List (Entry α)) (b : Bench α σ) : Prop where
  fixed : b.2.settings = settings
  entries : ∃ entries, b.2.journal = entries ++ base ∧ entries ≠ [] ∧
    ∀ entry ∈ entries, entry.isFailure = false ∧ entry.settled .discarded = []

/-- An entry that is no failure and gives nothing up belongs to the calls of a cycle. -/
theorem Working.note {settings : BatchSettings} {base : List (Entry α)} {hand hand' : Option α}
    {c d : Collector α σ} {entry : Entry α} (h : Working settings base (hand, c))
    (hsettings : d.settings = c.settings) (hjournal : d.journal = entry :: c.journal)
    (hfailure : entry.isFailure = false) (hdiscarded : entry.settled .discarded = []) :
    Working settings base (hand', d) := by
  obtain ⟨hfixed, entries, hbase, -, hentries⟩ := h
  refine ⟨hsettings.trans hfixed, entry :: entries, ?_, nofun, ?_⟩
  · rw [hjournal, hbase, List.cons_append]
  · intro e he
    rcases List.mem_cons.1 he with rfl | he
    · exact ⟨hfailure, hdiscarded⟩
    · exact hentries e he

/-- The moves of a cycle note no others. -/
theorem Working.move {settings : BatchSettings} {base : List (Entry α)} {b b' : Bench α σ}
    (h : Working settings base b) (hmove : Move b b') : Working settings base b' := by
  cases hmove with
  | advanced => exact ⟨h.fixed, h.entries⟩
  | accepted hand c item => exact h.note rfl rfl rfl rfl
  | refused hand c item => exact h.note rfl rfl rfl rfl
  | closing => exact ⟨h.fixed, h.entries⟩
  | picked => exact ⟨h.fixed, h.entries⟩
  | kept c item => exact h.note rfl rfl rfl rfl
  | rejected c item => exact h.note rfl rfl rfl rfl
  | panicked c now item => exact h.note rfl rfl rfl rfl
  | delivered c now replies => exact h.note rfl rfl rfl rfl
  | undelivered c now replies outcome =>
    refine h.note rfl rfl rfl ?_
    cases outcome <;> rfl
  | idled c now replies outcome => exact h.note rfl rfl rfl rfl

/-- The latest entry of the journal is not an offer. -/
def Marked (c : Collector α σ) : Prop :=
  ∃ entry earlier, c.journal = entry :: earlier ∧ entry.isOffer = false

/-- A call after which the cycle goes on has noted what it has come to. -/
theorem marked_of_again {S : Sink α σ} {now : Instant} {c d : Collector α σ}
    (h : turn S now c = .again d) : d.Marked := by
  unfold turn at h
  split at h
  next item backlog _ =>
    unfold judge at h
    dsimp only at h
    split at h
    next => cases h; exact ⟨_, _, rfl, rfl⟩
    next => cases h; exact ⟨_, _, rfl, rfl⟩
    next => cases h
  next =>
    split at h
    next => cases h
    next =>
      unfold deliver at h
      dsimp only at h
      split at h
      next houtcome =>
        split at h
        next => cases h; exact ⟨_, _, rfl, rfl⟩
        next => cases h
      next => cases h
      next => cases h

/-- How a call ends the cycle without a failure: it is a delivery, or the sink hears that there is
nothing to take, and then the backlog holds what the sink has emitted meanwhile. -/
inductive Settled (c d : Collector α σ) : Prop where
  | delivered (instant : Instant) (batch : List α) (replies : List Reply)
      (earlier : List (Entry α))
      (latest : d.journal = .flushed instant batch replies .ok :: earlier)
  | idled (instant : Instant) (replies : List Reply) (outcome : Sink.Outcome)
      (offers : List (Entry α))
      (latest : d.journal = .idled instant replies outcome :: (offers ++ c.journal))
      (offered : ∀ entry ∈ offers, entry.isOffer = true)
      (backlog : d.backlog.items = collect Entry.taken offers)

/-- Where there is no next item though there is room for one, the backlog is empty. -/
theorem backlog_of_nextItem?_eq_none {c : Collector α σ} (h : c.nextItem? = none)
    (hroom : c.staged.length < c.batchSize) : c.backlog.items = [] := by
  unfold nextItem? at h
  rw [if_pos hroom] at h
  unfold Backlog.pop? at h
  split at h
  next hitems => exact hitems
  next => cases h

/-- A cycle ends without a failure only when there is no next item though there is room for one. -/
theorem room_of_turn {S : Sink α σ} {now : Instant} {c d : Collector α σ}
    (h : turn S now c = .ended true d) : c.nextItem? = none ∧ c.staged.length < c.batchSize := by
  unfold turn at h
  split at h
  next item backlog _ =>
    unfold judge at h
    dsimp only at h
    split at h <;> cases h
  next hnext =>
    refine ⟨hnext, ?_⟩
    split at h
    next hempty =>
      rw [List.isEmpty_iff.1 hempty]
      exact BatchSettings.Valid.batchSizeLimit_pos c.valid
    next =>
      have hkept := kept_obeyAll { c with sink := (S.take c.sink c.staged).next }
        (S.take c.sink c.staged).commands
      unfold deliver at h
      dsimp only at h
      split at h
      next =>
        split at h
        next => cases h
        next hroom =>
          unfold batchSize note at hroom
          dsimp only at hroom
          rw [hkept.settings] at hroom
          exact Nat.lt_of_not_le hroom
      next => cases h
      next => cases h

/-- A call that ends a cycle without a failure leaves nothing staged. -/
theorem settled_of_turn {S : Sink α σ} {now : Instant} {c d : Collector α σ}
    (h : turn S now c = .ended true d) : d.staged = [] ∧ Settled c d := by
  obtain ⟨hnext, hroom⟩ := room_of_turn h
  have hbacklog := backlog_of_nextItem?_eq_none hnext hroom
  unfold turn at h
  rw [hnext] at h
  dsimp only at h
  split at h
  next hempty =>
    -- The backlog was empty before the call, so it holds what the sink has emitted in it.
    have hstaged := List.isEmpty_iff.1 hempty
    have hkept := kept_obeyAll { c with sink := (S.idle c.sink).next } (S.idle c.sink).commands
    obtain ⟨offers, hjournal, hoffers, hitems⟩ :=
      offered_obeyAll { c with sink := (S.idle c.sink).next } (S.idle c.sink).commands
    unfold idle at h
    injection h with _ hd
    rw [← hd]
    refine ⟨hkept.staged.trans hstaged, ?_⟩
    refine .idled now _ (S.idle c.sink).outcome offers (congrArg _ hjournal) hoffers ?_
    show (Collector.obeyAll _ _).2.backlog.items = _
    rw [hitems]
    show c.backlog.items ++ _ = _
    rw [hbacklog, List.nil_append]
  next =>
    unfold deliver at h
    dsimp only at h
    split at h
    next houtcome =>
      split at h
      next => cases h
      next =>
        injection h with _ hd
        rw [← hd]
        refine ⟨rfl, ?_⟩
        rw [houtcome]
        exact .delivered now c.staged _ _ rfl
    next => cases h
    next => cases h

/-- What the calls of a cycle leave that do not fail. -/
structure Emptied (c d : Collector α σ) (entries : List (Entry α)) : Prop where
  journal : d.journal = entries ++ c.journal
  settings : d.settings = c.settings
  staged : d.staged = []
  failures : d.failures = if entries.any Entry.isDelivery then 0 else c.failures
  discarded : collect (Entry.settled .discarded) entries = []
  backlog : entries.any Entry.isDelivery = true ∨ d.backlog.items = idleItems entries

/-- At the beginning of a cycle nothing has failed or been given up. -/
theorem working_began (c : Collector α σ) (now : Instant) (final : Bool) :
    Working c.settings c.journal (none, c.note (.cycleBegan now final)) := by
  refine ⟨rfl, [.cycleBegan now final], rfl, nofun, ?_⟩
  intro entry hentry
  rw [List.mem_singleton.1 hentry]
  exact ⟨rfl, rfl⟩

/-- The calls of a cycle that do not fail leave nothing but what the sink has emitted in the last of
them, unless a batch was delivered. -/
theorem emptied_of_work {S : Sink α σ} {now : Instant} {final : Bool} {c : Collector α σ}
    (h : (work S now (c.note (.cycleBegan now final))).1 = true) :
    ∃ entries, Emptied c (work S now (c.note (.cycleBegan now final))).2 entries := by
  have hmoves := moves_work S now (c.note (.cycleBegan now final))
  have hbegan := working_began c now final
  obtain ⟨d, ⟨hbefore, hmarked⟩, hlast⟩ := exists_last_turn S now
    (P := fun d => Working c.settings c.journal (none, d) ∧ d.Marked)
    (fun {d e} hd hturn => by
      have hmove := moves_turn S now d
      rw [hturn] at hmove
      exact ⟨hmove.keep Working.move hd.1, marked_of_again hturn⟩)
    ⟨hbegan, _, _, rfl, rfl⟩
  rw [h] at hlast
  obtain ⟨hstaged, hsettled⟩ := settled_of_turn hlast
  obtain ⟨hfixed, entries, hjournal, hne, hentries⟩ := hmoves.keep Working.move hbegan
  obtain ⟨entries', hjournal', hfailures⟩ :=
    hmoves.keep (streak_invariant c.failures c.journal).move ⟨[.cycleBegan now final], rfl, rfl⟩
  obtain rfl := List.append_cancel_right (hjournal'.symm.trans hjournal)
  refine ⟨entries', hjournal, hfixed, hstaged, ?_, ?_, ?_⟩
  · rw [← failuresAfter_of_no_failure fun entry hentry => (hentries entry hentry).1]
    exact hfailures
  · exact collect_eq_nil fun entry hentry => (hentries entry hentry).2
  · cases hsettled with
    | delivered instant batch replies earlier latest =>
      left
      obtain ⟨entry, rest, rfl⟩ := List.exists_cons_of_ne_nil hne
      rw [latest] at hjournal
      obtain ⟨rfl, -⟩ := List.cons.inj hjournal
      rfl
    | idled instant replies outcome offers latest offered backlog =>
      right
      -- What precedes the offers ends with an entry that is none, so they can be told apart.
      obtain ⟨-, before, hbefore, hbeforene, -⟩ := hbefore
      obtain ⟨entry, rest, rfl⟩ := List.exists_cons_of_ne_nil hbeforene
      obtain ⟨first, _, hfirst, hoffer⟩ := hmarked
      rw [hbefore] at hfirst
      obtain ⟨rfl, -⟩ := List.cons.inj hfirst
      dsimp only at hjournal hbefore
      rw [latest, hbefore, ← List.append_assoc, ← List.cons_append] at hjournal
      obtain rfl := List.append_cancel_right hjournal
      rw [backlog, idleItems, List.takeWhile_append_of_pos offered, List.takeWhile_cons, hoffer]
      simp

/-! ## The cycle -/

/-- What a cycle without a fault has done, from `c` to `d`, by the entries of its journal. -/
structure FaultlessCycle (c d : Collector α σ) (entries : List (Entry α)) : Prop where
  /-- What was staged, queued or taken on has one fate each, and the fates follow in order. -/
  marking : ∃ marked,
    Marking d entries (c.staged ++ c.backlog.items ++ collect Entry.taken entries) marked
  staged : d.staged = []
  panicked : d.itemsWith entries .panicked = []
  filtered : d.stats.filtered = c.stats.filtered + (d.itemsWith entries .rejected).length
  droppedOnFailure : d.stats.droppedOnFailure =
    c.stats.droppedOnFailure + (d.itemsWith entries .discarded).length
  /-- Discarded is what the sink emitted on hearing that there is nothing to take, if the failures
  before the cycle are enough and nothing was delivered in it; and else nothing. -/
  discarded : d.itemsWith entries .discarded =
    if c.pacing.dropsQueue = true ∧ entries.any Entry.isDelivery = false then idleItems entries
    else []
  /-- When nothing is given up. -/
  unchanged : d.stats.droppedOnFailure = c.stats.droppedOnFailure ↔
    ¬(c.pacing.dropsQueue = true ∧ entries.any Entry.isDelivery = false ∧ idleItems entries ≠ [])

/-- A cycle ends as its calls have ended. -/
theorem cycle_of_work {S : Sink α σ} {now : Instant} {final ok : Bool} {c : Collector α σ}
    (h : (work S now (c.note (.cycleBegan now final))).1 = ok) :
    c.cycle S now final = conclude ok (work S now (c.note (.cycleBegan now final))).2 := by
  rw [← h]
  rfl

/-- Where the sink was not at fault, the calls of the cycle have not failed. -/
theorem work_of_faultless {S : Sink α σ} {now : Instant} {final : Bool} {c : Collector α σ}
    {entries : List (Entry α)} (hjournal : (c.cycle S now final).journal = entries ++ c.journal)
    (hfaultless : ∀ entry ∈ entries, entry.isFault = false) :
    (work S now (c.note (.cycleBegan now final))).1 = true := by
  cases hwork : (work S now (c.note (.cycleBegan now final))).1 with
  | true => rfl
  | false =>
    -- A failure has noted its fault last, and it is still there when the cycle is over.
    obtain ⟨fault, earlier, hlatest, hfault⟩ := faulted_of_work hwork
    obtain ⟨-, before, hbefore, hne, -⟩ :=
      (moves_work S now _).keep Working.move (working_began c now final)
    obtain ⟨closing, hclosing⟩ := (suffix_invariant _).conclude
      (List.suffix_refl (work S now (c.note (.cycleBegan now final))).2.journal) faulted_of_work
    dsimp only at hbefore
    obtain ⟨entry, rest, rfl⟩ := List.exists_cons_of_ne_nil hne
    rw [hbefore, ← List.append_assoc] at hclosing
    obtain rfl := List.append_cancel_right (hclosing.trans hjournal)
    rw [hbefore] at hlatest
    obtain ⟨rfl, -⟩ := List.cons.inj hlatest
    have hmem : entry ∈ closing ++ entry :: rest := List.mem_append_right _ List.mem_cons_self
    rw [hfaultless entry hmem] at hfault
    cases hfault

/-- What follows the calls of a cycle that have not failed. -/
theorem conclude_emptied {c d : Collector α σ} {before : List (Entry α)}
    (h : Emptied c d before) :
    ∃ entries, (conclude true d).journal = entries ++ c.journal ∧ (conclude true d).staged = [] ∧
      entries.any Entry.isDelivery = before.any Entry.isDelivery ∧
      idleItems entries = idleItems before ∧
      collect (Entry.settled .discarded) entries =
        if c.pacing.dropsQueue = true ∧ before.any Entry.isDelivery = false then idleItems before
        else [] := by
  have hbatch : d.dropBatch = d := by
    unfold dropBatch
    rw [if_neg fun hdrop => hdrop.2 h.staged]
  -- The backlog is given up exactly if the streak of failures goes on and is long enough.
  have hdrops : d.pacing.dropsQueue = true ↔
      c.pacing.dropsQueue = true ∧ before.any Entry.isDelivery = false := by
    have hfailures := h.failures
    cases hdelivery : before.any Entry.isDelivery with
    | true =>
      rw [hdelivery, if_pos rfl] at hfailures
      rw [(not_drops_of_healthy hfailures).2]
      simp
    | false =>
      rw [hdelivery, if_neg nofun] at hfailures
      have hpacing : d.pacing = c.pacing := by
        unfold pacing
        rw [h.settings, hfailures]
      rw [hpacing]
      simp
  have hconclude : conclude true d = d.dropBatch.dropBacklog.takeStock := rfl
  rw [hconclude, hbatch]
  unfold dropBacklog
  by_cases hdrop : d.pacing.dropsQueue = true
  · rw [if_pos hdrop, if_pos (hdrops.1 hdrop)]
    refine ⟨.backlogDropped d.backlog.items :: before, ?_, h.staged, rfl, rfl, ?_⟩
    · exact congrArg _ h.journal
    · rw [collect_cons, h.discarded]
      rcases h.backlog with hdelivery | hitems
      · rw [(hdrops.1 hdrop).2] at hdelivery
        cases hdelivery
      · exact hitems
  · rw [if_neg hdrop, if_neg fun hlost => hdrop (hdrops.2 hlost)]
    exact ⟨before, h.journal, h.staged, rfl, rfl, h.discarded⟩

/-- A cycle in which the sink was not at fault discards nothing, unless the failures of earlier
cycles are enough, nothing is delivered, and the sink emits on hearing that there is nothing to
take. -/
theorem faultless_cycle (S : Sink α σ) (now : Instant) (final : Bool) {c : Collector α σ}
    {entries : List (Entry α)} (hjournal : (c.cycle S now final).journal = entries ++ c.journal)
    (hfaultless : ∀ entry ∈ entries, entry.isFault = false) :
    FaultlessCycle c (c.cycle S now final) entries := by
  have hwork := work_of_faultless hjournal hfaultless
  obtain ⟨before, hemptied⟩ := emptied_of_work hwork
  obtain ⟨entries', hjournal', hstaged, hdelivery, hidle, hdiscarded⟩ := conclude_emptied hemptied
  rw [← cycle_of_work hwork] at hjournal' hstaged
  obtain rfl := List.append_cancel_right (hjournal'.symm.trans hjournal)
  -- The ledger of the cycle begins with what was staged and queued before it.
  have hledger : Ledger (c.staged ++ c.backlog.items) c.journal (none, c) := by
    refine ⟨[], [], mark .staged c.staged, rfl, ?_, ?_, ?_, rfl, ?_, ?_⟩
    · rw [List.nil_append, map_fst_mark]
      show c.staged ++ [] ++ c.backlog.items = c.staged ++ c.backlog.items ++ []
      rw [List.append_nil, List.append_nil]
    · rw [withFate_mark, if_pos rfl]
    · intro fate hfate
      rw [List.nil_append, withFate_mark, if_neg hfate.symm]
      rfl
    · rw [withFate_mark, if_neg nofun]
    · rw [withFate_mark, if_neg nofun]
  obtain ⟨entries, marked, hentries, hmarking⟩ :=
    ((ledger_invariant _ _).cycle hledger S now final).exists_marking
  obtain rfl := List.append_cancel_right (hentries.symm.trans hjournal)
  obtain ⟨_, hcounted, htally⟩ :=
    (tallied_invariant c.tally c.journal).cycle ⟨[], rfl, .refl _⟩ S now final
  obtain rfl := List.append_cancel_right (hcounted.symm.trans hjournal)
  rw [← hdelivery, ← hidle] at hdiscarded
  refine ⟨⟨marked, hmarking⟩, hstaged, ?_, htally.filtered, htally.droppedOnFailure, hdiscarded, ?_⟩
  · exact collect_eq_nil fun entry hentry => panicked_of_faultless (hfaultless entry hentry)
  · show (c.cycle S now final).tally.droppedOnFailure = c.tally.droppedOnFailure ↔ _
    rw [htally.droppedOnFailure, hdiscarded]
    split
    next hlost => simp [hlost]
    next hkept =>
      refine ⟨fun _ hlost => hkept ⟨hlost.1, hlost.2.1⟩, fun _ => rfl⟩

/-- Settings with which a single failure is enough to give everything up. -/
def impatient : BatchSettings :=
  { batchSizeLimit := 10, periodMs := 1000, backoff := ⟨1000, 5000, 1, 1⟩ }

/-- A collector after a failure, with a sink that will emit an item on hearing that there is nothing
to take. -/
def failedOnce : Collector Nat (Sink.Script Nat) where
  settings := impatient
  valid := by decide
  sink := { idles := [⟨[.emit 5], .ok⟩] }
  backlog := {}
  failures := 1

/-- The item that the sink of `failedOnce` emits is discarded, though the sink was not at fault. -/
theorem faultless_cycle_failedOnce :
    ∃ entries, (failedOnce.cycle (.scripted fun _ => .keep) ⟨0⟩ false).journal =
        entries ++ failedOnce.journal ∧
      (∀ entry ∈ entries, entry.isFault = false) ∧ idleItems entries = [5] ∧
      FaultlessCycle failedOnce (failedOnce.cycle (.scripted fun _ => .keep) ⟨0⟩ false)
        entries := by
  refine ⟨_, (List.append_nil _).symm, ?_, ?_, ?_⟩
  · decide +kernel
  · decide +kernel
  · exact faultless_cycle _ _ _ (List.append_nil _).symm (by decide +kernel)

/-- A tick without a fault can discard items: the sink has failed once to take a batch, and in the
tick that follows it emits an item on hearing that there is nothing to take. -/
theorem idle_items_discarded :
    ∃ (s : Session Nat (Sink.Script Nat)) (S : Sink Nat (Sink.Script Nat)),
      Session.create impatient { takes := [⟨[], .error⟩], idles := [⟨[.emit 5], .ok⟩] } ⟨⟨0⟩, 0⟩ =
          .ok s ∧
        let c := (s.run S [.emit 1]).2.collector
        let d := c.tick S ⟨1000000000⟩
        let entries := entriesSince d c.journal.length
        c.nextTick? = some ⟨1000000000⟩ ∧ (∀ entry ∈ entries, entry.isFault = false) ∧
          entries.flatMap Entry.taken = [5] ∧ entries.flatMap (Entry.settled .delivered) = [] ∧
          entries.flatMap (Entry.settled .rejected) = [] ∧ d.staged = [] ∧ d.backlog.items = [] ∧
          c.stats.droppedOnFailure = 1 ∧ d.stats.droppedOnFailure = 2 := by
  refine ⟨_, .scripted fun _ => .keep, rfl, ?_⟩
  decide +kernel

end Courier.Collector
