import Courier.Proofs.Collector.Handovers

/-!
# Batches that are handed over again

A batch that the sink has not taken stays staged, and what the sink is handed next begins with it.
There is one exception: a cycle in which the sink panics over an item fails as well, though it hands
nothing over, and such a failure can be the one that gives the batch up.

> `discards_rest`: a batch is given up only at the end of a cycle in which the sink was at fault,
> and then this fault was a call with that batch or a panic over an item.

> `retried_run`: in a run every item is handed over a limited number of times, and a batch that has
> failed is handed over again or is given up.

> `discarded_before_retry`: a run in which a batch is given up between two calls.
-/

namespace Courier.Collector

variable {α σ : Type}

/-! ## How a batch is given up -/

/-- Whether the sink has heard that there is nothing to take. -/
def Entry.isIdle : Entry α → Bool
  | .idled _ _ _ => true
  | _ => false

/-- Whether a batch was given up. -/
def Entry.isDiscard : Entry α → Bool
  | .batchDropped _ => true
  | _ => false

/-- A batch that is given up is what is staged then, at the end of a cycle in which the sink was at
fault, with its last call, and had a batch or an item before it. -/
def Entry.Discards : Entry α → List (Entry α) → Prop
  | .batchDropped items, earlier =>
    items = (held earlier).staged.map Prod.fst ∧
      ∃ fault calls now final before,
        earlier = .cycleFailed :: fault :: (calls ++ .cycleBegan now final :: before) ∧
          fault.isFault = true ∧ fault.isIdle = false ∧ ∀ entry ∈ calls, entry.isFault = false
  | _, _ => True

/-- The calls of a cycle give no batch up, and the sink hears that there is nothing to take only
while nothing is staged. -/
structure Undiscarded (b : Bench α σ) : Prop where
  discards : Throughout Entry.Discards b.2.journal
  idle : ∀ entry earlier, b.2.journal = entry :: earlier → entry.isIdle = true → b.2.staged = []

/-- An entry can come next if it gives up nothing but what is staged, and is no call without a
batch. -/
theorem Undiscarded.note {hand hand' : Option α} {c d : Collector α σ} {entry : Entry α}
    (h : Undiscarded (hand, c)) (hjournal : d.journal = entry :: c.journal)
    (hentry : entry.Discards c.journal) (hidle : entry.isIdle = false) :
    Undiscarded (hand', d) := by
  refine ⟨?_, ?_⟩
  · show Throughout _ d.journal
    rw [hjournal]
    exact h.discards.cons hentry
  · intro latest earlier hlatest hisIdle
    rw [hjournal] at hlatest
    obtain ⟨rfl, -⟩ := List.cons.inj hlatest
    rw [hidle] at hisIdle
    cases hisIdle

/-- The moves of a cycle note no other entries. -/
theorem Undiscarded.move {b b' : Bench α σ} (h : Undiscarded b) (hmove : Move b b') :
    Undiscarded b' := by
  cases hmove with
  | advanced => exact ⟨h.discards, h.idle⟩
  | accepted hand c item => exact h.note rfl trivial rfl
  | refused hand c item => exact h.note rfl trivial rfl
  | closing => exact ⟨h.discards, h.idle⟩
  | picked => exact ⟨h.discards, h.idle⟩
  | kept c item => exact h.note rfl trivial rfl
  | rejected c item => exact h.note rfl trivial rfl
  | panicked c now item => exact h.note rfl trivial rfl
  | delivered c now replies => exact h.note rfl trivial rfl
  | undelivered c now replies outcome => exact h.note rfl trivial rfl
  | idled c now replies outcome staged =>
    exact ⟨h.discards.cons trivial, fun _ _ _ _ => staged⟩

/-- What a failed cycle has noted when its calls are over: the fault comes last. -/
theorem fault_of_work {S : Sink α σ} {now : Instant} {final : Bool} {c : Collector α σ}
    (h : (work S now (c.note (.cycleBegan now final))).1 = false) :
    ∃ fault calls, (work S now (c.note (.cycleBegan now final))).2.journal =
        fault :: (calls ++ .cycleBegan now final :: c.journal) ∧
      fault.isFault = true ∧ ∀ entry ∈ calls, entry.isFault = false := by
  obtain ⟨entries, hjournal, hquiet⟩ := fault_last_of_work S now (c.note (.cycleBegan now final))
  obtain ⟨fault, earlier, hlatest, hfault⟩ := faulted_of_work h
  cases entries with
  | nil =>
    rw [hjournal] at hlatest
    obtain ⟨rfl, -⟩ := List.cons.inj hlatest
    cases hfault
  | cons latest calls =>
    rw [hjournal] at hlatest
    obtain ⟨rfl, -⟩ := List.cons.inj hlatest
    exact ⟨latest, calls, hjournal, hfault, hquiet⟩

/-- A cycle gives a batch up only if it has failed, through a call with the batch or through a panic
over an item. -/
theorem discards_cycle {c : Collector α σ} (hplaced : Placed (none, c))
    (h : Throughout Entry.Discards c.journal) (S : Sink α σ) (now : Instant) (final : Bool) :
    Throughout Entry.Discards (c.cycle S now final).journal := by
  have hbegan : Undiscarded (none, c.note (.cycleBegan now final)) := by
    refine ⟨h.cons trivial, ?_⟩
    intro entry earlier hlatest hidle
    obtain ⟨rfl, -⟩ := List.cons.inj hlatest
    cases hidle
  have hmoves := moves_work S now (c.note (.cycleBegan now final))
  obtain ⟨hdiscards, hidle⟩ := hmoves.keep Undiscarded.move hbegan
  have hheld := hmoves.keep placed_invariant.move (placed_invariant.cycleBegan now final hplaced)
  have hbacklog (d : Collector α σ) (hd : Throughout Entry.Discards d.journal) :
      Throughout Entry.Discards d.dropBacklog.journal := by
    unfold dropBacklog
    split
    next => exact hd.cons trivial
    next => exact hd
  cases hwork : (work S now (c.note (.cycleBegan now final))).1 with
  | true =>
    have hstaged : (work S now (c.note (.cycleBegan now final))).2.staged = [] :=
      staged_of_work hwork
    rw [cycle_of_work hwork]
    generalize (work S now (c.note (.cycleBegan now final))).2 = d at hdiscards hstaged
    refine hbacklog d.dropBatch ?_
    unfold dropBatch
    rw [if_neg fun hdrop => hdrop.2 hstaged]
    exact hdiscards
  | false =>
    obtain ⟨fault, calls, hjournal, hfault, hquiet⟩ := fault_of_work hwork
    rw [cycle_of_work hwork]
    generalize (work S now (c.note (.cycleBegan now final))).2 = d
      at hdiscards hidle hheld hjournal
    have hfailed : Throughout Entry.Discards d.recordFailure.journal := hdiscards.cons trivial
    refine hbacklog d.recordFailure.dropBatch ?_
    unfold dropBatch
    split
    next hdrop =>
      refine hfailed.cons ⟨hheld.staged.symm, fault, calls, now, final, c.journal,
        congrArg _ hjournal, hfault, ?_, hquiet⟩
      -- There was something staged, so the sink did not hear that there was nothing to take.
      by_contra hisIdle
      exact hdrop.2 (hidle fault _ hjournal (by simpa using hisIdle))
    next => exact hfailed

/-- Between cycles it is known of every batch that was given up how it came to that. -/
theorem discards_rest (S : Sink α σ) :
    RestInvariant S fun c => Placed (none, c) ∧ Throughout Entry.Discards c.journal where
  cycle now final h :=
    ⟨placed_invariant.cycle h.1 S now final, discards_cycle h.1 h.2 S now final⟩
  offer {c} item h := by
    refine ⟨placed_invariant.toCycleInvariant.offer h.1 item, ?_⟩
    exact offer_keeps (P := fun d => Throughout Entry.Discards d.journal) h.2 (h.2.cons trivial)
      (h.2.cons trivial)
  outside stage alarm unreachable h :=
    ⟨placed_invariant.outside stage alarm unreachable h.1, h.2⟩

/-! ## What is handed over next -/

/-- Entries that neither hand a batch over nor give one up leave what is staged in front. -/
theorem Held.prefix_after (count : Nat) (w : Held α) {entry : Entry α}
    (hhandover : entry.isHandover = false) (hdiscard : entry.isDiscard = false) :
    w.staged <+: (w.after count entry).staged := by
  cases entry with
  | kept item => exact List.prefix_append _ _
  | flushed instant batch replies outcome => cases hhandover
  | batchDropped items => cases hdiscard
  | _ => exact List.prefix_rfl

/-- As long as no batch is handed over or given up, what was staged stays staged, and in front. -/
theorem prefix_held {entries earlier : List (Entry α)}
    (hhandovers : ∀ entry ∈ entries, entry.isHandover = false)
    (hdiscards : ∀ entry ∈ entries, entry.isDiscard = false) :
    (held earlier).staged <+: (held (entries ++ earlier)).staged := by
  induction entries with
  | nil => exact List.prefix_rfl
  | cons entry entries ih =>
    have hrest := ih (fun e he => hhandovers e (List.mem_cons_of_mem _ he))
      fun e he => hdiscards e (List.mem_cons_of_mem _ he)
    exact hrest.trans (Held.prefix_after _ _ (hhandovers entry List.mem_cons_self)
      (hdiscards entry List.mem_cons_self))

/-- The earliest of the entries that give a batch up, if there is one. -/
theorem exists_earliest_discard (entries : List (Entry α)) :
    (∀ entry ∈ entries, entry.isDiscard = false) ∨
      ∃ newer items older, entries = newer ++ .batchDropped items :: older ∧
        ∀ entry ∈ older, entry.isDiscard = false := by
  induction entries with
  | nil => exact .inl (List.forall_mem_nil _)
  | cons entry entries ih =>
    rcases ih with hnone | ⟨newer, items, older, rfl, hnone⟩
    · cases entry with
      | batchDropped items => exact .inr ⟨[], items, entries, rfl, hnone⟩
      | _ => exact .inl (List.forall_mem_cons.2 ⟨rfl, hnone⟩)
    · exact .inr ⟨entry :: newer, items, older, rfl, hnone⟩

/-! ## Runs -/

/-- A batch was given up before anything was handed over again: at the end of a later cycle, in
which the sink has panicked over an item. -/
def DiscardedLater (batch : List α) (between : List (Entry α)) : Prop :=
  ∃ newer items instant item calls now final older,
    between = newer ++ .batchDropped items :: .cycleFailed :: .filterPanicked instant item ::
      (calls ++ .cycleBegan now final :: older) ∧ batch <+: items

/-- How often the items of a run are handed over, and what follows a call that has failed. -/
structure Retried (settings : BatchSettings) (journal : List (Entry α)) : Prop where
  /-- What a call hands over are the items that are staged then. -/
  batches : ∀ instant batch replies outcome earlier,
    .flushed instant batch replies outcome :: earlier <:+ journal →
      batch = (held earlier).staged.map Prod.fst ∧
        (held earlier).staged.Sublist (collect Entry.taken earlier).zipIdx
  calls : ∀ number, (handovers number journal).length ≤ settings.backoff.dropBatchAfter.toNat
  /-- Only the latest call for an item may have succeeded. -/
  once : ∀ number, .ok ∉ (handovers number journal).tail
  /-- A call that has failed, and whose batch was not given up at the end of its cycle, is followed
  by one whose batch begins with the same items, or else the batch was given up later. -/
  next : ∀ instant batch replies outcome earlier between instant' batch' replies' outcome',
    .flushed instant' batch' replies' outcome' ::
        (between ++ .flushed instant batch replies outcome :: earlier) <:+ journal →
      outcome ≠ .ok → (∀ entry ∈ between, entry.isHandover = false) →
        (∀ newer, between ≠ newer ++ [.batchDropped batch, .cycleFailed]) →
          (held earlier).staged <+:
              (held (between ++ .flushed instant batch replies outcome :: earlier)).staged ∧
            batch <+: batch' ∨ DiscardedLater batch between

/-- A fault before the end of a cycle with a fault is the same one, or belongs to an earlier
cycle. -/
theorem same_or_earlier {first fault : Entry α} {older earlier calls before : List (Entry α)}
    {now : Instant} {final : Bool} (hfirst : first.isFault = true)
    (hcalls : ∀ entry ∈ calls, entry.isFault = false)
    (h : older ++ first :: earlier =
      .cycleFailed :: fault :: (calls ++ .cycleBegan now final :: before)) :
    older = [.cycleFailed] ∨
      ∃ rest, older = .cycleFailed :: fault :: (calls ++ .cycleBegan now final :: rest) := by
  rcases older with _ | ⟨last, _ | ⟨second, older⟩⟩
  · obtain ⟨rfl, -⟩ := List.cons.inj h
    cases hfirst
  · obtain ⟨rfl, -⟩ := List.cons.inj h
    exact .inl rfl
  · right
    rw [List.cons_append, List.cons_append, List.cons.injEq, List.cons.injEq] at h
    obtain ⟨rfl, rfl, h⟩ := h
    rcases List.append_eq_append_iff.1 h with ⟨rest, rfl, hrest⟩ | ⟨rest, rfl, hrest⟩
    · cases rest with
      | nil =>
        obtain ⟨rfl, -⟩ := List.cons.inj hrest
        cases hfirst
      | cons entry rest =>
        obtain ⟨rfl, -⟩ := List.cons.inj hrest
        rw [hcalls first (List.mem_append_right _ List.mem_cons_self)] at hfirst
        cases hfirst
    · cases rest with
      | nil =>
        obtain ⟨rfl, -⟩ := List.cons.inj hrest
        cases hfirst
      | cons entry rest =>
        obtain ⟨rfl, -⟩ := List.cons.inj hrest
        exact ⟨rest, rfl⟩

/-- A fault that is neither a call with a batch nor one without is a panic over an item. -/
theorem exists_eq_filterPanicked {fault : Entry α} (hfault : fault.isFault = true)
    (hhandover : fault.isHandover = false) (hidle : fault.isIdle = false) :
    ∃ instant item, fault = .filterPanicked instant item := by
  cases fault with
  | filterPanicked instant item => exact ⟨instant, item, rfl⟩
  | flushed instant batch replies outcome => cases hhandover
  | idled instant replies outcome => cases hidle
  | _ => cases hfault

/-- What becomes of a batch that has failed until something is handed over again. -/
theorem kept_or_discarded {journal : List (Entry α)}
    (hbatches : Throughout Entry.HandsOver journal) (hdiscards : Throughout Entry.Discards journal)
    {instant : Instant} {batch : List α} {replies : List Reply} {outcome : Sink.Outcome}
    {earlier between : List (Entry α)}
    (hsuffix : between ++ .flushed instant batch replies outcome :: earlier <:+ journal)
    (hfailed : outcome ≠ .ok) (hnone : ∀ entry ∈ between, entry.isHandover = false)
    (hretained : ∀ newer, between ≠ newer ++ [.batchDropped batch, .cycleFailed]) :
    (held earlier).staged <+:
        (held (between ++ .flushed instant batch replies outcome :: earlier)).staged ∨
      DiscardedLater batch between := by
  rcases exists_earliest_discard between with hkept | ⟨newer, items, older, rfl, hkept⟩
  · left
    rw [← held_failed hfailed earlier]
    exact prefix_held hnone hkept
  · right
    rw [List.append_assoc, List.cons_append] at hsuffix
    have hdiscard := (List.suffix_append _ _).trans hsuffix
    have hnone' : ∀ entry ∈ older, entry.isHandover = false := by
      intro entry hentry
      exact hnone entry (List.mem_append_right _ (List.mem_cons_of_mem _ hentry))
    obtain ⟨hbatch, -⟩ := hbatches _ _
      ((List.suffix_append _ _).trans ((List.suffix_cons _ _).trans hdiscard))
    obtain ⟨hitems, fault, calls, now, final, before, hcycle, hfault, hidle, hcalls⟩ :=
      hdiscards _ _ hdiscard
    have hbegins : batch <+: items := by
      rw [hbatch, hitems, ← held_failed hfailed earlier]
      exact (prefix_held hnone' hkept).map Prod.fst
    rcases same_or_earlier (isFault_of_failed hfailed) hcalls hcycle with rfl | ⟨rest, rfl⟩
    · -- It would have been given up at the end of the cycle of the failed call.
      have hsame : items = batch := by
        refine hitems.trans (Eq.trans ?_ hbatch.symm)
        exact congrArg (fun w : Held α => w.staged.map Prod.fst) (held_failed hfailed earlier)
      rw [hsame] at hretained
      exact absurd rfl (hretained newer)
    · have hmem : fault ∈ Entry.cycleFailed :: fault :: (calls ++ .cycleBegan now final :: rest) :=
        List.mem_cons_of_mem _ List.mem_cons_self
      obtain ⟨instant, item, rfl⟩ := exists_eq_filterPanicked hfault (hnone' fault hmem) hidle
      exact ⟨newer, items, instant, item, calls, now, final, rest, rfl, hbegins⟩

/-- In every run items are handed over as often as the settings allow, and what has failed comes
first in the next call. -/
theorem retried_run {settings : BatchSettings} {sink : σ} {clock : Clock} {s : Session α σ}
    (h : Session.create settings sink clock = .ok s) (S : Sink α σ) (requests : List (Request α)) :
    Retried settings (s.run S requests).2.collector.journal := by
  -- Nothing waits in a new collector, and nothing was handed over.
  have hplaced : Placed (none, s.collector) := by
    obtain ⟨valid, rfl⟩ := Session.eq_of_create h
    exact ⟨rfl, rfl, List.Sublist.refl _, throughout_nil _⟩
  obtain ⟨hrationed, hdiscards⟩ : Rationed settings s.collector ∧
      Throughout Entry.Discards s.collector.journal := by
    obtain ⟨valid, rfl⟩ := Session.eq_of_create h
    refine ⟨⟨rfl, hplaced, ?_⟩, throughout_nil _⟩
    intro number
    exact ⟨nofun, fun _ => rfl, Nat.zero_le _, List.not_mem_nil⟩
  obtain ⟨-, hplaced', htried⟩ := (rationed_rest settings S).run hrationed requests
  obtain ⟨-, hdiscards'⟩ := (discards_rest S).run ⟨hplaced, hdiscards⟩ requests
  have hbatches := hplaced'.batches
  refine ⟨?_, fun number => (htried number).most, fun number => (htried number).once, ?_⟩
  · intro instant batch replies outcome earlier hsuffix
    exact hbatches _ earlier hsuffix
  · intro instant batch replies outcome earlier between instant' batch' replies' outcome' hsuffix
      hfailed hnone hretained
    have hbetween := (List.suffix_cons _ _).trans hsuffix
    obtain ⟨hbatch, -⟩ := hbatches _ earlier ((List.suffix_append _ _).trans hbetween)
    obtain ⟨hbatch', -⟩ := hbatches _ _ hsuffix
    refine (kept_or_discarded hbatches hdiscards' hbetween hfailed hnone hretained).imp_left ?_
    intro hbegins
    refine ⟨hbegins, ?_⟩
    rw [hbatch, hbatch']
    exact hbegins.map Prod.fst

/-- The first item is handed over three times before the sink takes it, the second one twice, as it
comes while the first one waits; the third one has to wait for the next batch. -/
theorem retried_run_patient :
    ∃ s : Session Nat (Sink.Script Nat),
      Session.create patient { takes := [⟨[], .error⟩, ⟨[], .panic⟩] } ⟨⟨0⟩, 0⟩ = .ok s ∧
        let requests := [.emit 1, .emit 2, .emit 2, .pass 2000000000]
        let journal := (s.run (.scripted fun _ => .keep) requests).2.collector.journal
        [0, 1, 2, 3].map (handovers · journal) =
            [[.ok, .panic, .error], [.ok, .panic], [.ok], []] ∧
          Retried patient journal := by
  refine ⟨_, rfl, ?_, retried_run rfl _ _⟩
  decide +kernel

/-- Settings with which a batch that has failed twice is given up. -/
def tolerant : BatchSettings :=
  { batchSizeLimit := 10, periodMs := 1000, backoff := ⟨1000, 1000, 2, 9⟩ }

/-- A sink that panics over the number two. -/
def startled : Sink Nat (Sink.Script Nat) := .scripted fun n => if n = 2 then .panic else .keep

/-- A batch that has failed, and was not given up then, need not come back: the sink fails to take
the first item, panics over the second one in the next cycle, and is handed the third one alone. -/
theorem discarded_before_retry :
    ∃ (s : Session Nat (Sink.Script Nat)) (S : Sink Nat (Sink.Script Nat))
      (requests : List (Request Nat)),
      Session.create tolerant { takes := [⟨[], .error⟩] } ⟨⟨0⟩, 0⟩ = .ok s ∧
        ∃ instant batch replies outcome earlier between instant' batch' replies' outcome',
          .flushed instant' batch' replies' outcome' ::
              (between ++ .flushed instant batch replies outcome :: earlier) <:+
            (s.run S requests).2.collector.journal ∧
          outcome ≠ .ok ∧ (∀ entry ∈ between, entry.isHandover = false) ∧
          (∀ newer, between ≠ newer ++ [.batchDropped batch, .cycleFailed]) ∧
          ¬batch <+: batch' := by
  refine ⟨_, startled, [.emit 1, .emit 2, .emit 3, .pass 1000000000, .pass 1000000000], rfl,
    ⟨0⟩, [1], [], .error, [.kept 1, .cycleBegan ⟨0⟩ false, .accepted 1],
    [.kept 3, .cycleBegan ⟨2000000000⟩ false, .batchDropped [1], .cycleFailed,
      .filterPanicked ⟨1000000000⟩ 2, .cycleBegan ⟨1000000000⟩ false, .accepted 3, .accepted 2,
      .cycleFailed],
    ⟨2000000000⟩, [3], [], .ok, ⟨[], ?_⟩, nofun, ?_, ?_, ?_⟩
  · with_unfolding_all rfl
  · decide
  · intro newer heq
    -- The cycle of the failed call was followed by an offer.
    have hfollowing := congrArg (fun entries => entries.reverse[1]?) heq
    simp at hfollowing
  · decide

end Courier.Collector
