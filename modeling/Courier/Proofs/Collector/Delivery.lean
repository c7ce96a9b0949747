import Courier.Proofs.Collector.Batches
import Courier.Proofs.Collector.History
import Courier.Proofs.Collector.Ledger

/-!
# Delivery in order

A collector hands items to its sink in the order in which it took them on, and none of them twice.
It passes over an item only if the sink does not want it, panics over it, or has failed too often.

Which items were taken on is read off the answers, which of them are wanted off the judgements of
the sink, and which of them are delivered off the batches that the sink takes.

> `orderly_run`: after every run, the deliveries, the staged batch and the backlog follow each other
> as the items did, every batch has a proper size and holds wanted items only, and while nothing
> goes wrong nothing is missing.
-/

namespace Courier.Collector

variable {α σ : Type}

/-! ## What entries and acts bring -/

/-- Marks bring nothing, so a journal brings what it says. -/
theorem collect_eq_flatMap_written {bring : Entry α → List α}
    (hmark : ∀ entry, entry.isMark = true → bring entry = []) (journal : List (Entry α)) :
    collect bring journal = (written journal).flatMap bring := by
  induction journal with
  | nil => rfl
  | cons entry journal ih =>
    rw [collect_cons, ih]
    cases h : entry.isMark with
    | true => rw [hmark entry h, written_of_isMark h, List.append_nil]
    | false => rw [written_cons h, List.flatMap_append, List.flatMap_singleton]

/-- No fate is settled by a mark. -/
theorem settled_of_isMark (fate : Fate) (entry : Entry α) (h : entry.isMark = true) :
    entry.settled fate = [] := by
  cases entry with
  | cycleBegan instant final => rfl
  | cycleFailed => rfl
  | _ => cases h

/-- Nothing is taken on by a mark. -/
theorem taken_of_isMark (entry : Entry α) (h : entry.isMark = true) : entry.taken = [] := by
  cases entry with
  | cycleBegan instant final => rfl
  | cycleFailed => rfl
  | _ => cases h

/-- Nothing is wanted by a mark. -/
theorem wanted_of_isMark (entry : Entry α) (h : entry.isMark = true) : entry.wanted = [] := by
  cases entry with
  | cycleBegan instant final => rfl
  | cycleFailed => rfl
  | _ => cases h

/-- What offers do not bring, an act brings with its end. -/
theorem flatMap_entries {bring : Entry α → List α}
    (hoffer : ∀ entry : Entry α, entry.isOffer = true → bring entry = []) (act : Act α) :
    act.offers.flatMap bring = [] ∧
      act.entries.flatMap bring = act.outcome?.toList.flatMap bring := by
  have hnone : act.offers.flatMap bring = [] :=
    List.flatMap_eq_nil_iff.2 fun entry hentry => hoffer entry (isOffer_of_mem_offers hentry)
  refine ⟨hnone, ?_⟩
  rw [Act.entries, List.flatMap_append, hnone, List.nil_append]

/-- What is noted of an offer brings the item if it was taken on. -/
theorem taken_offerEntries (item : α) (answer : Except Failure Bool) :
    (offerEntries item answer).flatMap Entry.taken = (Act.offered item answer).accepted := by
  cases answer with
  | error e => rfl
  | ok room => cases room <;> rfl

theorem taken_saidEntries (x : Said α) : x.entries.flatMap Entry.taken = x.accepted?.toList := by
  unfold Said.entries
  split
  next item answer =>
    rw [taken_offerEntries]
    cases answer with
    | error e => rfl
    | ok room => cases room <;> rfl
  next hother =>
    unfold Said.accepted?
    split
    next item => exact absurd rfl (hother item (.ok true))
    next => rfl

/-- What is noted of an act brings the items that were taken on in it. -/
theorem taken_entries (act : Act α) : act.entries.flatMap Entry.taken = act.accepted := by
  have houtcome : act.outcome?.toList.flatMap Entry.taken = [] := by
    cases act with
    | judged instant item said verdict => cases verdict <;> rfl
    | _ => rfl
  have hsaid (said : List (Said α)) :
      (said.flatMap Said.entries).flatMap Entry.taken = said.filterMap Said.accepted? := by
    induction said with
    | nil => rfl
    | cons x said ih =>
      rw [List.flatMap_cons, List.flatMap_append, ih, taken_saidEntries, List.filterMap_cons]
      cases x.accepted? <;> rfl
  rw [Act.entries, List.flatMap_append, houtcome, List.append_nil]
  cases act with
  | offered item answer => exact taken_offerEntries item answer
  | judged instant item said verdict => exact hsaid said
  | handed instant batch said outcome => exact hsaid said
  | idled instant said outcome => exact hsaid said
  | batchGivenUp items => rfl
  | backlogGivenUp items => rfl

/-- An offer does not say that an item is wanted. -/
theorem wanted_of_isOffer (entry : Entry α) (h : entry.isOffer = true) : entry.wanted = [] := by
  cases entry with
  | accepted item => rfl
  | refused item => rfl
  | _ => cases h

theorem settled_of_isOffer (fate : Fate) (entry : Entry α) (h : entry.isOffer = true) :
    entry.settled fate = [] := by
  cases entry with
  | accepted item => rfl
  | refused item => rfl
  | _ => cases h

/-- What is noted of an act says whether the sink has wanted an item. -/
theorem wanted_entries (act : Act α) : act.entries.flatMap Entry.wanted = act.judgedAs .keep := by
  rw [(flatMap_entries wanted_of_isOffer act).2]
  cases act with
  | judged instant item said verdict => cases verdict <;> rfl
  | _ => rfl

/-- The items for which an act is the last word, by their fate. -/
def Act.settled (fate : Fate) (act : Act α) : List α :=
  match fate with
  | .delivered => act.delivered
  | .rejected => act.judgedAs .discard
  | .panicked => act.judgedAs .panic
  | .discarded => act.givenUp
  | .queued | .staged => []

/-- What is noted of an act settles the fates that the act settles. -/
theorem settled_entries (fate : Fate) (act : Act α) :
    act.entries.flatMap (Entry.settled fate) = act.settled fate := by
  rw [(flatMap_entries (settled_of_isOffer fate) act).2]
  cases act with
  | offered item answer => cases fate <;> rfl
  | judged instant item said verdict => cases verdict <;> cases fate <;> rfl
  | handed instant batch said outcome =>
    cases outcome <;> cases fate <;> first | rfl | exact List.append_nil _
  | idled instant said outcome => cases fate <;> rfl
  | batchGivenUp items => cases fate <;> first | rfl | exact List.append_nil _
  | backlogGivenUp items => cases fate <;> first | rfl | exact List.append_nil _

/-! ## Thresholds -/

/-- The faults of the sink since it last took a batch, if there were `failures` of them before the
act. -/
def Act.streak (failures : Nat) (act : Act α) : Nat :=
  if act.isDelivery then 0 else if act.isFault then failures + 1 else failures

/-- The faults of the sink since it last took a batch. -/
def streak (history : List (Act α)) : Nat := history.foldl Act.streak 0

/-- What is given up in an act has reached its threshold. -/
def Act.Reached (settings : BatchSettings) (failures : Nat) : Act α → Prop
  | .batchGivenUp _ => settings.backoff.dropBatchAfter.toNat ≤ failures
  | .backlogGivenUp _ => settings.backoff.dropQueueAfter.toNat ≤ failures
  | _ => True

/-- Whatever is given up has reached its threshold, if there were `failures` faults before. -/
def Reaches (settings : BatchSettings) : Nat → List (Act α) → Prop
  | _, [] => True
  | failures, act :: acts =>
    act.Reached settings failures ∧ Reaches settings (act.streak failures) acts

/-- What is given up has reached its threshold, if it has so in both parts of a history. -/
theorem reaches_append {settings : BatchSettings} {failures : Nat} {acts more : List (Act α)} :
    Reaches settings failures (acts ++ more) ↔
      Reaches settings failures acts ∧ Reaches settings (acts.foldl Act.streak failures) more := by
  induction acts generalizing failures with
  | nil => exact ⟨fun h => ⟨trivial, h⟩, And.right⟩
  | cons act acts ih =>
    show _ ∧ Reaches settings _ (acts ++ more) ↔ _
    rw [ih, ← and_assoc]
    rfl

/-- Where nothing is given up, nothing has to reach a threshold. -/
theorem reaches_of_calls {settings : BatchSettings} {acts : List (Act α)}
    (h : ∀ act ∈ acts, act.isCall = true) (failures : Nat) : Reaches settings failures acts := by
  induction acts generalizing failures with
  | nil => exact trivial
  | cons act acts ih =>
    obtain ⟨hact, hacts⟩ := List.forall_mem_cons.1 h
    refine ⟨?_, ih hacts _⟩
    cases act with
    | batchGivenUp items => cases hact
    | backlogGivenUp items => cases hact
    | _ => exact trivial

/-- The failures that a collector counts are no more than the faults of its sink in a row, and what
is given up between `c` and `d` has reached its threshold. -/
structure Reckoned (c : Collector α σ) (acts : List (Act α)) (d : Collector α σ) : Prop where
  settings : d.settings = c.settings
  failures : ∀ n, c.failures.toNat ≤ n → d.failures.toNat ≤ acts.foldl Act.streak n
  reaches : ∀ n, c.failures.toNat ≤ n → Reaches c.settings n acts

/-- What holds of two parts, where one begins with what the other leaves, holds of both. -/
theorem Reckoned.append {c d e : Collector α σ} {acts more : List (Act α)}
    (h : Reckoned c acts d) (hmore : Reckoned d more e) : Reckoned c (acts ++ more) e where
  settings := hmore.settings.trans h.settings
  failures n hn := by
    rw [List.foldl_append]
    exact hmore.failures _ (h.failures n hn)
  reaches n hn := by
    refine reaches_append.2 ⟨h.reaches n hn, ?_⟩
    rw [← h.settings]
    exact hmore.reaches _ (h.failures n hn)

/-- A step that shows nothing and keeps the settings and the failures. -/
theorem Reckoned.silent {c d : Collector α σ} (hsettings : d.settings = c.settings)
    (hfailures : d.failures = c.failures) : Reckoned c [] d :=
  ⟨hsettings, fun _ hn => hfailures ▸ hn, fun _ _ => trivial⟩

section Reckoning

variable {S : Sink α σ}

/-- A call counts as a failure exactly if the sink is at fault in it. -/
theorem Enacts.streak {c : Collector α σ} {act : Act α} {t : Turn α σ} (h : Enacts S c act t)
    {n : Nat} (hn : c.failures.toNat ≤ n) :
    t.collector.failures.toNat + t.hasFailed.toNat ≤ act.streak n := by
  have hfault := h.fault
  have hfailures := h.failures
  unfold Act.streak
  cases hdelivery : act.isDelivery with
  | true =>
    have hok : act.isFault = false := by
      unfold Act.isDelivery at hdelivery
      split at hdelivery
      next => rfl
      next => cases hdelivery
    rw [hdelivery, if_pos rfl] at hfailures
    rw [hfailures, ← hfault, hok]
    exact Nat.le_refl 0
  | false =>
    rw [hdelivery, if_neg Bool.false_ne_true] at hfailures
    rw [hfailures, ← hfault, if_neg Bool.false_ne_true]
    cases act.isFault with
    | true => exact Nat.succ_le_succ hn
    | false => exact hn

/-- The calls of a cycle lead to no more failures than faults, one that has ended the cycle
included. -/
theorem streak_work (now : Instant) {c : Collector α σ} {n : Nat} (hn : c.failures.toNat ≤ n) :
    (work S now c).2.settings = c.settings ∧
      (work S now c).2.failures.toNat + (!(work S now c).1).toNat ≤
        (callsOfWork S now c).foldl Act.streak n := by
  -- The streak counts a fault when it comes, the collector only at the end of the cycle.
  fun_induction work S now c generalizing n with
  | case1 c d hturn ih =>
    have hcall := enacts_turn S now c
    rw [hturn] at hcall
    rw [callsOfWork_of_again hturn, List.foldl_cons]
    obtain ⟨hsettings, hrest⟩ := ih (hcall.streak hn)
    exact ⟨hsettings.trans hcall.settings, hrest⟩
  | case2 c ok d hturn =>
    have hcall := enacts_turn S now c
    rw [hturn] at hcall
    rw [callsOfWork_of_ended hturn]
    have hstreak := hcall.streak hn
    refine ⟨hcall.settings, ?_⟩
    cases ok <;> exact hstreak

/-- What is given up at the end of a cycle has reached its threshold, and does not change the
streak. -/
theorem reaches_givenUpAfter {failures : UInt32} (c : Collector α σ) {n : Nat}
    (hn : failures.toNat ≤ n) : Reaches c.settings n (givenUpAfter failures c) ∧
      (givenUpAfter failures c).foldl Act.streak n = n := by
  have hact {act : Act α} (h : act ∈ givenUpAfter failures c) :
      act.Reached c.settings n ∧ act.streak n = n := by
    rcases mem_givenUpAfter h with ⟨items, rfl, hle⟩ | ⟨items, rfl, hle⟩
    · exact ⟨Nat.le_trans (UInt32.le_iff_toNat_le.1 hle) hn, rfl⟩
    · exact ⟨Nat.le_trans (UInt32.le_iff_toNat_le.1 hle) hn, rfl⟩
  -- Nothing more has to be known of what is given up.
  generalize givenUpAfter failures c = acts at hact
  induction acts with
  | nil => exact ⟨trivial, rfl⟩
  | cons act acts ih =>
    obtain ⟨hreached, hsame⟩ := hact List.mem_cons_self
    obtain ⟨hreaches, hstreak⟩ := ih fun h => hact (List.mem_cons_of_mem _ h)
    exact ⟨⟨hreached, by rwa [hsame]⟩, by rwa [List.foldl_cons, hsame]⟩

/-- At the end of a cycle that has failed there is at most one failure more. -/
theorem toNat_failuresAtEnd_le (ok : Bool) (c : Collector α σ) :
    (failuresAtEnd ok c).toNat ≤ c.failures.toNat + (!ok).toNat := by
  cases ok with
  | true => exact Nat.le_refl _
  | false =>
    show c.pacing.failed.failures.toNat ≤ _
    rw [Pacing.toNat_failures_failed]
    exact Nat.min_le_left _ _

/-- A cycle counts no more failures than the sink has had faults, and gives up nothing before its
time. -/
theorem reckoned_cycle (start : Start α σ) :
    Reckoned start.collector (start.history S)
      (start.collector.cycle S start.instant start.final) := by
  unfold Start.history Collector.cycle
  dsimp only
  have hwork {n : Nat} (hn : start.collector.failures.toNat ≤ n) :=
    streak_work (S := S) start.instant
      (c := start.collector.note (.cycleBegan start.instant start.final)) hn
  have hcalls : ∀ act ∈ callsOfWork S start.instant
      (start.collector.note (.cycleBegan start.instant start.final)), act.isCall = true :=
    fun _ => isCall_of_mem_callsOfWork
  generalize callsOfWork S start.instant _ = calls at hwork hcalls ⊢
  generalize work S start.instant _ = worked at hwork ⊢
  obtain ⟨ok, d⟩ := worked
  have hconcluded := (concluded ok d).settings
  have hfailures : (conclude ok d).failures = failuresAtEnd ok d := (concluded ok d).failures
  have hsettings : d.settings = start.collector.settings := (hwork (Nat.le_refl _)).1
  -- The failures at the end of the cycle are no more than the faults so far.
  have hend {n : Nat} (hn : start.collector.failures.toNat ≤ n) :
      (failuresAtEnd ok d).toNat ≤ calls.foldl Act.streak n :=
    Nat.le_trans (toNat_failuresAtEnd_le ok d) (hwork hn).2
  refine ⟨hconcluded.trans hsettings, fun n hn => ?_, fun n hn => ?_⟩
  · rw [hfailures, List.foldl_append, (reaches_givenUpAfter d (hend hn)).2]
    exact hend hn
  · refine reaches_append.2 ⟨reaches_of_calls hcalls n, ?_⟩
    rw [← hsettings]
    exact (reaches_givenUpAfter d (hend hn)).1

/-- That can be told as a chronicle. -/
theorem reckoned_chronicle (S : Sink α σ) : Chronicle S Reckoned where
  append := Reckoned.append
  outside _ _ _ _ := .silent rfl rfl
  offer c item := by
    have hsame : (c.offer item).2.settings = c.settings ∧
        (c.offer item).2.failures = c.failures :=
      offer_keeps (P := fun d : Collector α σ => d.settings = c.settings ∧ d.failures = c.failures)
        ⟨rfl, rfl⟩ ⟨rfl, rfl⟩ ⟨rfl, rfl⟩
    exact ⟨hsame.1, fun n hn => hsame.2 ▸ hn, fun n _ => ⟨trivial, trivial⟩⟩
  cycle := reckoned_cycle

end Reckoning

/-- What is given up has reached its threshold wherever it stands in a history. -/
theorem Reaches.of_place {settings : BatchSettings} {earlier later : List (Act α)} {act : Act α}
    (h : Reaches settings 0 (earlier ++ act :: later)) : act.Reached settings (streak earlier) :=
  (reaches_append.1 h).2.1

/-! ## The order of delivery -/

/-- The items with a fate, in the order in which they met it: `c` is the collector after the
history. -/
def itemsIn (history : List (Act α)) (c : Collector α σ) : Fate → List α
  | .queued => c.backlog.items
  | .staged => c.staged
  | fate => history.flatMap (Act.settled fate)

/-- A history is that of a run: what comes from outside are the requests, with the answers that they
have had, in its calls the sink does what `S` does, and the journal notes all of it. -/
structure Genuine (S : Sink α σ) (s : Session α σ) (requests : List (Request α))
    (history : List (Act α)) : Prop where
  /-- No run of a program comes to an instant past the end of the clock. There the alarm could not
  be started, and the first item would be answered with that failure. -/
  offers : (s.run S requests).2.clock.monotonic.Shown →
    history.filterMap Act.offer? =
      (requests.zip (s.run S requests).1).filterMap Request.offer?
  calls : Spoken S s.collector.sink history (s.run S requests).2.collector.sink
  journal : written (s.run S requests).2.collector.journal = history.flatMap Act.entries

/-- What a history tells of the deliveries of a collector, which is `c` after it. -/
structure Orderly (settings : BatchSettings) (history : List (Act α)) (c : Collector α σ) :
    Prop where
  /-- The items that were taken on have one fate each, and those that are delivered, staged or
  queued follow each other in their order. -/
  marking : ∃ marked : List (α × Fate), marked.map Prod.fst = history.flatMap Act.accepted ∧
    (∀ fate, withFate fate marked = itemsIn history c fate) ∧
    (marked.filter fun p => p.2.isKept).map Prod.fst =
      history.flatMap Act.delivered ++ c.staged ++ c.backlog.items
  /-- Every batch that goes to the sink has a proper size, and holds the items that the sink has
  wanted last. -/
  batches : ∀ earlier instant batch said outcome later,
    history = earlier ++ .handed instant batch said outcome :: later →
      1 ≤ batch.length ∧ batch.length ≤ settings.batchSizeLimit.toNat ∧
        batch <:+ earlier.flatMap (Act.judgedAs .keep)
  /-- Items are given up only after as many faults in a row as the threshold says. -/
  thresholds : ∀ earlier act later, history = earlier ++ act :: later →
    act.Reached settings (streak earlier)
  /-- As long as the sink is never at fault and wants all items, none is missing. -/
  complete : (∀ act ∈ history, act.isFault = false) →
    history.flatMap (Act.judgedAs .discard) = [] →
      history.flatMap Act.delivered ++ c.staged ++ c.backlog.items = history.flatMap Act.accepted

/-! ## Reading a history off the journal -/

section Reading

variable {journal : List (Entry α)} {history : List (Act α)}

/-- What the entries of an act bring, the history brings. -/
theorem collect_of_written {bring : Entry α → List α} {shown : Act α → List α}
    (hmark : ∀ entry, entry.isMark = true → bring entry = [])
    (hentries : ∀ act : Act α, act.entries.flatMap bring = shown act)
    (h : written journal = history.flatMap Act.entries) :
    collect bring journal = history.flatMap shown := by
  rw [collect_eq_flatMap_written hmark, h, List.flatMap_assoc]
  exact congrArg history.flatMap (funext hentries)

/-- The items that a journal shows with a fate are those that have met it in the history. -/
theorem itemsWith_of_written {c : Collector α σ}
    (h : written c.journal = history.flatMap Act.entries) (fate : Fate) :
    c.itemsWith c.journal fate = itemsIn history c fate := by
  have hsettled (fate : Fate) :
      collect (Entry.settled fate) c.journal = history.flatMap (Act.settled fate) :=
    collect_of_written (settled_of_isMark fate) (settled_entries fate) h
  cases fate with
  | queued => rfl
  | staged => rfl
  | delivered => exact hsettled .delivered
  | rejected => exact hsettled .rejected
  | panicked => exact hsettled .panicked
  | discarded => exact hsettled .discarded

/-- The entry of an act stands in the journal behind those of the acts before it. -/
theorem exists_suffix_of_written {earlier later : List (Act α)} {act : Act α} {entry : Entry α}
    (h : written journal = (earlier ++ act :: later).flatMap Act.entries)
    (hentry : act.outcome? = some entry) :
    ∃ before, entry :: before <:+ journal ∧
      written before = earlier.flatMap Act.entries ++ act.offers := by
  have hsplit : written journal =
      (earlier.flatMap Act.entries ++ act.offers) ++ entry :: later.flatMap Act.entries := by
    rw [h, List.flatMap_append, List.flatMap_cons, Act.entries, hentry]
    simp only [Option.toList_some, List.append_assoc, List.singleton_append]
  -- The place among the entries that say something is a place in the journal, behind some marks.
  obtain ⟨front, back, hjournal, hfront, hback⟩ := List.filter_eq_append_iff.1 hsplit
  obtain ⟨marks, rest, rfl, hmarks, -, -⟩ := List.filter_eq_cons_iff.1 hback
  refine ⟨(front ++ marks).reverse, ⟨rest.reverse, ?_⟩, ?_⟩
  · rw [← List.reverse_reverse journal, hjournal]
    simp
  · unfold written
    rw [List.reverse_reverse, List.filter_append, hfront, List.filter_eq_nil_iff.2 hmarks,
      List.append_nil]

/-- A sink that is never at fault has no streak. -/
theorem streak_of_faultless (h : ∀ act ∈ history, act.isFault = false) : streak history = 0 := by
  unfold streak
  induction history with
  | nil => rfl
  | cons act history ih =>
    obtain ⟨hact, hrest⟩ := List.forall_mem_cons.1 h
    have hzero : act.streak 0 = 0 := by
      unfold Act.streak
      rw [hact, if_neg Bool.false_ne_true, ite_self]
    rw [List.foldl_cons, hzero]
    exact ih hrest

/-- Without a fault of the sink nothing is given up. -/
theorem givenUp_of_faultless {settings : BatchSettings} (valid : settings.Valid)
    (hreaches : Reaches settings 0 history) (h : ∀ act ∈ history, act.isFault = false) :
    history.flatMap Act.givenUp = [] := by
  obtain ⟨hpos, horder⟩ := BatchSettings.Valid.thresholds valid
  rw [UInt32.lt_iff_toNat_lt] at hpos
  rw [UInt32.le_iff_toNat_le] at horder
  refine List.flatMap_eq_nil_iff.2 fun act hact => ?_
  -- Where something was given up the streak would have been one at least.
  obtain ⟨earlier, later, rfl⟩ := List.append_of_mem hact
  have hreached := hreaches.of_place
  rw [streak_of_faultless fun e he => h e (List.mem_append_left _ he)] at hreached
  cases act with
  | batchGivenUp items => exact absurd (Nat.lt_of_lt_of_le hpos hreached) (Nat.lt_irrefl _)
  | backlogGivenUp items =>
    exact absurd (Nat.lt_of_lt_of_le hpos (Nat.le_trans horder hreached)) (Nat.lt_irrefl _)
  | _ => rfl

/-- Without a fault the sink has not panicked over any item. -/
theorem panicked_of_unfaulted (h : ∀ act ∈ history, act.isFault = false) :
    history.flatMap (Act.judgedAs .panic) = [] := by
  refine List.flatMap_eq_nil_iff.2 fun act hact => ?_
  cases act with
  | judged instant item said verdict =>
    exact if_neg (of_decide_eq_false (h _ hact))
  | _ => rfl

end Reading

/-! ## Runs -/

/-- A marking in which no item is passed over has the kept items only. -/
theorem Marking.complete {c : Collector α σ} {entries : List (Entry α)} {items : List α}
    {marked : List (α × Fate)} (h : Marking c entries items marked)
    (hpassed : ∀ fate : Fate, fate.isKept = false → c.itemsWith entries fate = []) :
    c.itemsWith entries .delivered ++ c.staged ++ c.backlog.items = items := by
  -- Every item of the marking is kept, so the filter takes none away.
  rw [← h.order, ← h.items]
  congr 1
  refine List.filter_eq_self.2 fun p hp => ?_
  cases hkept : p.2.isKept with
  | true => rfl
  | false =>
    have hnone := hpassed p.2 hkept
    rw [← h.fates, withFate_eq_nil] at hnone
    exact absurd rfl (hnone p hp)

/-- After any run from a new collector, its deliveries are in order. -/
theorem orderly_run {settings : BatchSettings} {sink : σ} {clock : Clock} {s : Session α σ}
    (h : Session.create settings sink clock = .ok s) (S : Sink α σ) (requests : List (Request α)) :
    Genuine S s requests (s.history S requests) ∧
      Orderly settings (s.history S requests) (s.run S requests).2.collector := by
  -- Nothing has happened to the new collector.
  obtain ⟨hclock, hnone, hsettings, hfailures⟩ : s.clock = clock ∧ s.collector.journal = [] ∧
      s.collector.settings = settings ∧ s.collector.failures = 0 := by
    obtain ⟨valid, rfl⟩ := Session.eq_of_create h
    exact ⟨rfl, rfl, rfl, rfl⟩
  obtain rfl := hclock
  obtain rfl := hsettings
  have hjournal : written (s.run S requests).2.collector.journal =
      (s.history S requests).flatMap Act.entries := by
    rw [written_run, hnone]
    rfl
  have hbatches := ((batched_invariant _).run (S := S) (batched_of_create h) requests).batches
  have hreaches : Reaches s.collector.settings 0 (s.history S requests) :=
    ((reckoned_chronicle S).run s requests).reaches 0 (hfailures ▸ Nat.le_refl _)
  obtain ⟨marked, hmarking⟩ := exists_marking_run (S := S) h requests
  rw [collect_of_written taken_of_isMark taken_entries hjournal] at hmarking
  have hfates := itemsWith_of_written (c := (s.run S requests).2.collector) hjournal
  refine ⟨⟨offers_run h .refl requests, spoken_run s requests, hjournal⟩,
    ⟨marked, hmarking.items, fun fate => (hmarking.fates fate).trans (hfates fate), ?_⟩, ?_, ?_, ?_⟩
  · rw [hmarking.order, hfates .delivered]
    rfl
  · intro earlier instant batch said outcome later hplace
    rw [hplace] at hjournal
    -- The batch was proper where the journal notes it, and what was wanted by then is what the
    -- acts before it say.
    obtain ⟨before, hsuffix, hbefore⟩ := exists_suffix_of_written hjournal rfl
    obtain ⟨hne, hsize, hwanted⟩ := hbatches _ before hsuffix
    refine ⟨List.length_pos_iff.2 hne, hsize, ?_⟩
    rw [collect_eq_flatMap_written wanted_of_isMark, hbefore, List.flatMap_append,
      (flatMap_entries wanted_of_isOffer _).1, List.append_nil, List.flatMap_assoc,
      funext wanted_entries] at hwanted
    exact hwanted
  · intro earlier act later hplace
    rw [hplace] at hreaches
    exact hreaches.of_place
  · intro hfaultless hrejected
    -- None of the fates of an item that is passed over is met.
    have hcomplete := hmarking.complete fun fate hpassed => by
      rw [hfates]
      cases fate with
      | rejected => exact hrejected
      | panicked => exact panicked_of_unfaulted hfaultless
      | discarded => exact givenUp_of_faultless s.collector.valid hreaches hfaultless
      | queued => cases hpassed
      | staged => cases hpassed
      | delivered => cases hpassed
    rw [hfates .delivered] at hcomplete
    exact hcomplete

/-- Settings under which a batch is given up after two faults in a row, and the backlog after
three. -/
def brittle : BatchSettings :=
  { batchSizeLimit := 2, periodMs := 1000, queueLimit := some 4, backoff := ⟨1000, 1000, 2, 3⟩ }

/-- A sink that keeps even numbers, and panics over the number seven. -/
def choosy : Sink Nat (Sink.Script Nat) :=
  .scripted fun n => if n = 7 then .panic else if n % 2 = 0 then .keep else .discard

/-- The sink fails with the first batch and emits meanwhile, takes a longer one, and emits more than
there is room for. It fails with the next batch until that is given up, and panics over an item
until the backlog is. In the end it takes one batch more, and fails again. -/
theorem orderly_run_retried :
    ∃ s : Session Nat (Sink.Script Nat),
      Session.create brittle
          { takes := [⟨[.emit 8], .error⟩, ⟨[.emit 10, .emit 7, .emit 12], .ok⟩, ⟨[], .error⟩,
              ⟨[], .panic⟩, ⟨[], .ok⟩, ⟨[], .error⟩] } ⟨⟨0⟩, 0⟩ = .ok s ∧
        let requests := [.emit 2, .emit 3, .emit 4, .pass 1000000000, .pass 1000000000, .emit 14,
          .pass 1000000000, .emit 16, .emit 18, .emit 20, .pass 1000000000, .emit 22]
        let history := s.history choosy requests
        let t := (s.run choosy requests).2
        t.clock.monotonic.Shown ∧
          history.flatMap Act.accepted = [2, 8, 3, 4, 10, 7, 14, 16, 18, 20, 22] ∧
          history.flatMap Act.delivered = [2, 8, 16, 18] ∧
          history.flatMap (Act.judgedAs .discard) = [3] ∧
          history.flatMap (Act.judgedAs .panic) = [7] ∧
          history.flatMap Act.givenUp = [4, 10, 14] ∧
          (t.collector.staged, t.collector.backlog.items) = ([20], [22]) ∧
          Genuine choosy s requests history ∧ Orderly brittle history t.collector := by
  refine ⟨_, rfl, ?_, ?_, ?_, ?_, ?_, ?_, ?_, orderly_run rfl choosy _⟩
  · unfold Instant.Shown
    decide +kernel
  all_goals decide +kernel

end Courier.Collector
