import Courier.Proofs.Collector.Bounds
import Mathlib.Data.List.Nodup
import Mathlib.Data.List.Range
import Mathlib.Data.List.Sublists

/-!
# How often an item is handed over

Items that were taken on are told apart by their numbers: two equal items have different ones. The
journal tells which of them wait at any time, so it tells for each of them how the calls ended in
which it was handed to the sink.

> `placed_invariant`: the items that wait according to the journal are those that the collector
> holds, and a batch that goes to the sink is what is staged then.

> `rationed_cycle`: a cycle hands an item over once at most without success, and counts a failure
> for that; so what stays staged was not handed over more often than there were failures.
-/

namespace Courier.Collector

variable {α σ : Type}

/-! ## The items that wait -/

/-- The items that wait, each with its number among those that were taken on. -/
structure Held (α : Type) where
  /-- In the backlog, or in the hand of the sink. -/
  queued : List (α × Nat) := []
  /-- In the staged batch. -/
  staged : List (α × Nat) := []

/-- What waits after an entry, if `count` items were taken on before it. -/
def Held.after (count : Nat) (w : Held α) : Entry α → Held α
  | .accepted item => { w with queued := w.queued ++ [(item, count)] }
  | .kept _ => { queued := w.queued.tail, staged := w.staged ++ w.queued.take 1 }
  | .filtered _ | .filterPanicked _ _ => { w with queued := w.queued.tail }
  | .flushed _ _ _ .ok | .batchDropped _ => { w with staged := [] }
  | .backlogDropped _ => { w with queued := [] }
  | _ => w

/-- The items that wait after the entries of a journal. -/
def held : List (Entry α) → Held α
  | [] => {}
  | entry :: earlier => (held earlier).after (collect Entry.taken earlier).length entry

/-- A batch that fails stays staged. -/
theorem held_failed {instant : Instant} {batch : List α} {replies : List Reply}
    {outcome : Sink.Outcome} (h : outcome ≠ .ok) (earlier : List (Entry α)) :
    held (.flushed instant batch replies outcome :: earlier) = held earlier := by
  cases outcome with
  | ok => exact absurd rfl h
  | error => rfl
  | panic => rfl

/-- Whether a batch was handed to the sink. -/
def Entry.isHandover : Entry α → Bool
  | .flushed _ _ _ _ => true
  | _ => false

/-- How the calls ended in which an item was handed to the sink, latest first. -/
def handovers (number : Nat) : List (Entry α) → List Sink.Outcome
  | [] => []
  | .flushed _ _ _ outcome :: earlier =>
    if number ∈ (held earlier).staged.map Prod.snd then outcome :: handovers number earlier
    else handovers number earlier
  | _ :: earlier => handovers number earlier

/-- An entry that hands nothing over leaves the calls for an item as they were. -/
theorem handovers_cons {entry : Entry α} (h : entry.isHandover = false) (number : Nat)
    (earlier : List (Entry α)) :
    handovers number (entry :: earlier) = handovers number earlier := by
  cases entry with
  | flushed instant batch replies outcome => cases h
  | _ => rfl

/-- A batch that goes to the sink is what is staged then, and its items were taken on in their
order. -/
def Entry.HandsOver : Entry α → List (Entry α) → Prop
  | .flushed _ batch _ _, earlier =>
    batch = (held earlier).staged.map Prod.fst ∧
      (held earlier).staged.Sublist (collect Entry.taken earlier).zipIdx
  | _, _ => True

/-- What the journal tells of the items that wait is true. -/
structure Placed (b : Bench α σ) : Prop where
  staged : (held b.2.journal).staged.map Prod.fst = b.2.staged
  queued : (held b.2.journal).queued.map Prod.fst = b.1.toList ++ b.2.backlog.items
  numbered : ((held b.2.journal).staged ++ (held b.2.journal).queued).Sublist
    (collect Entry.taken b.2.journal).zipIdx
  batches : Throughout Entry.HandsOver b.2.journal

/-- An entry that takes nothing on may take something away. -/
theorem Placed.note {hand hand' : Option α} {c d : Collector α σ} {entry : Entry α}
    (h : Placed (hand, c)) (hjournal : d.journal = entry :: c.journal) (htaken : entry.taken = [])
    (hstaged : ((held c.journal).after (collect Entry.taken c.journal).length entry).staged.map
      Prod.fst = d.staged)
    (hqueued : ((held c.journal).after (collect Entry.taken c.journal).length entry).queued.map
      Prod.fst = hand'.toList ++ d.backlog.items)
    (hfewer : (((held c.journal).after (collect Entry.taken c.journal).length entry).staged ++
      ((held c.journal).after (collect Entry.taken c.journal).length entry).queued).Sublist
        ((held c.journal).staged ++ (held c.journal).queued))
    (hentry : entry.HandsOver c.journal) : Placed (hand', d) := by
  have hheld : held d.journal =
      (held c.journal).after (collect Entry.taken c.journal).length entry := by
    rw [hjournal]
    rfl
  refine ⟨?_, ?_, ?_, ?_⟩
  · rw [hheld]
    exact hstaged
  · rw [hheld]
    exact hqueued
  · rw [hheld, hjournal, collect_cons, htaken, List.append_nil]
    exact hfewer.trans h.numbered
  · rw [hjournal]
    exact h.batches.cons hentry

/-- The item in the hand of the sink is the one that has waited longest. -/
theorem Placed.tail {item : α} {c : Collector α σ} (h : Placed (some item, c)) :
    (held c.journal).queued.tail.map Prod.fst = c.backlog.items := by
  rw [List.map_tail, h.queued]
  rfl

/-- Every step of a collector keeps what the journal tells of the items that wait. -/
theorem placed_invariant : Invariant (α := α) (σ := σ) Placed where
  move {b b'} h hmove := by
    cases hmove with
    | advanced => exact ⟨h.staged, h.queued, h.numbered, h.batches⟩
    | accepted hand c item =>
      refine ⟨h.staged, ?_, ?_, h.batches.cons trivial⟩
      · show ((held c.journal).queued ++ [(item, _)]).map Prod.fst =
          hand.toList ++ (c.backlog.items ++ [item])
        rw [List.map_append, h.queued, List.append_assoc]
        rfl
      · show ((held c.journal).staged ++ ((held c.journal).queued ++ [(item, _)])).Sublist
          (collect Entry.taken (.accepted item :: c.journal)).zipIdx
        rw [collect_cons, List.zipIdx_append, ← List.append_assoc, Nat.zero_add]
        exact h.numbered.append (List.Sublist.refl _)
    | refused hand c item => exact h.note rfl rfl h.staged h.queued (List.Sublist.refl _) trivial
    | closing => exact ⟨h.staged, h.queued, h.numbered, h.batches⟩
    | picked c item rest backlog =>
      refine ⟨h.staged, ?_, h.numbered, h.batches⟩
      show _ = item :: rest
      rw [← backlog]
      exact h.queued
    | kept c item =>
      -- The item in the hand is the first of those that wait.
      have hqueued := h.queued
      obtain ⟨x, rest, hheld⟩ : ∃ x rest, (held c.journal).queued = x :: rest := by
        cases hlist : (held c.journal).queued with
        | nil => rw [hlist] at hqueued; cases hqueued
        | cons x rest => exact ⟨x, rest, rfl⟩
      rw [hheld, List.map_cons] at hqueued
      refine h.note rfl rfl ?_ h.tail ?_ trivial
      · show ((held c.journal).staged ++ (held c.journal).queued.take 1).map Prod.fst =
          c.staged ++ [item]
        rw [List.map_append, h.staged, hheld]
        exact congrArg (fun y => c.staged ++ [y]) (List.cons.inj hqueued).1
      · show ((held c.journal).staged ++ (held c.journal).queued.take 1 ++
          (held c.journal).queued.tail).Sublist _
        rw [hheld, List.append_assoc]
        exact List.Sublist.refl _
    | rejected c item =>
      exact h.note rfl rfl h.staged h.tail ((List.tail_sublist _).append_left _) trivial
    | panicked c now item =>
      exact h.note rfl rfl h.staged h.tail ((List.tail_sublist _).append_left _) trivial
    | delivered c now replies =>
      refine h.note rfl rfl rfl h.queued (List.sublist_append_right _ _) ⟨h.staged.symm, ?_⟩
      exact (List.sublist_append_left _ _).trans h.numbered
    | undelivered c now replies outcome _ fault =>
      have hentry : (Entry.flushed now c.staged replies outcome).HandsOver c.journal :=
        ⟨h.staged.symm, (List.sublist_append_left _ _).trans h.numbered⟩
      cases outcome with
      | ok => exact absurd rfl fault
      | error => exact h.note rfl rfl h.staged h.queued (List.Sublist.refl _) hentry
      | panic => exact h.note rfl rfl h.staged h.queued (List.Sublist.refl _) hentry
    | idled c now replies outcome =>
      exact h.note rfl rfl h.staged h.queued (List.Sublist.refl _) trivial
  cycleBegan now final h := h.note rfl rfl h.staged h.queued (List.Sublist.refl _) trivial
  recordFailure h _ := h.note rfl rfl h.staged h.queued (List.Sublist.refl _) trivial
  dropBatch {c} h := by
    unfold dropBatch
    split
    next => exact h.note rfl rfl rfl h.queued (List.sublist_append_right _ _) trivial
    next => exact h
  dropBacklog {c} h _ := by
    unfold dropBacklog
    split
    next =>
      refine h.note rfl rfl h.staged rfl ?_ trivial
      show ((held c.journal).staged ++ []).Sublist _
      exact (List.nil_sublist _).append_left _
    next => exact h
  takeStock h := ⟨h.staged, h.queued, h.numbered, h.batches⟩
  outside _ _ _ h := ⟨h.staged, h.queued, h.numbered, h.batches⟩

/-! ## Counting the calls -/

section Placed

variable {hand : Option α} {c : Collector α σ}

/-- No item waits in two places. -/
theorem Placed.nodup (h : Placed (hand, c)) :
    (((held c.journal).staged ++ (held c.journal).queued).map Prod.snd).Nodup := by
  refine List.Nodup.sublist (h.numbered.map Prod.snd) ?_
  rw [List.zipIdx_map_snd]
  exact List.nodup_range'

/-- What waits in the backlog is not staged, and neither is what has not been taken on. -/
theorem Placed.not_staged (h : Placed (hand, c)) {number : Nat}
    (hnumber : number ∈ (held c.journal).queued.map Prod.snd ∨
      (collect Entry.taken c.journal).length ≤ number) :
    number ∉ (held c.journal).staged.map Prod.snd := by
  intro hstaged
  rcases hnumber with hqueued | hunborn
  · have hnodup := h.nodup
    rw [List.map_append] at hnodup
    exact List.disjoint_of_nodup_append hnodup hstaged hqueued
  · obtain ⟨x, hx, rfl⟩ := List.mem_map.1 hstaged
    have hmem := h.numbered.subset (List.mem_append_left _ hx)
    exact Nat.not_lt.2 hunborn (List.snd_lt_of_mem_zipIdx hmem)

end Placed

/-- How often an item was handed over, where `pending` of the calls have not been counted as
failures yet. -/
structure Tried (limit pending number : Nat) (c : Collector α σ) : Prop where
  /-- A staged item was not taken, and each call for it has counted as a failure. -/
  staged : number ∈ (held c.journal).staged.map Prod.snd →
    .ok ∉ handovers number c.journal ∧
      (handovers number c.journal).length ≤ c.failures.toNat + pending ∧
      (handovers number c.journal).length < limit + pending
  /-- An item that is still to be judged, or to be taken on, was not handed over. -/
  ahead : number ∈ (held c.journal).queued.map Prod.snd ∨
    (collect Entry.taken c.journal).length ≤ number → handovers number c.journal = []
  most : (handovers number c.journal).length ≤ limit
  once : .ok ∉ (handovers number c.journal).tail

section Tried

variable {limit pending number : Nat} {hand hand' : Option α} {c d : Collector α σ}

/-- Where no call is pending, at most one is. -/
theorem Tried.relax (h : Tried limit 0 number c) : Tried limit 1 number c := by
  refine ⟨?_, h.ahead, h.most, h.once⟩
  intro hstaged
  obtain ⟨hok, hfailures, hlt⟩ := h.staged hstaged
  exact ⟨hok, Nat.le_succ_of_le hfailures, Nat.lt_succ_of_lt hlt⟩

/-- Where nothing is noted and nothing fails, the count stays. -/
theorem Tried.of_silent (h : Tried limit pending number c) (hjournal : d.journal = c.journal)
    (hfailures : d.failures = c.failures) : Tried limit pending number d := by
  obtain ⟨hstaged, hahead, hmost, honce⟩ := h
  rw [← hjournal] at hstaged hahead hmost honce
  rw [← hfailures] at hstaged
  exact ⟨hstaged, hahead, hmost, honce⟩

/-- An entry that takes nothing on and hands nothing over leaves the calls as they were. -/
theorem Tried.note (h : Tried limit pending number c) {entry : Entry α}
    (hjournal : d.journal = entry :: c.journal) (hfailures : d.failures = c.failures)
    (htaken : entry.taken = []) (hentry : entry.isHandover = false)
    (hstaged : number ∈ (held d.journal).staged.map Prod.snd →
      number ∈ (held c.journal).staged.map Prod.snd ∨
        number ∈ (held c.journal).queued.map Prod.snd ∧ 0 < limit + pending)
    (hqueued : number ∈ (held d.journal).queued.map Prod.snd →
      number ∈ (held c.journal).queued.map Prod.snd) : Tried limit pending number d := by
  have hcalls : handovers number d.journal = handovers number c.journal := by
    rw [hjournal, handovers_cons hentry]
  have hcount : (collect Entry.taken d.journal).length =
      (collect Entry.taken c.journal).length := by
    rw [hjournal, collect_cons, htaken, List.append_nil]
  refine ⟨?_, ?_, hcalls ▸ h.most, hcalls ▸ h.once⟩
  · intro hmem
    rw [hcalls, hfailures]
    rcases hstaged hmem with hold | ⟨hnew, hpos⟩
    · exact h.staged hold
    · -- The item has just been staged, and was not handed over before.
      rw [h.ahead (.inl hnew)]
      exact ⟨List.not_mem_nil, Nat.zero_le _, hpos⟩
  · intro hahead
    rw [hcalls]
    rw [hcount] at hahead
    exact h.ahead (hahead.imp_left hqueued)

/-- What waits behind the first item waits. -/
theorem mem_of_mem_tail {queued : List (α × Nat)} (h : number ∈ queued.tail.map Prod.snd) :
    number ∈ queued.map Prod.snd :=
  List.map_subset _ (List.tail_sublist queued).subset h

/-- A new item has not been handed over yet. -/
theorem Tried.accepted (h : Tried limit 0 number c) (item : α) :
    Tried limit 0 number (c.accept item) := by
  refine ⟨h.staged, ?_, h.most, h.once⟩
  intro hnumber
  refine h.ahead ?_
  rcases hnumber with hqueued | hlater
  · change number ∈ ((held c.journal).queued ++ [(item, _)]).map Prod.snd at hqueued
    rw [List.map_append, List.mem_append] at hqueued
    rcases hqueued with hold | hnew
    · exact .inl hold
    · exact .inr (Nat.le_of_eq (List.mem_singleton.1 hnew).symm)
  · change (collect Entry.taken (.accepted item :: c.journal)).length ≤ number at hlater
    rw [collect_cons, List.length_append] at hlater
    exact .inr (Nat.le_of_add_right_le hlater)

/-- An item that joins the batch has not been handed over yet either. -/
theorem Tried.kept (h : Tried limit 0 number c) (hlimit : 0 < limit) (item : α) :
    Tried limit 0 number (c.stageItem item) := by
  refine h.note rfl rfl rfl rfl ?_ mem_of_mem_tail
  intro hnumber
  change number ∈ ((held c.journal).staged ++ (held c.journal).queued.take 1).map Prod.snd
    at hnumber
  rw [List.map_append, List.mem_append] at hnumber
  rcases hnumber with hold | hnew
  · exact .inl hold
  · exact .inr ⟨List.map_subset _ (List.take_subset 1 _) hnew, hlimit⟩

/-- A batch is handed over for each of its items. -/
theorem handovers_flushed (now : Instant) (replies : List Reply) (outcome : Sink.Outcome)
    (batch : List α) (earlier : List (Entry α)) :
    handovers number (.flushed now batch replies outcome :: earlier) =
      if number ∈ (held earlier).staged.map Prod.snd then outcome :: handovers number earlier
      else handovers number earlier := rfl

/-- A call with the staged batch, whatever its outcome, keeps to the limit, and it does not follow
one that has succeeded. -/
theorem Tried.handed (h : Tried limit 0 number c) (now : Instant) (replies : List Reply)
    (outcome : Sink.Outcome) :
    (handovers number (.flushed now c.staged replies outcome :: c.journal)).length ≤ limit ∧
      .ok ∉ (handovers number (.flushed now c.staged replies outcome :: c.journal)).tail := by
  rw [handovers_flushed]
  split
  next hstaged =>
    obtain ⟨hok, -, hlt⟩ := h.staged hstaged
    exact ⟨hlt, hok⟩
  next => exact ⟨h.most, h.once⟩

/-- The call is of no concern to the items that are not staged. -/
theorem Tried.ahead_handed (hplaced : Placed (hand, c)) (h : Tried limit 0 number c) (now : Instant)
    (replies : List Reply) (outcome : Sink.Outcome)
    (hahead : number ∈ (held c.journal).queued.map Prod.snd ∨
      (collect Entry.taken (.flushed now c.staged replies outcome :: c.journal)).length ≤ number) :
    handovers number (.flushed now c.staged replies outcome :: c.journal) = [] := by
  rw [collect_cons, show Entry.taken (.flushed now c.staged replies outcome) = [] from rfl,
    List.append_nil] at hahead
  rw [handovers_flushed, if_neg (hplaced.not_staged hahead)]
  exact h.ahead hahead

/-- A call that fails has yet to be counted. -/
theorem Tried.undelivered (hplaced : Placed (hand, c)) (h : Tried limit 0 number c) (now : Instant)
    (replies : List Reply) {outcome : Sink.Outcome} (fault : outcome ≠ .ok) :
    Tried limit 1 number (c.note (.flushed now c.staged replies outcome)) := by
  have hsame : held (.flushed now c.staged replies outcome :: c.journal) = held c.journal :=
    held_failed fault c.journal
  obtain ⟨hmost, honce⟩ := h.handed now replies outcome
  refine ⟨?_, ?_, hmost, honce⟩
  · intro hstaged
    change number ∈ (held (.flushed now c.staged replies outcome :: c.journal)).staged.map Prod.snd
      at hstaged
    rw [hsame] at hstaged
    obtain ⟨hok, hfailures, hlt⟩ := h.staged hstaged
    show .ok ∉ handovers number (.flushed now c.staged replies outcome :: c.journal) ∧
      (handovers number (.flushed now c.staged replies outcome :: c.journal)).length ≤
        c.failures.toNat + 1 ∧
      (handovers number (.flushed now c.staged replies outcome :: c.journal)).length < limit + 1
    rw [handovers_flushed, if_pos hstaged]
    refine ⟨?_, Nat.succ_le_succ hfailures, Nat.succ_lt_succ hlt⟩
    intro hmem
    rcases List.mem_cons.1 hmem with heq | hmem
    · exact fault heq.symm
    · exact hok hmem
  · intro hahead
    refine h.ahead_handed hplaced now replies outcome ?_
    rw [← hsame]
    exact hahead

end Tried

/-- A batch that is not taken is a fault of the sink. -/
theorem isFault_of_failed {instant : Instant} {batch : List α} {replies : List Reply}
    {outcome : Sink.Outcome} (h : outcome ≠ .ok) :
    (Entry.flushed instant batch replies outcome).isFault = true := by
  cases outcome with
  | ok => exact absurd rfl h
  | error => rfl
  | panic => rfl

/-- Until the sink is at fault, every call for an item has been counted; and after its fault, every
one but the last. -/
structure Counting (limit number : Nat) (base : List (Entry α)) (b : Bench α σ) : Prop where
  placed : Placed b
  entries : ∃ entries, b.2.journal = entries ++ base ∧
    ((∀ entry ∈ entries, entry.isFault = false) → Tried limit 0 number b.2) ∧
    ((∀ entry ∈ entries.tail, entry.isFault = false) → Tried limit 1 number b.2)

/-- One entry more is counted with the call it notes, or is the fault that ends the calls. -/
theorem Counting.note {limit number : Nat} {base : List (Entry α)} {b b' : Bench α σ}
    (h : Counting limit number base b) (hplaced : Placed b') {entry : Entry α}
    (hjournal : b'.2.journal = entry :: b.2.journal)
    (htried : Tried limit 0 number b.2 → Tried limit 0 number b'.2 ∨
      entry.isFault = true ∧ Tried limit 1 number b'.2) : Counting limit number base b' := by
  obtain ⟨entries, hbase, hquiet, -⟩ := h.entries
  refine ⟨hplaced, entry :: entries, ?_, ?_, ?_⟩
  · rw [hjournal, hbase, List.cons_append]
  · intro hnone
    rcases htried (hquiet fun e he => hnone e (List.mem_cons_of_mem _ he)) with h0 | ⟨hfault, -⟩
    · exact h0
    · rw [hnone entry List.mem_cons_self] at hfault
      cases hfault
  · intro hnone
    rcases htried (hquiet hnone) with h0 | ⟨-, h1⟩
    · exact h0.relax
    · exact h1

/-- Where nothing is noted and nothing fails, all calls stay counted. -/
theorem Counting.silent {limit number : Nat} {base : List (Entry α)} {b b' : Bench α σ}
    (h : Counting limit number base b) (hplaced : Placed b')
    (hjournal : b'.2.journal = b.2.journal) (hfailures : b'.2.failures = b.2.failures) :
    Counting limit number base b' := by
  obtain ⟨entries, hbase, h0, h1⟩ := h.entries
  exact ⟨hplaced, entries, hjournal.trans hbase,
    fun hnone => (h0 hnone).of_silent hjournal hfailures,
    fun hnone => (h1 hnone).of_silent hjournal hfailures⟩

/-- The moves of a cycle keep count of the calls. -/
theorem Counting.move {limit number : Nat} (hlimit : 0 < limit) {base : List (Entry α)}
    {b b' : Bench α σ} (h : Counting limit number base b) (hmove : Move b b') :
    Counting limit number base b' := by
  have hplaced := placed_invariant.move h.placed hmove
  cases hmove with
  | advanced => exact h.silent hplaced rfl rfl
  | accepted hand c item => exact h.note hplaced rfl fun h0 => .inl (h0.accepted item)
  | refused hand c item =>
    exact h.note hplaced rfl fun h0 => .inl (h0.note rfl rfl rfl rfl .inl id)
  | closing => exact h.silent hplaced rfl rfl
  | picked c item rest => exact h.silent hplaced rfl rfl
  | kept c item => exact h.note hplaced rfl fun h0 => .inl (h0.kept hlimit item)
  | rejected c item =>
    exact h.note hplaced rfl fun h0 => .inl (h0.note rfl rfl rfl rfl .inl mem_of_mem_tail)
  | panicked c now item =>
    exact h.note hplaced rfl fun h0 => .inl (h0.note rfl rfl rfl rfl .inl mem_of_mem_tail)
  | delivered c now replies =>
    refine h.note hplaced rfl fun h0 => .inl ?_
    obtain ⟨hmost, honce⟩ := h0.handed now replies .ok
    exact ⟨nofun, h0.ahead_handed h.placed now replies .ok, hmost, honce⟩
  | undelivered c now replies outcome _ fault =>
    exact h.note hplaced rfl fun h0 =>
      .inr ⟨isFault_of_failed fault, h0.undelivered h.placed now replies fault⟩
  | idled c now replies outcome =>
    exact h.note hplaced rfl fun h0 => .inl (h0.note rfl rfl rfl rfl .inl id)

/-! ## Cycles -/

/-- A fault of the sink ends the calls of a cycle, so it is noted last. -/
theorem fault_last_of_work (S : Sink α σ) (now : Instant) (c : Collector α σ) :
    ∃ entries, (work S now c).2.journal = entries ++ c.journal ∧
      ∀ entry ∈ entries.tail, entry.isFault = false := by
  fun_induction work S now c with
  | case1 c d hturn ih =>
    obtain ⟨later, hlater, hquiet⟩ := ih
    obtain ⟨entries, hjournal, -, hfaults⟩ := faults_of_turn S now c
    rw [hturn] at hjournal hfaults
    refine ⟨later ++ entries, ?_, ?_⟩
    · rw [hlater, show d.journal = _ from hjournal, List.append_assoc]
    · intro entry hentry
      have hcall : entry ∈ entries → entry.isFault = false := by
        intro he
        simpa using List.any_eq_false.1 hfaults entry he
      cases later with
      | nil => exact hcall (List.mem_of_mem_tail hentry)
      | cons first rest =>
        rcases List.mem_append.1 hentry with he | he
        · exact hquiet entry he
        · exact hcall he
  | case2 c ok d hturn =>
    obtain ⟨entry, hcompletes⟩ := turn_completes S now c
    obtain ⟨offers, hjournal, hoffers, -⟩ := offered_obeyAll (nextCall S c).1 (nextCall S c).2
    have hcall : (nextCall S c).1.journal = c.journal := by
      unfold nextCall
      split <;> rfl
    have hlatest := hcompletes.journal
    rw [hturn, show (afterCommands S c).journal = _ from hjournal, hcall] at hlatest
    exact ⟨entry :: offers, hlatest, fun e he => Entry.isFault_of_isOffer (hoffers e he)⟩

/-- The end of a cycle hands nothing over. -/
theorem handovers_conclude (number : Nat) (ok : Bool) (c : Collector α σ) :
    handovers number (conclude ok c).journal = handovers number c.journal := by
  have hafter := eq_conclude (fun d : Collector α σ => handovers number d.journal)
    (fun d => by unfold dropBatch; split <;> rfl) (fun d => by unfold dropBacklog; split <;> rfl)
    (fun _ => rfl) ok c
  refine hafter.trans ?_
  cases ok <;> rfl

theorem taken_conclude (ok : Bool) (c : Collector α σ) :
    collect Entry.taken (conclude ok c).journal = collect Entry.taken c.journal := by
  have hnone (entry : Entry α) (journal : List (Entry α)) (h : entry.taken = []) :
      collect Entry.taken (entry :: journal) = collect Entry.taken journal := by
    rw [collect_cons, h, List.append_nil]
  have hafter := eq_conclude (fun d : Collector α σ => collect Entry.taken d.journal)
    (fun d => by
      unfold dropBatch
      split
      next => exact hnone _ _ rfl
      next => rfl)
    (fun d => by
      unfold dropBacklog
      split
      next => exact hnone _ _ rfl
      next => rfl)
    (fun _ => rfl) ok c
  refine hafter.trans ?_
  cases ok with
  | true => rfl
  | false => exact hnone _ _ rfl

/-- At the end of a cycle items are given up, but none is staged or queued anew. -/
theorem held_conclude (ok : Bool) (c : Collector α σ) :
    (held (conclude ok c).journal).staged ⊆ (held c.journal).staged ∧
      (held (conclude ok c).journal).queued ⊆ (held c.journal).queued := by
  have hbatch (d : Collector α σ) :
      (held d.dropBatch.journal).staged ⊆ (held d.journal).staged ∧
        (held d.dropBatch.journal).queued = (held d.journal).queued := by
    unfold dropBatch
    split
    next => exact ⟨List.nil_subset _, rfl⟩
    next => exact ⟨List.Subset.refl _, rfl⟩
  have hbacklog (d : Collector α σ) :
      (held d.dropBacklog.journal).staged = (held d.journal).staged ∧
        (held d.dropBacklog.journal).queued ⊆ (held d.journal).queued := by
    unfold dropBacklog
    split
    next => exact ⟨rfl, List.nil_subset _⟩
    next => exact ⟨rfl, List.Subset.refl _⟩
  have hfailed : held (if ok then c else c.recordFailure).journal = held c.journal := by
    cases ok <;> rfl
  show (held (if ok then c else c.recordFailure).dropBatch.dropBacklog.journal).staged ⊆ _ ∧
    (held (if ok then c else c.recordFailure).dropBatch.dropBacklog.journal).queued ⊆ _
  rw [← hfailed]
  generalize (if ok then c else c.recordFailure) = d
  obtain ⟨hstaged, hqueued⟩ := hbatch d
  obtain ⟨hstaged', hqueued'⟩ := hbacklog d.dropBatch
  exact ⟨hstaged' ▸ hstaged, hqueued ▸ hqueued'⟩

/-- The end of a cycle counts its failed call, and what stays staged may be handed over again. -/
theorem tried_conclude {settings : BatchSettings} {number : Nat} {ok : Bool} {c : Collector α σ}
    (hfixed : c.settings = settings) (hplaced : Placed (none, conclude ok c))
    (h : Tried settings.backoff.dropBatchAfter.toNat (!ok).toNat number c) :
    Tried settings.backoff.dropBatchAfter.toNat 0 number (conclude ok c) := by
  obtain ⟨hstaged, hqueued⟩ := held_conclude ok c
  refine ⟨?_, ?_, ?_, ?_⟩
  · intro hmem
    obtain ⟨hok, hfailures, -⟩ := h.staged (List.map_subset _ hstaged hmem)
    have hmost := h.most
    -- What is staged has not been given up, so the failures are still too few for that.
    have hfew : (conclude ok c).failures.toNat < settings.backoff.dropBatchAfter.toNat := by
      by_contra hreached
      have hnone := staged_conclude ok c (by rw [hfixed]; exact Nat.not_lt.1 hreached)
      rw [← hplaced.staged] at hnone
      rw [List.map_eq_nil_iff.1 hnone] at hmem
      cases hmem
    have hcounted : (handovers number c.journal).length ≤ (conclude ok c).failures.toNat := by
      rw [(concluded _ _).failures]
      cases ok with
      | true => exact hfailures
      | false =>
        rw [if_neg Bool.false_ne_true, toNat_recordFailure]
        have hlt := UInt32.toNat_lt_size settings.backoff.dropBatchAfter
        have hfailures' : (handovers number c.journal).length ≤ c.failures.toNat + 1 := hfailures
        omega
    rw [handovers_conclude]
    exact ⟨hok, hcounted, Nat.lt_of_le_of_lt hcounted hfew⟩
  · intro hahead
    rw [taken_conclude] at hahead
    rw [handovers_conclude]
    exact h.ahead (hahead.imp_left fun hmem => List.map_subset _ hqueued hmem)
  · rw [handovers_conclude]
    exact h.most
  · rw [handovers_conclude]
    exact h.once

/-- What is staged between cycles was not handed over more often than there were failures. -/
structure Rationed (settings : BatchSettings) (c : Collector α σ) : Prop where
  fixed : c.settings = settings
  placed : Placed (none, c)
  tried : ∀ number, Tried settings.backoff.dropBatchAfter.toNat 0 number c

/-- A cycle counts a failure if it hands items over without success. -/
theorem rationed_cycle {settings : BatchSettings} {c : Collector α σ} (h : Rationed settings c)
    (S : Sink α σ) (now : Instant) (final : Bool) : Rationed settings (c.cycle S now final) := by
  have hplaced := placed_invariant.cycle h.placed S now final
  refine ⟨(settings_cycle S now final c).trans h.fixed, hplaced, ?_⟩
  intro number
  have hlimit : 0 < settings.backoff.dropBatchAfter.toNat := by
    rw [← h.fixed]
    exact UInt32.lt_iff_toNat_lt.1 (BatchSettings.Valid.thresholds c.valid).1
  -- In the calls the fault comes last, so all calls but that one have been counted.
  have hbegan : Counting settings.backoff.dropBatchAfter.toNat number
      (c.note (.cycleBegan now final)).journal (none, c.note (.cycleBegan now final)) := by
    have htried := (h.tried number).note (d := c.note (.cycleBegan now final)) rfl rfl rfl rfl .inl
      id
    exact ⟨placed_invariant.cycleBegan now final h.placed, [], rfl, fun _ => htried,
      fun _ => htried.relax⟩
  obtain ⟨-, entries, hjournal, hquiet, hlast⟩ :=
    (moves_work S now _).keep (Counting.move hlimit) hbegan
  obtain ⟨faults, hfaultsJournal, -, hfaults⟩ :=
    faults_of_work S now (c.note (.cycleBegan now final))
  obtain ⟨calls, hcallsJournal, hcalls⟩ := fault_last_of_work S now (c.note (.cycleBegan now final))
  obtain rfl := List.append_cancel_right (hfaultsJournal.symm.trans hjournal)
  obtain rfl := List.append_cancel_right (hcallsJournal.symm.trans hjournal)
  have hfixed : (work S now (c.note (.cycleBegan now final))).2.settings = settings :=
    ((moves_work S now _).keep Working.move (working_began c now final)).fixed.trans h.fixed
  rw [cycle_of_work rfl] at hplaced ⊢
  refine tried_conclude hfixed hplaced ?_
  cases hok : (work S now (c.note (.cycleBegan now final))).1 with
  | true =>
    rw [hok] at hfaults
    exact hquiet fun entry hentry => by simpa using List.any_eq_false.1 hfaults entry hentry
  | false => exact hlast hcalls

/-- Between cycles no item has been handed over too often. -/
theorem rationed_rest (settings : BatchSettings) (S : Sink α σ) :
    RestInvariant S (Rationed settings) where
  cycle now final h := rationed_cycle h S now final
  offer {c} item h := by
    refine ⟨?_, placed_invariant.toCycleInvariant.offer h.placed item, fun number => ?_⟩
    · exact offer_keeps (P := fun d => d.settings = settings) h.fixed h.fixed h.fixed
    · have htried := h.tried number
      exact offer_keeps htried (htried.accepted item) (htried.note rfl rfl rfl rfl .inl id)
  outside stage alarm unreachable h :=
    ⟨h.fixed, placed_invariant.outside stage alarm unreachable h.placed,
      fun number => (h.tried number).of_silent rfl rfl⟩

end Courier.Collector
