import Courier.Proofs.Collector.Runs

/-!
# The ledger of a collector

The items that a collector has taken on, in the order in which it took them on, can be marked with
their fates at any time. Items that left the backlog before the batch that is staged now are
settled for good; those that left it since are staged, or were not wanted. `Divided` keeps the two
apart, because an item that is staged may still become a delivered or a discarded one: then all
staged items do so together, and none that is settled lies between them.

> `ledger_invariant`: every step of a collector keeps its ledger.

> `Ledger.exists_marking`: between the calls of the sink, the marks tell of every fate the same as
> the journal does, and the items that are delivered, staged and queued follow each other in this
> order.

> `exists_marking_run`: so they can be marked after every run.
-/

namespace Courier.Collector

variable {α σ : Type}

/-! ## Marked items -/

/-- The items that are marked with a fate, in their order. -/
def withFate (fate : Fate) (marked : List (α × Fate)) : List α :=
  (marked.filter fun p => p.2 = fate).map Prod.fst

/-- Marks items with a fate. -/
def mark (fate : Fate) (items : List α) : List (α × Fate) := items.map fun item => (item, fate)

/-- Marks the staged items with another fate. -/
def restage (fate : Fate) (marked : List (α × Fate)) : List (α × Fate) :=
  marked.map fun p => if p.2 = .staged then (p.1, fate) else p

/-- The first item counts if it has the fate. -/
theorem withFate_cons (fate : Fate) (p : α × Fate) (marked : List (α × Fate)) :
    withFate fate (p :: marked) =
      if p.2 = fate then p.1 :: withFate fate marked else withFate fate marked := by
  unfold withFate
  rw [List.filter_cons]
  by_cases h : p.2 = fate
  · simp [h]
  · simp [h]

/-- Items with a fate can be taken part by part. -/
@[simp] theorem withFate_append (fate : Fate) (marked more : List (α × Fate)) :
    withFate fate (marked ++ more) = withFate fate marked ++ withFate fate more := by
  unfold withFate
  rw [List.filter_append, List.map_append]

/-- Marking items leaves them as they are. -/
@[simp] theorem map_fst_mark (fate : Fate) (items : List α) :
    (mark fate items).map Prod.fst = items := by
  unfold mark
  rw [List.map_map]
  exact List.map_id _

/-- Marked items have that fate and no other. -/
@[simp] theorem withFate_mark (fate marking : Fate) (items : List α) :
    withFate fate (mark marking items) = if marking = fate then items else [] := by
  induction items with
  | nil => exact (ite_self _).symm
  | cons item rest ih =>
    show withFate fate ((item, marking) :: mark marking rest) = _
    rw [withFate_cons, ih]
    split <;> rfl

/-- Marking items anew leaves them as they are. -/
@[simp] theorem map_fst_restage (fate : Fate) (marked : List (α × Fate)) :
    (restage fate marked).map Prod.fst = marked.map Prod.fst := by
  unfold restage
  rw [List.map_map]
  refine List.map_congr_left fun p _ => ?_
  show (if p.2 = .staged then (p.1, fate) else p).1 = p.1
  split <;> rfl

theorem restage_cons (marking : Fate) (p : α × Fate) (marked : List (α × Fate)) :
    restage marking (p :: marked) =
      (if p.2 = .staged then (p.1, marking) else p) :: restage marking marked := rfl

/-- Items with a third fate keep it. -/
theorem withFate_restage {fate marking : Fate} (hmarking : fate ≠ marking)
    (hstaged : fate ≠ .staged) (marked : List (α × Fate)) :
    withFate fate (restage marking marked) = withFate fate marked := by
  induction marked with
  | nil => rfl
  | cons p rest ih =>
    rw [restage_cons, withFate_cons, withFate_cons, ih]
    by_cases hp : p.2 = .staged
    · rw [if_pos hp, if_neg hmarking.symm, if_neg fun h => hstaged (h.symm.trans hp)]
    · rw [if_neg hp]

/-- No item is staged any more. -/
theorem withFate_staged_restage {marking : Fate} (hmarking : marking ≠ .staged)
    (marked : List (α × Fate)) : withFate .staged (restage marking marked) = [] := by
  induction marked with
  | nil => rfl
  | cons p rest ih =>
    rw [restage_cons, withFate_cons, ih]
    by_cases hp : p.2 = .staged
    · rw [if_pos hp, if_neg hmarking]
    · rw [if_neg hp, if_neg hp]

/-- The staged items have the new fate, and they alone if no item had it before. -/
theorem withFate_marking_restage {marking : Fate} {marked : List (α × Fate)}
    (hnew : withFate marking marked = []) :
    withFate marking (restage marking marked) = withFate .staged marked := by
  induction marked with
  | nil => rfl
  | cons p rest ih =>
    rw [withFate_cons] at hnew
    by_cases hp : p.2 = marking
    · rw [if_pos hp] at hnew
      cases hnew
    · rw [if_neg hp] at hnew
      rw [restage_cons, withFate_cons, withFate_cons, ih hnew]
      by_cases hs : p.2 = .staged
      · rw [if_pos hs, if_pos rfl, if_pos hs]
      · rw [if_neg hs, if_neg hp, if_neg hs]

/-! ## Dividing the items -/

/-- How the items that were held at the beginning, and those taken on since, are divided into those
that are settled, those that left the backlog for the batch that is staged now, the one in the hand
of the sink, and those in the backlog. -/
structure Divided (held : List α) (entries : List (Entry α)) (b : Bench α σ)
    (settled recent : List (α × Fate)) : Prop where
  items : (settled ++ recent).map Prod.fst ++ b.1.toList ++ b.2.backlog.items =
    held ++ collect Entry.taken entries
  staged : withFate .staged recent = b.2.staged
  fates : ∀ fate, fate ≠ .staged →
    withFate fate (settled ++ recent) = collect (Entry.settled fate) entries
  settled_staged : withFate .staged settled = []
  recent_delivered : withFate .delivered recent = []
  recent_discarded : withFate .discarded recent = []

namespace Divided

variable {held : List α} {entries : List (Entry α)} {hand : Option α} {c d : Collector α σ}
  {settled recent : List (α × Fate)}

/-- An entry that neither takes an item on nor settles one changes no mark. -/
theorem quiet (h : Divided held entries (hand, c) settled recent) (entry : Entry α)
    (htaken : entry.taken = []) (hsettled : ∀ fate, entry.settled fate = [])
    (hbacklog : d.backlog.items = c.backlog.items) (hstaged : d.staged = c.staged) :
    Divided held (entry :: entries) (hand, d) settled recent where
  items := by
    rw [collect_cons, htaken, List.append_nil, ← h.items, hbacklog]
  staged := h.staged.trans hstaged.symm
  fates fate hfate := by rw [collect_cons, hsettled, List.append_nil, h.fates fate hfate]
  settled_staged := h.settled_staged
  recent_delivered := h.recent_delivered
  recent_discarded := h.recent_discarded

/-- Where nothing is noted, and the batch and the backlog stay, the marks stay. -/
theorem silent (h : Divided held entries (hand, c) settled recent)
    (hbacklog : d.backlog.items = c.backlog.items) (hstaged : d.staged = c.staged) :
    Divided held entries (hand, d) settled recent where
  items := by rw [← h.items, hbacklog]
  staged := h.staged.trans hstaged.symm
  fates := h.fates
  settled_staged := h.settled_staged
  recent_delivered := h.recent_delivered
  recent_discarded := h.recent_discarded

/-- An item that is taken on joins the backlog. -/
theorem accept (h : Divided held entries (hand, c) settled recent) (item : α) :
    Divided held (.accepted item :: entries) (hand, c.accept item) settled recent where
  items := by
    show (settled ++ recent).map Prod.fst ++ hand.toList ++ (c.backlog.items ++ [item]) = _
    rw [collect_cons, ← List.append_assoc, h.items, List.append_assoc]
    rfl
  staged := h.staged
  fates fate hfate := by
    rw [collect_cons, h.fates fate hfate]
    exact (List.append_nil _).symm
  settled_staged := h.settled_staged
  recent_delivered := h.recent_delivered
  recent_discarded := h.recent_discarded

/-- The item in the hand of the sink joins the items that left the backlog, with a mark. -/
theorem judged {item : α} (h : Divided held entries (some item, c) settled recent)
    (fate : Fate) (entry : Entry α) (htaken : entry.taken = [])
    (hsettled : ∀ f, f ≠ .staged → entry.settled f = withFate f (mark fate [item]))
    (hfate : fate ≠ .delivered ∧ fate ≠ .discarded) (hbacklog : d.backlog.items = c.backlog.items)
    (hstaged : d.staged = c.staged ++ withFate .staged (mark fate [item])) :
    Divided held (entry :: entries) (none, d) settled (recent ++ mark fate [item]) where
  items := by
    rw [collect_cons, htaken, List.append_nil, ← h.items, hbacklog, ← List.append_assoc settled,
      List.map_append, map_fst_mark]
    simp
  staged := by rw [withFate_append, h.staged, hstaged]
  fates f hf := by
    rw [collect_cons, ← h.fates f hf, hsettled f hf, ← List.append_assoc, withFate_append]
  settled_staged := h.settled_staged
  recent_delivered := by
    rw [withFate_append, h.recent_delivered, withFate_mark, if_neg hfate.1]
    rfl
  recent_discarded := by
    rw [withFate_append, h.recent_discarded, withFate_mark, if_neg hfate.2]
    rfl

/-- When the staged batch goes, all that left the backlog is settled. -/
theorem settle (h : Divided held entries (hand, c) settled recent) (fate : Fate)
    (entry : Entry α) (htaken : entry.taken = [])
    (hsettled : ∀ f, entry.settled f = if f = fate then c.staged else [])
    (hfate : fate = .delivered ∨ fate = .discarded) (hbacklog : d.backlog.items = c.backlog.items)
    (hstaged : d.staged = []) :
    Divided held (entry :: entries) (hand, d) (settled ++ restage fate recent) [] := by
  have hne : fate ≠ .staged := by rintro rfl; rcases hfate with h | h <;> cases h
  have hnew : withFate fate recent = [] := by
    rcases hfate with rfl | rfl
    · exact h.recent_delivered
    · exact h.recent_discarded
  refine ⟨?_, hstaged.symm, ?_, ?_, rfl, rfl⟩
  · rw [collect_cons, htaken, List.append_nil, List.append_nil, ← h.items, hbacklog,
      List.map_append, map_fst_restage, List.map_append]
  · intro f hf
    rw [collect_cons, ← h.fates f hf, hsettled, List.append_nil, withFate_append, withFate_append]
    by_cases hff : f = fate
    · subst hff
      rw [withFate_marking_restage hnew, if_pos rfl, hnew, h.staged, List.append_nil]
    · rw [withFate_restage hff hf, if_neg hff, List.append_nil]
  · rw [withFate_append, h.settled_staged, withFate_staged_restage hne]
    rfl

/-- When the backlog goes while nothing is staged, all items are settled. -/
theorem clear (h : Divided held entries (none, c) settled recent) (hempty : c.staged = [])
    (hbacklog : d.backlog.items = []) (hstaged : d.staged = c.staged) :
    Divided held (.backlogDropped c.backlog.items :: entries) (none, d)
      (settled ++ recent ++ mark .discarded c.backlog.items) [] where
  items := by
    rw [collect_cons, List.append_nil, List.map_append, map_fst_mark, hbacklog]
    simpa [Entry.taken] using h.items
  staged := by rw [hstaged, hempty]; rfl
  fates f hf := by
    rw [collect_cons, ← h.fates f hf, List.append_nil, withFate_append _ (settled ++ recent),
      withFate_mark]
    simp only [Entry.settled, eq_comm]
  settled_staged := by
    rw [withFate_append, withFate_append, h.settled_staged, h.staged, hempty, withFate_mark]
    rfl
  recent_delivered := rfl
  recent_discarded := rfl

end Divided

/-! ## The ledger -/

/-- The items that were held when the journal was `base`, and those taken on since, can be marked
with their fates. -/
def Ledger (held : List α) (base : List (Entry α)) (b : Bench α σ) : Prop :=
  ∃ entries settled recent, b.2.journal = entries ++ base ∧
    Divided held entries b settled recent

/-- A move keeps the ledger. -/
theorem Ledger.move {held : List α} {base : List (Entry α)} {b b' : Bench α σ}
    (h : Ledger held base b) (hmove : Move b b') : Ledger held base b' := by
  obtain ⟨entries, settled, recent, hjournal, h⟩ := h
  cases hmove with
  | advanced hand c next => exact ⟨_, _, _, hjournal, h.silent rfl rfl⟩
  | accepted hand c item => exact ⟨_, _, _, congrArg _ hjournal, h.accept item⟩
  | refused hand c item =>
    exact ⟨_, _, _, congrArg _ hjournal, h.quiet (.refused item) rfl (fun _ => rfl) rfl rfl⟩
  | closing hand c => exact ⟨_, _, _, hjournal, h.silent rfl rfl⟩
  | picked c item rest hbacklog =>
    refine ⟨_, _, _, hjournal, ?_, h.staged, h.fates, h.settled_staged, h.recent_delivered,
      h.recent_discarded⟩
    have hitems := h.items
    dsimp only at hitems
    rw [hbacklog] at hitems
    rw [← hitems]
    simp
  -- A judgement puts the item that was in the hand behind those that left the backlog before it.
  | kept c item =>
    refine ⟨_, _, _, congrArg _ hjournal, h.judged .staged (.kept item) rfl ?_
      ⟨nofun, nofun⟩ rfl rfl⟩
    intro f hf
    rw [withFate_mark, if_neg hf.symm]
    rfl
  | rejected c item =>
    refine ⟨_, _, _, congrArg _ hjournal, h.judged .rejected (.filtered item) rfl
      ?_ ⟨nofun, nofun⟩ rfl (List.append_nil _).symm⟩
    intro f hf
    rw [withFate_mark]
    simp only [Entry.settled, eq_comm]
  | panicked c now item =>
    refine ⟨_, _, _, congrArg _ hjournal, h.judged .panicked
      (.filterPanicked now item) rfl ?_ ⟨nofun, nofun⟩ rfl (List.append_nil _).symm⟩
    intro f hf
    rw [withFate_mark]
    simp only [Entry.settled, eq_comm]
  -- A delivery settles the staged items, all at once; a failed one settles nothing.
  | delivered c now replies =>
    exact ⟨_, _, _, congrArg _ hjournal, h.settle .delivered
      (.flushed now c.staged replies .ok) rfl (fun _ => rfl) (.inl rfl) rfl rfl⟩
  | undelivered c now replies outcome hstaged hfault =>
    refine ⟨_, _, _, congrArg _ hjournal, h.quiet _ rfl ?_ rfl rfl⟩
    intro f
    cases outcome with
    | ok => exact absurd rfl hfault
    | error => rfl
    | panic => rfl
  | idled c now replies outcome =>
    exact ⟨_, _, _, congrArg _ hjournal, h.quiet _ rfl (fun _ => rfl) rfl rfl⟩

/-- Every step of a collector keeps its ledger. -/
theorem ledger_invariant (held : List α) (base : List (Entry α)) :
    Invariant (σ := σ) (Ledger held base) where
  move := Ledger.move
  cycleBegan now final h := by
    obtain ⟨entries, settled, recent, hjournal, h⟩ := h
    exact ⟨_, _, _, congrArg _ hjournal,
      h.quiet (.cycleBegan now final) rfl (fun _ => rfl) rfl rfl⟩
  recordFailure h _ := by
    obtain ⟨entries, settled, recent, hjournal, h⟩ := h
    exact ⟨_, _, _, congrArg _ hjournal,
      h.quiet .cycleFailed rfl (fun _ => rfl) rfl rfl⟩
  dropBatch h := by
    unfold dropBatch
    split
    next =>
      obtain ⟨entries, settled, recent, hjournal, h⟩ := h
      exact ⟨_, _, _, congrArg _ hjournal,
        h.settle .discarded _ rfl (fun _ => rfl) (.inr rfl) rfl rfl⟩
    next => exact h
  dropBacklog h hstaged := by
    unfold dropBacklog
    split
    next hdrop =>
      obtain ⟨entries, settled, recent, hjournal, h⟩ := h
      exact ⟨_, _, _, congrArg _ hjournal, h.clear (hstaged hdrop) rfl rfl⟩
    next => exact h
  takeStock h := by
    obtain ⟨entries, settled, recent, hjournal, h⟩ := h
    exact ⟨_, _, _, hjournal, h.silent rfl rfl⟩
  outside stage alarm unreachable h := by
    obtain ⟨entries, settled, recent, hjournal, h⟩ := h
    exact ⟨_, _, _, hjournal, h.silent rfl rfl⟩

/-! ## Markings -/

/-- Whether an item with this fate is still held, or has reached the sink. -/
def Fate.isKept : Fate → Bool
  | .queued | .staged | .delivered => true
  | .rejected | .panicked | .discarded => false

/-- A marking of items with their fates: it tells of every fate the same as the collector and the
entries of its journal, and what is delivered, staged and queued follows in this order. -/
structure Marking (c : Collector α σ) (entries : List (Entry α)) (items : List α)
    (marked : List (α × Fate)) : Prop where
  items : marked.map Prod.fst = items
  fates : ∀ fate, withFate fate marked = c.itemsWith entries fate
  order : (marked.filter fun p => p.2.isKept).map Prod.fst =
    c.itemsWith entries .delivered ++ c.staged ++ c.backlog.items

/-- A fate without items is that of none. -/
theorem withFate_eq_nil {fate : Fate} {marked : List (α × Fate)} :
    withFate fate marked = [] ↔ ∀ p ∈ marked, p.2 ≠ fate := by
  unfold withFate
  rw [List.map_eq_nil_iff, List.filter_eq_nil_iff]
  simp only [decide_eq_true_eq, ne_eq]

/-- The items of a marking that are kept are those with one fate, if none has the other two. -/
theorem filter_isKept (fate : Fate) {marked : List (α × Fate)} (hfate : fate.isKept = true)
    (h : ∀ f : Fate, f.isKept = true → f ≠ fate → withFate f marked = []) :
    (marked.filter fun p => p.2.isKept).map Prod.fst = withFate fate marked := by
  unfold withFate
  congr 1
  refine List.filter_congr fun p hp => ?_
  by_cases hpf : p.2 = fate
  · rw [hpf, hfate]; simp
  · rw [decide_eq_false hpf]
    cases hkept : p.2.isKept with
    | true => exact absurd rfl (withFate_eq_nil.1 (h p.2 hkept hpf) p hp)
    | false => rfl

/-- While nothing is in the hand of the sink, the ledger has a marking. -/
theorem Ledger.exists_marking {held : List α} {base : List (Entry α)} {c : Collector α σ}
    (h : Ledger held base (none, c)) :
    ∃ entries marked, c.journal = entries ++ base ∧
      Marking c entries (held ++ collect Entry.taken entries) marked := by
  obtain ⟨entries, settled, recent, hjournal, h⟩ := h
  have hqueued : withFate .queued (settled ++ recent) = [] := by
    rw [h.fates .queued nofun]
    exact collect_eq_nil fun entry _ => entry.settled_queued
  have hstaged : withFate .staged (settled ++ recent) = c.staged := by
    rw [withFate_append, h.settled_staged, h.staged, List.nil_append]
  refine ⟨entries, settled ++ recent ++ mark .queued c.backlog.items, hjournal, ?_, ?_, ?_⟩
  · rw [← h.items, List.map_append, map_fst_mark]
    exact congrArg (· ++ _) (List.append_nil _).symm
  · intro fate
    rw [withFate_append, withFate_mark]
    cases fate with
    | queued => rw [hqueued, if_pos rfl]; rfl
    | staged => rw [hstaged, if_neg nofun, List.append_nil]; rfl
    | delivered => rw [h.fates .delivered nofun, if_neg nofun, List.append_nil]; rfl
    | rejected => rw [h.fates .rejected nofun, if_neg nofun, List.append_nil]; rfl
    | panicked => rw [h.fates .panicked nofun, if_neg nofun, List.append_nil]; rfl
    | discarded => rw [h.fates .discarded nofun, if_neg nofun, List.append_nil]; rfl
  · -- Of what is settled only deliveries are kept, of what left the backlog since only the staged.
    have hdelivered := h.fates .delivered nofun
    rw [withFate_append] at hqueued hdelivered
    rw [h.recent_delivered, List.append_nil] at hdelivered
    obtain ⟨hsettled, hrecent⟩ := List.append_eq_nil_iff.1 hqueued
    rw [List.filter_append, List.filter_append, List.map_append, List.map_append,
      filter_isKept .delivered rfl, filter_isKept .staged rfl,
      filter_isKept .queued rfl, hdelivered, h.staged, withFate_mark, if_pos rfl]
    · rfl
    · intro f _ hf
      rw [withFate_mark, if_neg hf.symm]
    · intro f hkept hf
      cases f with
      | queued => exact hrecent
      | staged => exact absurd rfl hf
      | delivered => exact h.recent_delivered
      | rejected => cases hkept
      | panicked => cases hkept
      | discarded => cases hkept
    · intro f hkept hf
      cases f with
      | queued => exact hsettled
      | staged => exact h.settled_staged
      | delivered => exact absurd rfl hf
      | rejected => cases hkept
      | panicked => cases hkept
      | discarded => cases hkept

/-- After any run from a new collector, the items that were taken on can be marked with their
fates. -/
theorem exists_marking_run {S : Sink α σ} {settings : BatchSettings} {sink : σ} {clock : Clock}
    {s : Session α σ} (h : Session.create settings sink clock = .ok s)
    (requests : List (Request α)) :
    ∃ marked, Marking (s.run S requests).2.collector (s.run S requests).2.collector.journal
      (collect Entry.taken (s.run S requests).2.collector.journal) marked := by
  have hledger : Ledger [] [] (none, s.collector) := by
    obtain ⟨valid, rfl⟩ := Session.eq_of_create h
    exact ⟨[], [], [], rfl, rfl, rfl, fun _ _ => rfl, rfl, rfl, rfl⟩
  obtain ⟨entries, marked, hjournal, hmarking⟩ :=
    ((ledger_invariant [] []).run hledger (S := S) requests).exists_marking
  rw [List.append_nil] at hjournal
  rw [List.nil_append, ← hjournal] at hmarking
  exact ⟨marked, hmarking⟩

end Courier.Collector
