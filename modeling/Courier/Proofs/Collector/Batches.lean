import Courier.Proofs.Collector.Runs

/-!
# Batches

What is staged is what the sink has wanted last, and never too much for one batch. It goes to the
sink as a whole, so the same holds of every batch.

> `batched_invariant`: every step of a collector keeps its batches proper.
-/

namespace Courier.Collector

variable {α σ : Type}

/-- A batch that goes to the sink has at least one item and at most `limit`, and they are the items
that the sink has wanted last. -/
def Entry.ProperBatch (limit : Nat) : Entry α → List (Entry α) → Prop
  | .flushed _ batch _ _, earlier =>
    batch ≠ [] ∧ batch.length ≤ limit ∧ batch <:+ collect Entry.wanted earlier
  | _, _ => True

/-- The staged batch holds the items that the sink has wanted last, and so did every batch when it
went to the sink. -/
structure Batched (settings : BatchSettings) (b : Bench α σ) : Prop where
  fixed : b.2.settings = settings
  size : b.2.staged.length ≤ settings.batchSizeLimit.toNat
  wanted : b.2.staged <:+ collect Entry.wanted b.2.journal
  batches : Throughout (Entry.ProperBatch settings.batchSizeLimit.toNat) b.2.journal

/-- The entry of a batch that goes to the sink is proper. -/
theorem Batched.properBatch {settings : BatchSettings} {hand : Option α} {c : Collector α σ}
    (h : Batched settings (hand, c)) (hstaged : c.staged ≠ []) (now : Instant)
    (replies : List Reply) (outcome : Sink.Outcome) :
    (Entry.flushed now c.staged replies outcome).ProperBatch settings.batchSizeLimit.toNat
      c.journal :=
  ⟨hstaged, h.size, h.wanted⟩

/-- An entry that brings no wanted item leaves the staged batch as it was. -/
theorem Batched.note {settings : BatchSettings} {hand hand' : Option α} {c d : Collector α σ}
    {entry : Entry α} (h : Batched settings (hand, c)) (hjournal : d.journal = entry :: c.journal)
    (hsettings : d.settings = c.settings) (hstaged : d.staged = c.staged ∨ d.staged = [])
    (hwanted : entry.wanted = [])
    (hentry : entry.ProperBatch settings.batchSizeLimit.toNat c.journal) :
    Batched settings (hand', d) := by
  refine ⟨hsettings.trans h.fixed, ?_, ?_, ?_⟩
  · rcases hstaged with hs | hs
    · show d.staged.length ≤ _
      rw [hs]
      exact h.size
    · show d.staged.length ≤ _
      rw [hs]
      exact Nat.zero_le _
  · show d.staged <:+ collect Entry.wanted d.journal
    rw [hjournal, collect_cons, hwanted, List.append_nil]
    rcases hstaged with hs | hs
    · rw [hs]
      exact h.wanted
    · rw [hs]
      exact List.nil_suffix
  · show Throughout _ d.journal
    rw [hjournal]
    exact h.batches.cons hentry

/-- Every step of a collector keeps its batches proper. -/
theorem batched_invariant (settings : BatchSettings) : Invariant (α := α) (σ := σ)
    (Batched settings) where
  move h hmove := by
    cases hmove with
    | advanced => exact ⟨h.fixed, h.size, h.wanted, h.batches⟩
    | accepted hand c item => exact h.note rfl rfl (.inl rfl) rfl trivial
    | refused hand c item => exact h.note rfl rfl (.inl rfl) rfl trivial
    | closing => exact ⟨h.fixed, h.size, h.wanted, h.batches⟩
    | picked => exact ⟨h.fixed, h.size, h.wanted, h.batches⟩
    | kept c item room =>
      -- There was room for the item, and it is the one that the sink has wanted last.
      refine ⟨h.fixed, ?_, ?_, h.batches.cons trivial⟩
      · show (c.staged ++ [item]).length ≤ _
        rw [batchSize, h.fixed] at room
        rw [List.length_append]
        exact room
      · show c.staged ++ [item] <:+ collect Entry.wanted (.kept item :: c.journal)
        rw [collect_cons]
        obtain ⟨front, hfront⟩ := h.wanted
        exact ⟨front, by rw [← hfront, List.append_assoc]; rfl⟩
    | rejected c item => exact h.note rfl rfl (.inl rfl) rfl trivial
    | panicked c now item => exact h.note rfl rfl (.inl rfl) rfl trivial
    | delivered c now replies staged =>
      exact h.note rfl rfl (.inr rfl) rfl (h.properBatch staged now replies .ok)
    | undelivered c now replies outcome staged fault =>
      exact h.note rfl rfl (.inl rfl) rfl (h.properBatch staged now replies outcome)
    | idled c now replies outcome => exact h.note rfl rfl (.inl rfl) rfl trivial
  cycleBegan now final h := h.note rfl rfl (.inl rfl) rfl trivial
  recordFailure h _ := h.note rfl rfl (.inl rfl) rfl trivial
  dropBatch h := by
    unfold dropBatch
    split
    next => exact h.note rfl rfl (.inr rfl) rfl trivial
    next => exact h
  dropBacklog h _ := by
    unfold dropBacklog
    split
    next => exact h.note rfl rfl (.inl rfl) rfl trivial
    next => exact h
  takeStock h := ⟨h.fixed, h.size, h.wanted, h.batches⟩
  outside _ _ _ h := ⟨h.fixed, h.size, h.wanted, h.batches⟩

/-- A new collector has no batch yet. -/
theorem batched_of_create {settings : BatchSettings} {sink : σ} {clock : Clock} {s : Session α σ}
    (h : Session.create settings sink clock = .ok s) : Batched settings (none, s.collector) := by
  obtain ⟨valid, rfl⟩ := Session.eq_of_create h
  exact ⟨rfl, Nat.zero_le _, List.nil_suffix, throughout_nil _⟩

end Courier.Collector
