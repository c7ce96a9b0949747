import Courier.Collector.Session

/-!
# What a journal tells

The journal of a collector has its latest entry first. This module reads off it which items were
taken on, what became of them, which of them the sink wanted, how long the streak of failures is,
and whether the sink has ever been at fault.

An item that has been taken on has one `Fate` at any time. Where it waits, in the backlog or in the
staged batch, is seen from the collector; where it has gone is seen from the journal.
-/

namespace Courier.Collector

variable {α σ : Type}

/-- What has become of an item that was taken on. -/
inductive Fate where
  /-- It waits in the backlog. -/
  | queued
  /-- It waits in the staged batch. -/
  | staged
  /-- The sink has taken it with a batch. -/
  | delivered
  /-- The sink has judged it and does not want it. -/
  | rejected
  /-- The sink has panicked while it judged it. -/
  | panicked
  /-- It was given up after failures. -/
  | discarded
deriving DecidableEq

namespace Entry

/-- The items that an entry takes on. -/
def taken : Entry α → List α
  | .accepted item => [item]
  | _ => []

/-- The items that the sink judges and wants. -/
def wanted : Entry α → List α
  | .kept item => [item]
  | _ => []

/-- The items for which an entry is the last word, by their fate. -/
def settled (fate : Fate) : Entry α → List α
  | .flushed _ batch _ .ok => if fate = .delivered then batch else []
  | .filtered item => if fate = .rejected then [item] else []
  | .filterPanicked _ item => if fate = .panicked then [item] else []
  | .batchDropped items => if fate = .discarded then items else []
  | .backlogDropped items => if fate = .discarded then items else []
  | _ => []

/-- No entry settles an item as queued. -/
theorem settled_queued (entry : Entry α) : entry.settled .queued = [] := by
  cases entry with
  | flushed instant batch replies outcome => cases outcome <;> rfl
  | _ => rfl

/-- Whether the sink has failed to take a batch, or has panicked. -/
def isFault : Entry α → Bool
  | .flushed _ _ _ .ok => false
  | .flushed _ _ _ _ => true
  | .filterPanicked _ _ => true
  | .idled _ _ outcome => outcome = .panic
  | _ => false

/-- Whether the sink has taken a batch. -/
def isDelivery : Entry α → Bool
  | .flushed _ _ _ .ok => true
  | _ => false

/-- Whether a cycle has failed. -/
def isFailure : Entry α → Bool
  | .cycleFailed => true
  | _ => false

end Entry

/-- What the entries of a journal bring, earliest first. -/
def collect (bring : Entry α → List α) (journal : List (Entry α)) : List α :=
  journal.reverse.flatMap bring

/-- What the latest entry brings comes last. -/
@[simp] theorem collect_cons (bring : Entry α → List α) (entry : Entry α)
    (journal : List (Entry α)) :
    collect bring (entry :: journal) = collect bring journal ++ bring entry := by
  simp [collect]

/-- What entries bring can be collected part by part. -/
theorem collect_append (bring : Entry α → List α) (later earlier : List (Entry α)) :
    collect bring (later ++ earlier) = collect bring earlier ++ collect bring later := by
  simp [collect]

/-- Entries that bring nothing bring nothing together. -/
theorem collect_eq_nil {bring : Entry α → List α} {journal : List (Entry α)}
    (h : ∀ entry ∈ journal, bring entry = []) : collect bring journal = [] := by
  unfold collect
  rw [List.flatMap_eq_nil_iff]
  intro entry hentry
  exact h entry (List.mem_reverse.1 hentry)

/-- A statement about an entry and the entries before it holds at every place of a journal. -/
def Throughout (Q : Entry α → List (Entry α) → Prop) (journal : List (Entry α)) : Prop :=
  ∀ entry earlier, entry :: earlier <:+ journal → Q entry earlier

theorem throughout_nil (Q : Entry α → List (Entry α) → Prop) : Throughout Q [] := by
  intro entry earlier h
  cases List.suffix_nil.1 h

/-- What holds throughout a journal held before its latest entry. -/
theorem Throughout.tail {Q : Entry α → List (Entry α) → Prop} {entry : Entry α}
    {journal : List (Entry α)} (h : Throughout Q (entry :: journal)) : Throughout Q journal :=
  fun e earlier hsuffix => h e earlier (hsuffix.trans (List.suffix_cons ..))

/-- It holds with one entry more if it holds of that. -/
theorem Throughout.cons {Q : Entry α → List (Entry α) → Prop} {entry : Entry α}
    {journal : List (Entry α)} (h : Throughout Q journal) (hentry : Q entry journal) :
    Throughout Q (entry :: journal) := by
  intro e earlier hsuffix
  rcases List.suffix_cons_iff.1 hsuffix with heq | hsuffix
  · cases heq
    exact hentry
  · exact h e earlier hsuffix

/-- The items that a collector with these journal entries has with a fate, in the order in which
they met it. -/
def itemsWith (c : Collector α σ) (entries : List (Entry α)) : Fate → List α
  | .queued => c.backlog.items
  | .staged => c.staged
  | fate => collect (Entry.settled fate) entries

/-- The failures since the last delivery, if there were `failures` before the entries. -/
def failuresAfter (failures : UInt32) : List (Entry α) → UInt32
  | [] => failures
  | .flushed _ _ _ .ok :: _ => 0
  | .cycleFailed :: earlier =>
    let before := failuresAfter failures earlier
    if before.toNat + 1 < UInt32.size then before + 1 else before
  | _ :: earlier => failuresAfter failures earlier

/-- Entries that are neither deliveries nor failures leave the streak of failures as it is. -/
theorem failuresAfter_cons {failures : UInt32} {entry : Entry α} {earlier : List (Entry α)}
    (hd : entry.isDelivery = false) (hf : entry.isFailure = false) :
    failuresAfter failures (entry :: earlier) = failuresAfter failures earlier := by
  cases entry with
  | flushed instant batch replies outcome =>
    cases outcome with
    | ok => cases hd
    | error => rfl
    | panic => rfl
  | cycleFailed => cases hf
  | _ => rfl

/-- A collector keeps count of the streak of failures. -/
theorem failuresAfter_failed (c : Collector α σ) (failures : UInt32)
    (entries : List (Entry α)) (h : c.failures = failuresAfter failures entries) :
    c.recordFailure.failures = failuresAfter failures (.cycleFailed :: entries) := by
  rw [failuresAfter, ← h]
  rfl

/-- An entry that is no delivery does not shorten the streak. -/
theorem failuresAfter_le_cons {failures : UInt32} {entry : Entry α} {earlier : List (Entry α)}
    (hd : entry.isDelivery = false) :
    failuresAfter failures earlier ≤ failuresAfter failures (entry :: earlier) := by
  cases hf : entry.isFailure with
  | false => rw [failuresAfter_cons hd hf]; exact UInt32.le_refl _
  | true =>
    unfold Entry.isFailure at hf
    split at hf
    next =>
      show failuresAfter failures earlier ≤
        if (failuresAfter failures earlier).toNat + 1 < UInt32.size
        then failuresAfter failures earlier + 1 else failuresAfter failures earlier
      generalize failuresAfter failures earlier = before
      split
      next hroom =>
        have hnext : (before + 1).toNat = before.toNat + 1 := by
          rw [UInt32.toNat_add]
          exact Nat.mod_eq_of_lt hroom
        rw [UInt32.le_iff_toNat_le, hnext]
        exact Nat.le_add_right _ _
      next => exact UInt32.le_refl _
    next => cases hf

/-- Without a delivery the streak of failures does not shrink. -/
theorem failuresAfter_le_append {failures : UInt32} {later earlier : List (Entry α)}
    (h : ∀ entry ∈ later, entry.isDelivery = false) :
    failuresAfter failures earlier ≤ failuresAfter failures (later ++ earlier) := by
  induction later with
  | nil => exact UInt32.le_refl _
  | cons entry later ih =>
    have hlater := ih fun e he => h e (List.mem_cons_of_mem _ he)
    exact UInt32.le_trans hlater (failuresAfter_le_cons (h entry List.mem_cons_self))

/-- The streak after later entries goes on from that after earlier ones. -/
theorem failuresAfter_append (failures : UInt32) (later earlier : List (Entry α)) :
    failuresAfter failures (later ++ earlier) =
      failuresAfter (failuresAfter failures earlier) later := by
  induction later with
  | nil => rfl
  | cons entry later ih =>
    rw [List.cons_append]
    cases entry with
    | flushed instant batch replies outcome =>
      cases outcome with
      | ok => rfl
      | error => exact ih
      | panic => exact ih
    | cycleFailed => rw [failuresAfter, failuresAfter, ih]
    | _ => exact ih

/-- Without a failure among the entries the streak does not grow, and with a delivery among them
it is over. -/
theorem failuresAfter_of_no_failure {failures : UInt32} {entries : List (Entry α)}
    (h : ∀ entry ∈ entries, entry.isFailure = false) :
    failuresAfter failures entries =
      if entries.any Entry.isDelivery then 0 else failures := by
  induction entries with
  | nil => rfl
  | cons entry earlier ih =>
    have hearlier := ih fun e he => h e (List.mem_cons_of_mem _ he)
    have hentry := h entry (List.mem_cons_self ..)
    cases hd : entry.isDelivery with
    | true =>
      rw [List.any_cons, hd, Bool.true_or, if_pos rfl]
      unfold Entry.isDelivery at hd
      split at hd
      · rfl
      · cases hd
    | false => rw [failuresAfter_cons hd hentry, hearlier, List.any_cons, hd, Bool.false_or]

end Courier.Collector
