import Courier.Backlog
import Mathlib.Data.List.Basic

/-!
# Backlogs at work

A backlog answers requests one after the other. Whatever they are, the items leave it in the order
in which they were taken on, and none is lost on the way: an item is refused when it is offered, or
it leaves, or it is still there.

> `clear_eq_drain`: to clear a backlog is to take its oldest item out until there is none.

> `Sound.serve`: what one request keeps.

> `faithful_run`: how a backlog stands after any requests.
-/

namespace Courier.Backlog

variable {α : Type}

/-! ## Requests -/

/-- A request to a backlog. -/
inductive Request (α : Type) where
  | offer (item : α)
  | pop
  | clear

/-- The answer to a request. -/
inductive Answer (α : Type) where
  | offered (taken : Bool)
  | popped (item : Option α)
  | cleared (count : Nat)

/-- Answers a request. -/
def serve (b : Backlog α) : Request α → Answer α × Backlog α
  | .offer item => (.offered (b.offer item).1, (b.offer item).2)
  | .pop =>
    match b.pop? with
    | none => (.popped none, b)
    | some (item, rest) => (.popped (some item), rest)
  | .clear => (.cleared b.clear.1, b.clear.2)

/-- Takes the oldest item out until there is none: the items in the order in which they leave, and
the backlog without them. -/
def drain (b : Backlog α) : List α × Backlog α :=
  match _h : b.pop? with
  | none => ([], b)
  | some (item, rest) => (item :: rest.drain.1, rest.drain.2)
termination_by b.size
decreasing_by all_goals rw [size_pop? _h]; exact Nat.lt_succ_self _

/-- All items leave in their order. -/
theorem drain_eq (b : Backlog α) : b.drain = (b.items, { b with items := [] }) := by
  fun_induction drain b with
  | case1 b hpop =>
    unfold pop? at hpop
    split at hpop
    next hitems => rw [← hitems]
    next => cases hpop
  | case2 b item rest hpop ih =>
    unfold pop? at hpop
    split at hpop
    next => cases hpop
    next hitems =>
      cases hpop
      rw [ih, hitems]

/-- A backlog that is cleared counts the items that would leave it one by one. -/
theorem clear_eq_drain (b : Backlog α) : b.clear = (b.drain.1.length, b.drain.2) := by
  rw [drain_eq]
  rfl

/-! ## Histories -/

/-- A request, its answer, and the items that left meanwhile, in their order. -/
structure Exchange (α : Type) where
  request : Request α
  answer : Answer α
  removed : List α

namespace Exchange

/-- The item that is taken on. -/
def accepted (x : Exchange α) : List α :=
  match x.request, x.answer with
  | .offer item, .offered true => [item]
  | _, _ => []

/-- Whether an item is refused. -/
def isRefusal (x : Exchange α) : Bool :=
  match x.request, x.answer with
  | .offer _, .offered false => true
  | _, _ => false

/-- What the answer says of the items that left is true. -/
def Truthful (x : Exchange α) : Prop :=
  match x.answer with
  | .offered _ => x.removed = []
  | .popped item => x.removed = item.toList
  | .cleared count => x.removed.length = count

end Exchange

/-- The items that a request takes out, in the order in which they leave. -/
def removedBy (b : Backlog α) : Request α → List α
  | .offer _ => []
  | .pop => (b.pop?.map Prod.fst).toList
  | .clear => b.drain.1

/-- A request as it is answered. -/
def exchange (b : Backlog α) (request : Request α) : Exchange α :=
  ⟨request, (b.serve request).1, b.removedBy request⟩

/-- Every answer tells the truth about what has left. -/
theorem truthful_exchange (b : Backlog α) (request : Request α) :
    (b.exchange request).Truthful := by
  cases request with
  | offer item => rfl
  | pop =>
    unfold exchange removedBy serve
    cases b.pop? with
    | none => rfl
    | some out => rfl
  | clear =>
    show b.drain.1.length = b.clear.1
    rw [clear_eq_drain]

/-- Answers requests one after the other. -/
def run (b : Backlog α) : List (Request α) → List (Exchange α) × Backlog α
  | [] => ([], b)
  | request :: rest =>
    (b.exchange request :: ((b.serve request).2.run rest).1, ((b.serve request).2.run rest).2)

/-- So do the answers of a run. -/
theorem truthful_run (b : Backlog α) (requests : List (Request α)) :
    ∀ x ∈ (b.run requests).1, x.Truthful := by
  induction requests generalizing b with
  | nil => exact List.forall_mem_nil _
  | cons request rest ih => exact List.forall_mem_cons.2 ⟨truthful_exchange b request, ih _⟩

/-! ## What a request keeps -/

/-- A backlog that agrees with its history. -/
structure Sound (limit : Option Nat) (past : List (Exchange α)) (b : Backlog α) : Prop where
  limit_eq : b.limit = limit
  order : past.flatMap (·.removed) ++ b.items = past.flatMap Exchange.accepted
  bounded : ∀ n, limit = some n → b.size ≤ n
  refused : b.refused = past.countP Exchange.isRefusal

section Sound

variable {limit : Option Nat} {past : List (Exchange α)} {b : Backlog α}

/-- A backlog within its limit is full when it has as many items as the limit says. -/
theorem Sound.isFull_iff (h : Sound limit past b) : b.isFull = true ↔ limit = some b.size := by
  unfold isFull
  rw [h.limit_eq]
  cases hlimit : limit with
  | none => simp
  | some n =>
    have hle := h.bounded n hlimit
    simp only [decide_eq_true_eq, Option.some.injEq]
    omega

theorem offer_of_full (item : α) (h : b.isFull = true) :
    b.offer item = (false, { b with refused := b.refused + 1 }) := by
  unfold offer
  rw [if_pos h]

theorem offer_of_room (item : α) (h : b.isFull = false) :
    b.offer item = (true, { b with items := b.items ++ [item] }) := by
  unfold offer
  rw [if_neg (by rw [h]; exact Bool.false_ne_true)]

/-- An offer keeps a backlog in agreement with its history. -/
theorem Sound.offer (h : Sound limit past b) (item : α) :
    Sound limit (past ++ [b.exchange (.offer item)]) (b.serve (.offer item)).2 := by
  have hexchange : b.exchange (.offer item) = ⟨.offer item, .offered (b.offer item).1, []⟩ := rfl
  have hserve : (b.serve (.offer item)).2 = (b.offer item).2 := rfl
  rw [hexchange, hserve]
  cases hfull : b.isFull with
  | true =>
    rw [offer_of_full item hfull]
    refine ⟨h.limit_eq, ?_, h.bounded, ?_⟩
    · simpa [Exchange.accepted] using h.order
    · simpa [Exchange.isRefusal] using h.refused
  | false =>
    rw [offer_of_room item hfull]
    refine ⟨h.limit_eq, ?_, ?_, ?_⟩
    · simpa [Exchange.accepted, ← List.append_assoc] using h.order
    · intro n hn
      -- There was room for one more item.
      have hle := h.bounded n hn
      have hne : b.size ≠ n := by
        rintro rfl
        rw [h.isFull_iff.2 hn] at hfull
        cases hfull
      unfold size at hle hne ⊢
      rw [List.length_append, List.length_singleton]
      omega
    · simpa [Exchange.isRefusal] using h.refused

theorem Sound.pop (h : Sound limit past b) :
    Sound limit (past ++ [b.exchange .pop]) (b.serve .pop).2 := by
  have hsize : ∀ n, limit = some n → b.items.length ≤ n := h.bounded
  have horder := h.order
  unfold exchange removedBy serve pop?
  cases hitems : b.items with
  | nil =>
    refine ⟨h.limit_eq, ?_, h.bounded, ?_⟩
    · simpa [Exchange.accepted, hitems] using horder
    · simpa [Exchange.isRefusal] using h.refused
  | cons item rest =>
    rw [hitems] at hsize horder
    refine ⟨h.limit_eq, ?_, ?_, ?_⟩
    · simpa [Exchange.accepted] using horder
    · exact fun n hn => Nat.le_of_succ_le (hsize n hn)
    · simpa [Exchange.isRefusal] using h.refused

theorem Sound.clear (h : Sound limit past b) :
    Sound limit (past ++ [b.exchange .clear]) (b.serve .clear).2 := by
  refine ⟨h.limit_eq, ?_, fun n _ => Nat.zero_le n, ?_⟩
  · simpa [exchange, removedBy, serve, Backlog.clear, drain_eq, Exchange.accepted] using h.order
  · simpa [exchange, serve, Backlog.clear, Exchange.isRefusal] using h.refused

/-- Every request keeps a backlog in agreement with its history. -/
theorem Sound.serve (h : Sound limit past b) (request : Request α) :
    Sound limit (past ++ [b.exchange request]) (b.serve request).2 := by
  cases request with
  | offer item => exact h.offer item
  | pop => exact h.pop
  | clear => exact h.clear

/-- So does a run. -/
theorem Sound.run (h : Sound limit past b) (requests : List (Request α)) :
    Sound limit (past ++ (b.run requests).1) (b.run requests).2 := by
  induction requests generalizing past b with
  | nil =>
    rw [Backlog.run, List.append_nil]
    exact h
  | cons request rest ih =>
    have hrest := ih (h.serve request)
    rw [List.append_assoc] at hrest
    exact hrest

end Sound

/-- A new backlog can be had for every limit but zero. -/
theorem sound_new {limit : Option Nat} (h : limit ≠ some 0) :
    ∃ b : Backlog α, ofLimit? limit = .ok b ∧ Sound limit [] b ∧ b.items = [] := by
  cases limit with
  | none => exact ⟨unbounded, rfl, ⟨rfl, rfl, nofun, rfl⟩, rfl⟩
  | some n =>
    have hpos : n ≠ 0 := fun hn => h (congrArg some hn)
    refine ⟨{ limit := some n }, if_neg hpos, ⟨rfl, rfl, fun _ _ => Nat.zero_le _, rfl⟩, rfl⟩

/-! ## Room -/

/-- As many items as there is room for are all taken on. -/
theorem accepted_run_offers {b : Backlog α} (items : List α)
    (h : ∀ n, b.limit = some n → b.size + items.length ≤ n) :
    (b.run (items.map .offer)).1.flatMap Exchange.accepted = items := by
  induction items generalizing b with
  | nil => rfl
  | cons item rest ih =>
    have hroom : b.isFull = false := by
      unfold isFull
      cases hlimit : b.limit with
      | none => rfl
      | some n =>
        have hle := h n hlimit
        rw [List.length_cons] at hle
        simp only [decide_eq_false_iff_not]
        omega
    have hoffer := offer_of_room item hroom
    have hrest := ih (b := { b with items := b.items ++ [item] }) fun n hn => by
      have hle := h n hn
      simp only [size, List.length_append, List.length_cons, List.length_nil] at hle ⊢
      omega
    simp only [List.map_cons, run, exchange, serve, hoffer, List.flatMap_cons, hrest]
    rfl

/-! ## Whole runs -/

/-- How a backlog with a limit stands after a history. -/
structure Faithful (limit : Option Nat) (history : List (Exchange α)) (b : Backlog α) :
    Prop where
  /-- The items that have left, in the order in which they left, and then those that are there, are
  the items taken on in their order. -/
  order : history.flatMap (·.removed) ++ b.items = history.flatMap Exchange.accepted
  /-- What left in an exchange is what its answer says. -/
  truthful : ∀ x ∈ history, x.Truthful
  bounded : ∀ n, limit = some n → b.size ≤ n
  refused : b.refused = history.countP Exchange.isRefusal
  /-- An item is refused exactly if the backlog has as many items as its limit says, and then it is
  only counted. -/
  offer : ∀ item, ((b.offer item).1 = false ↔ limit = some b.size) ∧
    ((b.offer item).1 = false → (b.offer item).2 = { b with refused := b.refused + 1 })
  clear : b.clear.1 = b.size
  /-- After it is cleared, the backlog has room for as many items as its limit says. -/
  room : ∀ items : List α, (∀ n, limit = some n → items.length ≤ n) →
    (b.clear.2.run (items.map .offer)).1.flatMap Exchange.accepted = items

/-- Whatever is asked of a backlog, items leave it as they came, within its limit. -/
theorem faithful_run {limit : Option Nat} (h : limit ≠ some 0) (requests : List (Request α)) :
    ∃ b : Backlog α, ofLimit? limit = .ok b ∧
      Faithful limit (b.run requests).1 (b.run requests).2 := by
  obtain ⟨b, hb, hnew, -⟩ := sound_new (α := α) h
  refine ⟨b, hb, ?_⟩
  have hsound := hnew.run requests
  rw [List.nil_append] at hsound
  have htruthful := b.truthful_run requests
  generalize (b.run requests).1 = history at hsound htruthful ⊢
  generalize (b.run requests).2 = d at hsound ⊢
  refine ⟨hsound.order, htruthful, hsound.bounded, hsound.refused, fun item => ?_, rfl, ?_⟩
  · rw [← hsound.isFull_iff]
    cases hfull : d.isFull with
    | true => simp [offer_of_full item hfull]
    | false => simp [offer_of_room item hfull]
  · intro items hfit
    refine accepted_run_offers items fun n hn => ?_
    have hle := hfit n (hsound.limit_eq.symm.trans hn)
    simpa [Backlog.clear, size] using hle

/-- A backlog for two items refuses a third one, and has room for two again after it is cleared. -/
theorem faithful_run_pair :
    some 2 ≠ some 0 ∧ ∃ b : Backlog Nat, ofLimit? (some 2) = .ok b ∧
      let r := b.run [.offer 1, .offer 2, .offer 3, .pop, .offer 4, .clear, .offer 5, .offer 6]
      (r.1.flatMap (·.removed), r.2.items, r.2.refused) = ([1, 2, 4], [5, 6], 1) ∧
        Faithful (some 2) r.1 r.2 := by
  refine ⟨by decide, ?_⟩
  have hlimit : some 2 ≠ some 0 := by decide
  obtain ⟨b, hb, h⟩ := faithful_run (α := Nat) hlimit
    [.offer 1, .offer 2, .offer 3, .pop, .offer 4, .clear, .offer 5, .offer 6]
  cases hb
  exact ⟨_, rfl, by simp [run, exchange, serve, removedBy, drain_eq, offer, pop?, clear, isFull,
    size], h⟩

end Courier.Backlog
