import Courier.Proofs.Mailbox.Reorderings

/-!
# Taking events by their kind

Events of one kind are handed out in the order in which they are available, and events of other
kinds do not stand in their way. So two consumers that take events of different kinds do not get in
each other's way: it does not matter which of them comes first.

> `find?_eraseP`: to take an event of one kind does not change which event of another kind is found.

> `Coherent.take_comm`: takes of two kinds can be exchanged.

> `byKind_run`: what a take does at any instant after any run.
-/

namespace Courier.Mailbox

variable {α : Type}

/-! ## Finding and erasing -/

section Lists

variable {β : Type} {p q : β → Bool} {l : List β}

/-- What `p` finds is not what `q` looks for. -/
theorem find?_eraseP (h : ∀ x, p x = true → q x = false) (l : List β) :
    (l.eraseP p).find? q = l.find? q := by
  induction l with
  | nil => rfl
  | cons x rest ih =>
    cases hp : p x with
    | true => rw [List.eraseP_cons_of_pos hp, List.find?_cons_of_neg (by simp [h x hp])]
    | false =>
      rw [List.eraseP_cons_of_neg (by simp [hp]), List.find?_cons, List.find?_cons, ih]

/-- The first element that is found stands behind others that are not looked for. -/
theorem find?_and_eraseP_append {front : List β} {x : β} (hfront : ∀ y ∈ front, p y = false)
    (hx : p x = true) (back : List β) :
    (front ++ x :: back).find? p = some x ∧ (front ++ x :: back).eraseP p = front ++ back := by
  refine ⟨List.find?_eq_some_iff_append.2 ⟨hx, front, back, rfl, by simpa using hfront⟩, ?_⟩
  rw [List.eraseP_append_right _ (by simpa using hfront), List.eraseP_cons_of_pos hx]

end Lists

/-! ## One take -/

theorem ofKind?_eq_some {e : Event α} {kind : Event.Kind} (h : e.kind = kind) :
    e.ofKind? kind = some ⟨e, h⟩ := dif_pos h

/-- What is found by its kind can be handed out as an event of that kind. -/
theorem take_eq_some {m : Mailbox α} {kind : Event.Kind} {now : Instant} {e : Event α}
    (hkind : e.kind = kind) (hfind : m.available.find? (·.kind = kind) = some e) :
    m.take kind now =
      (some ⟨e, hkind⟩,
        { m with available := m.available.eraseP (·.kind = kind) }.track e now) := by
  unfold take
  rw [hfind]
  dsimp only
  rw [ofKind?_eq_some hkind]

theorem take_eq_none {m : Mailbox α} {kind : Event.Kind} {now : Instant}
    (hfind : m.available.find? (·.kind = kind) = none) : m.take kind now = (none, m) := by
  unfold take
  rw [hfind]

theorem kind_of_find? {l : List (Event α)} {kind : Event.Kind} {e : Event α}
    (h : l.find? (·.kind = kind) = some e) : e.kind = kind := by
  simpa using List.find?_some h

theorem Coherent.nodup_available {m : Mailbox α} (hc : Coherent m) :
    (m.available.map Event.id).Nodup := by
  have hnodup := hc.distinct
  rw [hc.heldIds_eq] at hnodup
  exact hnodup.of_append_left

/-- To put an event in flight leaves the others in flight as they are. -/
theorem Coherent.track_eq {m : Mailbox α} (hc : Coherent m) {e : Event α} (he : e ∈ m.available)
    (available : List (Event α)) (now : Instant) :
    { m with available }.track e now =
      { m with
        available
        inFlight := (e.id, ⟨e, now, now.after m.settings.ackTimeout⟩) :: m.inFlight } := by
  have hkept : m.inFlight.filter (·.1 ≠ e.id) = m.inFlight := by
    refine List.filter_eq_self.2 fun entry hentry => decide_eq_true fun hid => ?_
    exact hc.not_key_of_available he (hid ▸ List.mem_map_of_mem hentry)
  unfold track
  dsimp only
  rw [hkept]

/-- Two records with different keys are put in front of the others in either order. -/
theorem perm_records {a b : Event.Id × InFlight α} (h : a.1 ≠ b.1)
    (records : List (Event.Id × InFlight α)) :
    (b :: (a :: records.filter (·.1 ≠ a.1)).filter (·.1 ≠ b.1)).Perm
      (a :: (b :: records.filter (·.1 ≠ b.1)).filter (·.1 ≠ a.1)) := by
  rw [List.filter_cons_of_pos (by simpa using h), List.filter_cons_of_pos (by simpa using h.symm),
    List.filter_comm]
  exact .swap ..

/-! ## Two takes -/

/-- A take of another kind finds the same events. -/
theorem find?_take {m : Mailbox α} {kind other : Event.Kind} (hne : kind ≠ other) (now : Instant) :
    (m.take kind now).2.available.find? (·.kind = other) =
      m.available.find? (·.kind = other) := by
  cases hfind : m.available.find? (·.kind = kind) with
  | none => rw [take_eq_none hfind]
  | some e =>
    rw [take_eq_some (kind_of_find? hfind) hfind]
    refine find?_eraseP (fun x hx => ?_) m.available
    rw [decide_eq_true_iff] at hx
    rw [hx]
    exact decide_eq_false hne

/-- Takes of two kinds hand out the same events in either order, and what is left is the same. -/
theorem Coherent.take_comm {m : Mailbox α} (hc : Coherent m) {kind other : Event.Kind}
    (hne : kind ≠ other) (now : Instant) :
    ((m.take other now).2.take kind now).1 = (m.take kind now).1 ∧
      ((m.take kind now).2.take other now).1 = (m.take other now).1 ∧
      Reordered ((m.take kind now).2.take other now).2 ((m.take other now).2.take kind now).2 := by
  have hkind := find?_take (m := m) hne.symm now
  have hother := find?_take (m := m) hne now
  cases hfirst : m.available.find? (·.kind = kind) with
  | none =>
    rw [hfirst] at hkind
    rw [take_eq_none hfirst, take_eq_none hkind]
    exact ⟨rfl, rfl, .refl _⟩
  | some e =>
    cases hsecond : m.available.find? (·.kind = other) with
    | none =>
      rw [hsecond] at hother
      rw [take_eq_none hsecond, take_eq_none hother]
      exact ⟨rfl, rfl, .refl _⟩
    | some f =>
      have hekind := kind_of_find? hfirst
      have hfkind := kind_of_find? hsecond
      rw [hfirst] at hkind
      rw [hsecond] at hother
      rw [take_eq_some hekind hkind, take_eq_some hfkind hother, take_eq_some hekind hfirst,
        take_eq_some hfkind hsecond]
      -- Their identifiers differ as well, so the two records do not touch each other.
      have hids : e.id ≠ f.id := by
        intro hid
        have heq := List.inj_on_of_nodup_map hc.nodup_available (List.mem_of_find?_eq_some hfirst)
          (List.mem_of_find?_eq_some hsecond) hid
        exact hne (hekind.symm.trans (heq ▸ hfkind))
      have hkinds : ∀ x ∈ m.available, ¬ decide (x.kind = kind) = true ∨
          ¬ decide (x.kind = other) = true := by
        intro x _
        rw [decide_eq_true_iff, decide_eq_true_iff]
        exact not_and_or.1 fun ⟨hx, hx'⟩ => hne (hx.symm.trans hx')
      unfold track
      dsimp only
      rw [List.eraseP_comm hkinds]
      exact ⟨rfl, rfl, _, (perm_records hids m.inFlight).symm, rfl⟩

/-! ## Whole runs -/

/-- What takes at `now` do to `m`. -/
structure ByKind (m : Mailbox α) (now : Instant) : Prop where
  /-- The first available event of a kind is put in flight, and the others stay in order. -/
  first : ∀ front e back, m.available = front ++ e :: back → (∀ x ∈ front, x.kind ≠ e.kind) →
    m.take e.kind now =
      (some ⟨e, rfl⟩,
        { m with
          available := front ++ back
          inFlight := (e.id, ⟨e, now, now.after m.settings.ackTimeout⟩) :: m.inFlight })
  none_iff : ∀ kind, m.take kind now = (none, m) ↔ ∀ e ∈ m.available, e.kind ≠ kind
  /-- What is found by its kind can be handed out as an event of that kind. -/
  typed : ∀ kind e, m.available.find? (·.kind = kind) = some e → e.ofKind? kind ≠ none
  /-- Takes of two kinds can be exchanged. -/
  apart : ∀ kind other, kind ≠ other →
    let x := m.take kind now
    let y := x.2.take other now
    let y' := m.take other now
    let x' := y'.2.take kind now
    x'.1 = x.1 ∧ y'.1 = y.1 ∧ Reordered y.2 x'.2
  /-- To take any event is to take one of the kind of the oldest. -/
  oldest : ∀ e rest, m.available = e :: rest →
    m.takeAny now = ((m.take e.kind now).1.map (·.1), (m.take e.kind now).2) ∧
      (m.takeAny now).1 = some e

theorem Coherent.byKind {m : Mailbox α} (hc : Coherent m) (now : Instant) : ByKind m now := by
  have hfirst : ∀ front e back, m.available = front ++ e :: back →
      (∀ x ∈ front, x.kind ≠ e.kind) →
      m.take e.kind now = (some ⟨e, rfl⟩, { m with available := front ++ back }.track e now) := by
    intro front e back hsplit hfront
    obtain ⟨hfind, herase⟩ := find?_and_eraseP_append (p := (·.kind = e.kind))
      (fun x hx => decide_eq_false (hfront x hx)) (decide_eq_true rfl) back
    rw [← hsplit] at hfind herase
    rw [take_eq_some rfl hfind, herase]
  refine ⟨?_, ?_, ?_, ?_, ?_⟩
  · intro front e back hsplit hfront
    rw [hfirst front e back hsplit hfront, hc.track_eq]
    rw [hsplit]
    exact List.mem_append_right _ List.mem_cons_self
  · intro kind
    constructor
    · intro htake e he hkind
      cases hfind : m.available.find? (·.kind = kind) with
      | none => exact absurd hkind (by simpa using List.find?_eq_none.1 hfind e he)
      | some f =>
        rw [take_eq_some (kind_of_find? hfind) hfind] at htake
        cases congrArg Prod.fst htake
    · exact fun h => take_eq_none (List.find?_eq_none.2 (by simpa using h))
  · intro kind e hfind
    rw [ofKind?_eq_some (kind_of_find? hfind)]
    exact Option.some_ne_none _
  · intro kind other hne
    obtain ⟨hx, hy, hstate⟩ := hc.take_comm hne now
    exact ⟨hx, hy.symm, hstate⟩
  · intro e rest havailable
    have htake := hfirst [] e rest havailable (List.forall_mem_nil _)
    unfold takeAny
    rw [havailable, htake]
    exact ⟨rfl, rfl⟩

/-- What takes do at any instant after any run of a new mailbox. -/
theorem byKind_run {settings : QueueSettings} {clock : Clock} {s : Session α}
    (h : Session.create settings clock = .ok s) (requests : List (Request α)) (now : Instant) :
    ByKind (s.run requests).2.mailbox now := by
  exact (coherent_run (coherent_of_create h) requests).byKind now

/-- With events of two kinds available, one consumer takes a refund and another one an order. -/
theorem byKind_run_mixed :
    ∃ s : Session Nat, Session.create plain ⟨⟨0⟩, 0⟩ = .ok s ∧
      let m := (s.run [.post (.ofNat 8) ⟨"Order"⟩ 1 none, .post (.ofNat 7) ⟨"Order"⟩ 2 none,
        .post (.ofNat 3) ⟨"Refund"⟩ 3 none]).2.mailbox
      (m.take ⟨"Refund"⟩ ⟨5⟩).2.available.map (fun e => e.id.bits.toNat) = [8, 7] ∧
        ((m.take ⟨"Refund"⟩ ⟨5⟩).2.take ⟨"Order"⟩ ⟨5⟩).1.map (fun e => e.1.id.bits.toNat) =
          some 8 ∧
        ByKind m ⟨5⟩ :=
  ⟨_, rfl, by cbv, by cbv, @byKind_run Nat plain ⟨⟨0⟩, 0⟩ _ rfl _ _⟩

end Courier.Mailbox
