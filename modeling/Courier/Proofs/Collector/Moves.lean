import Courier.Proofs.Collector.Journal
import Courier.Proofs.Runs
import Mathlib.Logic.Relation

/-!
# The moves of a collector

The calls of a cycle are made of small moves: an item leaves the backlog into the hand of the sink,
is staged or not, and the staged batch goes out. The commands of the sink come in between, while an
item may be in its hand. `Move` lists all of them with what is known when they happen.

> `moves_work`: the calls of a cycle are a chain of moves that begins and ends with empty hands.

> `Invariant.cycle`: what the moves keep, and the few steps that surround the calls, holds after
> every cycle.

So an invariant of collectors is proved once for each kind of move, whatever the sink does.
-/

namespace Courier.Collector

variable {α σ : Type}

/-! ## Moves -/

/-- The item that the sink is judging, if there is one, and the collector. -/
abbrev Bench (α σ : Type) := Option α × Collector α σ

/-- The collector once an item has been taken on. -/
def accept (c : Collector α σ) (item : α) : Collector α σ :=
  { c with
    backlog := { c.backlog with items := c.backlog.items ++ [item] }
    tally := { c.tally with emitted := c.tally.emitted + 1 } }.note (.accepted item)

/-- The collector once an item has been refused. -/
def refuse (c : Collector α σ) (item : α) : Collector α σ :=
  { c with backlog := { c.backlog with refused := c.backlog.refused + 1 } }.note (.refused item)

/-- The collector once an item has been staged. -/
def stageItem (c : Collector α σ) (item : α) : Collector α σ :=
  { c with staged := c.staged ++ [item] }.note (.kept item)

/-- The collector once an item has been judged and is not wanted. -/
def rejectItem (c : Collector α σ) (item : α) : Collector α σ :=
  { c with tally := { c.tally with filtered := c.tally.filtered + 1 } }.note (.filtered item)

/-- One small step within the calls of a cycle. -/
inductive Move : Bench α σ → Bench α σ → Prop where
  /-- The sink has a new state. -/
  | advanced (hand : Option α) (c : Collector α σ) (next : σ) :
      Move (hand, c) (hand, { c with sink := next })
  /-- The sink emits an item, and there is room. -/
  | accepted (hand : Option α) (c : Collector α σ) (item : α)
      (unended : c.stage = .fresh ∨ c.stage = .active) (room : c.backlog.isFull = false) :
      Move (hand, c) (hand, c.accept item)
  /-- The sink emits an item, and there is no room. -/
  | refused (hand : Option α) (c : Collector α σ) (item : α)
      (unended : c.stage = .fresh ∨ c.stage = .active) (full : c.backlog.isFull = true) :
      Move (hand, c) (hand, c.refuse item)
  /-- The sink disposes the collector. -/
  | closing (hand : Option α) (c : Collector α σ)
      (unended : c.stage = .fresh ∨ c.stage = .active) :
      Move (hand, c) (hand, { c with stage := .closing, alarm := c.alarm.dispose })
  /-- The oldest item of the backlog goes to the sink. -/
  | picked (c : Collector α σ) (item : α) (rest : List α) (backlog : c.backlog.items = item :: rest)
      (room : c.staged.length < c.batchSize) :
      Move (none, c) (some item, { c with backlog := { c.backlog with items := rest } })
  /-- The sink wants the item. -/
  | kept (c : Collector α σ) (item : α) (room : c.staged.length < c.batchSize) :
      Move (some item, c) (none, c.stageItem item)
  /-- The sink does not want the item. -/
  | rejected (c : Collector α σ) (item : α) : Move (some item, c) (none, c.rejectItem item)
  /-- The sink panics over the item. -/
  | panicked (c : Collector α σ) (now : Instant) (item : α) :
      Move (some item, c) (none, c.note (.filterPanicked now item))
  /-- The sink takes the staged batch. -/
  | delivered (c : Collector α σ) (now : Instant) (replies : List Reply) (staged : c.staged ≠ []) :
      Move (none, c) (none, (c.note (.flushed now c.staged replies .ok)).delivered)
  /-- The sink does not take the staged batch. -/
  | undelivered (c : Collector α σ) (now : Instant) (replies : List Reply)
      (outcome : Sink.Outcome) (staged : c.staged ≠ []) (fault : outcome ≠ .ok) :
      Move (none, c) (none, c.note (.flushed now c.staged replies outcome))
  /-- The sink has heard that there is nothing to take. -/
  | idled (c : Collector α σ) (now : Instant) (replies : List Reply) (outcome : Sink.Outcome)
      (staged : c.staged = []) :
      Move (none, c) (none, c.note (.idled now replies outcome))

/-- Any number of moves. -/
abbrev Moves : Bench α σ → Bench α σ → Prop := Relation.ReflTransGen Move

/-- What every move keeps, all moves keep. -/
theorem Moves.keep {P : Bench α σ → Prop} {b b' : Bench α σ} (h : Moves b b')
    (move : ∀ {b b' : Bench α σ}, P b → Move b b' → P b') (hP : P b) : P b' := by
  induction h with
  | refl => exact hP
  | tail _ hmove ih => exact move ih hmove

/-! ## The calls of a cycle are moves -/

/-- What an offer comes to. -/
theorem offer_cases (c : Collector α σ) (item : α) :
    (c.offer item).2 = c ∨
      (c.stage = .fresh ∨ c.stage = .active) ∧
        (c.backlog.isFull = false ∧ (c.offer item).2 = c.accept item ∨
          c.backlog.isFull = true ∧ (c.offer item).2 = c.refuse item) := by
  have hopen (hstage : c.stage = .fresh ∨ c.stage = .active) :
      c.backlog.isFull = false ∧ (c.offer item).2 = c.accept item ∨
        c.backlog.isFull = true ∧ (c.offer item).2 = c.refuse item := by
    cases hfull : c.backlog.isFull with
    | false => rcases hstage with hs | hs <;> simp [offer, accept, Backlog.offer, hfull, hs]
    | true => rcases hstage with hs | hs <;> simp [offer, refuse, Backlog.offer, hfull, hs]
  cases hstage : c.stage with
  | fresh => exact .inr ⟨.inl rfl, hopen (.inl hstage)⟩
  | active => exact .inr ⟨.inr rfl, hopen (.inr hstage)⟩
  | closing => exact .inl (by rw [offer, hstage])
  | closed => exact .inl (by rw [offer, hstage])

/-- What holds of a collector holds after an offer, if it holds whether the item is taken on or
turned away. -/
theorem offer_keeps {P : Collector α σ → Prop} {c : Collector α σ} {item : α} (h : P c)
    (haccept : P (c.accept item)) (hrefuse : P (c.refuse item)) : P (c.offer item).2 := by
  rcases offer_cases c item with hoffer | ⟨-, ⟨-, hoffer⟩ | ⟨-, hoffer⟩⟩
  · rwa [hoffer]
  · rwa [hoffer]
  · rwa [hoffer]

/-- An offer is a move, unless the collector has ended. -/
theorem moves_offer (hand : Option α) (c : Collector α σ) (item : α) :
    Moves (hand, c) (hand, (c.offer item).2) := by
  rcases offer_cases c item with h | ⟨hopen, ⟨hroom, h⟩ | ⟨hfull, h⟩⟩
  · rw [h]
  · rw [h]
    exact .single (.accepted hand c item hopen hroom)
  · rw [h]
    exact .single (.refused hand c item hopen hfull)

theorem moves_requestClose (hand : Option α) (c : Collector α σ) :
    Moves (hand, c) (hand, c.requestClose) := by
  unfold requestClose
  split
  next h => exact .single (.closing hand c (.inl h))
  next h => exact .single (.closing hand c (.inr h))
  next => exact .refl
  next => exact .refl

/-- So is any command. -/
theorem moves_obey (hand : Option α) (c : Collector α σ) (command : Sink.Command α) :
    Moves (hand, c) (hand, (c.obey command).2) := by
  unfold obey
  split
  next => split <;> exact .refl
  next =>
    split
    next item => exact moves_offer hand c item
    next => exact moves_requestClose hand c
    next => exact .refl

/-- Commands of the sink are made of moves. -/
theorem moves_obeyAll (hand : Option α) (c : Collector α σ) (commands : List (Sink.Command α)) :
    Moves (hand, c) (hand, (c.obeyAll commands).2) := by
  induction commands generalizing c with
  | nil => exact .refl
  | cons command rest ih => exact (moves_obey hand c command).trans (ih _)

/-- A call of the sink gives it a new state, and then obeys its commands. -/
theorem moves_call (hand : Option α) (c : Collector α σ) (next : σ)
    (commands : List (Sink.Command α)) :
    Moves (hand, c) (hand, ({ c with sink := next }.obeyAll commands).2) :=
  .head (.advanced hand c next) (moves_obeyAll hand _ commands)

/-- The judgement of an item empties the hand. -/
theorem moves_judge {S : Sink α σ} {now : Instant} {c : Collector α σ} {item : α}
    (room : c.staged.length < c.batchSize) :
    Moves (some item, c) (none, (judge S now c item).collector) := by
  have hkept := kept_obeyAll { c with sink := (S.judge c.sink item).next }
    (S.judge c.sink item).commands
  -- The commands leave the stage as it is, so there is still room for the item.
  refine (moves_call (some item) c (S.judge c.sink item).next (S.judge c.sink item).commands).tail
    ?_
  unfold judge
  dsimp only
  split
  next =>
    refine .kept _ item ?_
    rw [hkept.staged, batchSize, hkept.settings]
    exact room
  next => exact .rejected _ item
  next => exact .panicked _ now item

/-- A batch that is handed over is taken, or stays staged. -/
theorem moves_deliver {S : Sink α σ} {now : Instant} {c : Collector α σ} (h : c.staged ≠ []) :
    Moves (none, c) (none, (deliver S now c).collector) := by
  have hcall := moves_call none c (S.take c.sink c.staged).next (S.take c.sink c.staged).commands
  have hstaged := (kept_obeyAll { c with sink := (S.take c.sink c.staged).next }
    (S.take c.sink c.staged).commands).staged
  -- From here on only the answers to the commands, and the collector after them, matter.
  unfold deliver
  dsimp only at hstaged ⊢
  generalize ({ c with sink := (S.take c.sink c.staged).next }.obeyAll
    (S.take c.sink c.staged).commands) = called at hcall hstaged ⊢
  obtain ⟨replies, d⟩ := called
  dsimp only at hcall hstaged ⊢
  rw [← hstaged] at h ⊢
  refine hcall.tail ?_
  split
  next hok => rw [hok]; split <;> exact .delivered d now replies h
  next herror => rw [herror]; exact .undelivered d now replies .error h nofun
  next hpanic => rw [hpanic]; exact .undelivered d now replies .panic h nofun

/-- With nothing to take, the sink is told so. -/
theorem moves_idle {S : Sink α σ} {now : Instant} {c : Collector α σ} (h : c.staged = []) :
    Moves (none, c) (none, (idle S now c).collector) := by
  have hkept := kept_obeyAll { c with sink := (S.idle c.sink).next } (S.idle c.sink).commands
  refine (moves_call none c (S.idle c.sink).next (S.idle c.sink).commands).tail ?_
  exact .idled _ now _ _ (hkept.staged.trans h)

/-- The next item is taken from the backlog while there is room in the batch. -/
theorem nextItem?_eq_some {c : Collector α σ} {item : α} {backlog : Backlog α}
    (h : c.nextItem? = some (item, backlog)) :
    c.staged.length < c.batchSize ∧ c.backlog.items = item :: backlog.items ∧
      backlog = { c.backlog with items := backlog.items } := by
  unfold nextItem? Backlog.pop? at h
  split at h
  next hroom =>
    split at h
    next => cases h
    next hitems =>
      cases h
      exact ⟨hroom, hitems, rfl⟩
  next => cases h

/-- A call of the sink is made of moves, and leaves nothing in its hand. -/
theorem moves_turn (S : Sink α σ) (now : Instant) (c : Collector α σ) :
    Moves (none, c) (none, (turn S now c).collector) := by
  unfold turn
  split
  next item backlog hnext =>
    obtain ⟨hroom, hitems, hbacklog⟩ := nextItem?_eq_some hnext
    rw [hbacklog]
    exact .head (.picked c item backlog.items hitems hroom) (moves_judge hroom)
  next =>
    split
    next hempty => exact moves_idle (List.isEmpty_iff.1 hempty)
    next hne => exact moves_deliver fun hnil => hne (List.isEmpty_iff.2 hnil)

/-- So the calls of a cycle are made of moves. -/
theorem moves_work (S : Sink α σ) (now : Instant) (c : Collector α σ) :
    Moves (none, c) (none, (work S now c).2) := by
  fun_induction work S now c with
  | case1 c d hturn ih =>
    have h := moves_turn S now c
    rw [hturn] at h
    exact h.trans ih
  | case2 c ok d hturn =>
    have h := moves_turn S now c
    rw [hturn] at h
    exact h

/-- What every call keeps after which the cycle goes on, holds before the last call. -/
theorem exists_last_turn (S : Sink α σ) (now : Instant) {P : Collector α σ → Prop}
    (again : ∀ {c d : Collector α σ}, P c → turn S now c = .again d → P d) {c : Collector α σ}
    (h : P c) : ∃ d, P d ∧ turn S now d = .ended (work S now c).1 (work S now c).2 := by
  fun_induction work S now c with
  | case1 c d hturn ih => exact ih (again h hturn)
  | case2 c ok d hturn => exact ⟨c, h, hturn⟩

/-! ## Failures -/

/-- The latest entry of the journal is a fault of the sink. -/
def Faulted (c : Collector α σ) : Prop :=
  ∃ entry earlier, c.journal = entry :: earlier ∧ entry.isFault = true

/-- A call that ends the cycle with a failure was a fault of the sink. -/
theorem faulted_of_turn {S : Sink α σ} {now : Instant} {c d : Collector α σ}
    (h : turn S now c = .ended false d) : d.Faulted := by
  unfold turn at h
  split at h
  next item backlog _ =>
    unfold judge at h
    dsimp only at h
    split at h
    next => cases h
    next => cases h
    next => cases h; exact ⟨_, _, rfl, rfl⟩
  next =>
    split at h
    next =>
      unfold idle at h
      dsimp only at h
      injection h with hok hd
      rw [← hd]
      refine ⟨_, _, rfl, ?_⟩
      simpa [Entry.isFault] using hok
    next =>
      unfold deliver at h
      dsimp only at h
      split at h
      next => split at h <;> cases h
      next houtcome => cases h; exact ⟨_, _, rfl, by rw [houtcome]; rfl⟩
      next houtcome => cases h; exact ⟨_, _, rfl, by rw [houtcome]; rfl⟩

/-- The calls of a cycle fail only through a fault of the sink. -/
theorem faulted_of_work {S : Sink α σ} {now : Instant} {c : Collector α σ}
    (h : (work S now c).1 = false) : (work S now c).2.Faulted := by
  obtain ⟨d, -, hlast⟩ := exists_last_turn S now (P := fun _ => True)
    (fun _ _ => trivial) (c := c) trivial
  rw [h] at hlast
  exact faulted_of_turn hlast

/-- When the backlog is given up, nothing is staged any more. -/
theorem staged_of_dropsQueue {c : Collector α σ} (h : c.dropBatch.pacing.dropsQueue = true) :
    c.dropBatch.staged = [] := by
  obtain ⟨-, horder⟩ := BatchSettings.Valid.thresholds c.valid
  unfold dropBatch at h ⊢
  split at h
  next hdrop => rw [if_pos hdrop]; rfl
  next hkeep =>
    rw [if_neg hkeep]
    -- The backlog is not given up before the batch, so a batch that was kept was empty.
    by_cases hstaged : c.staged = []
    · exact hstaged
    · refine absurd ⟨?_, hstaged⟩ hkeep
      exact decide_eq_true (UInt32.le_trans horder (of_decide_eq_true h))

/-! ## Invariants -/

/-- What a cycle keeps once it has begun: the moves of its calls, and the steps that follow. -/
structure CycleInvariant (P : Bench α σ → Prop) : Prop where
  move : ∀ {b b' : Bench α σ}, P b → Move b b' → P b'
  recordFailure : ∀ {c : Collector α σ}, P (none, c) → c.Faulted → P (none, c.recordFailure)
  dropBatch : ∀ {c : Collector α σ}, P (none, c) → P (none, c.dropBatch)
  dropBacklog : ∀ {c : Collector α σ}, P (none, c) →
    (c.pacing.dropsQueue = true → c.staged = []) → P (none, c.dropBacklog)
  takeStock : ∀ {c : Collector α σ}, P (none, c) → P (none, c.takeStock)

/-- What every step of a collector keeps. The stage, the alarm and the reach of the sink change
outside cycles only. -/
structure Invariant (P : Bench α σ → Prop) : Prop extends CycleInvariant P where
  cycleBegan : ∀ {c : Collector α σ} (now : Instant) (final : Bool), P (none, c) →
    P (none, c.note (.cycleBegan now final))
  outside : ∀ {c : Collector α σ} (stage : Stage) (alarm : Alarm) (unreachable : Bool),
    P (none, c) → P (none, { c with stage, alarm, unreachable })

section CycleInvariant

variable {P : Bench α σ → Prop} (inv : CycleInvariant P) {c : Collector α σ}

include inv

/-- The end of a cycle keeps it, if a failure has had a fault. -/
theorem CycleInvariant.conclude (h : P (none, c)) {ok : Bool} (fault : ok = false → c.Faulted) :
    P (none, conclude ok c) := by
  have hfailed : P (none, if ok then c else c.recordFailure) := by
    split
    next => exact h
    next hok => exact inv.recordFailure h (fault (by simpa using hok))
  exact inv.takeStock (inv.dropBacklog (inv.dropBatch hfailed) staged_of_dropsQueue)

/-- What holds once a cycle has begun holds at its end. -/
theorem CycleInvariant.cycle (S : Sink α σ) (now : Instant) (final : Bool)
    (h : P (none, c.note (.cycleBegan now final))) : P (none, c.cycle S now final) :=
  inv.conclude ((moves_work S now _).keep inv.move h) faulted_of_work

theorem CycleInvariant.offer (h : P (none, c)) (item : α) : P (none, (c.offer item).2) :=
  (moves_offer none c item).keep inv.move h

end CycleInvariant

/-- A cycle keeps what every step keeps. -/
theorem Invariant.cycle {P : Bench α σ → Prop} (inv : Invariant P) {c : Collector α σ}
    (h : P (none, c)) (S : Sink α σ) (now : Instant) (final : Bool) :
    P (none, c.cycle S now final) :=
  inv.toCycleInvariant.cycle S now final (inv.cycleBegan now final h)

/-- Nothing is ever taken out of a journal. -/
theorem suffix_invariant (base : List (Entry α)) :
    Invariant (σ := σ) fun b => base <:+ b.2.journal where
  move h hmove := by
    cases hmove with
    | advanced => exact h
    | closing => exact h
    | picked => exact h
    | _ => exact List.IsSuffix.trans h (List.suffix_cons ..)
  cycleBegan _ _ h := List.IsSuffix.trans h (List.suffix_cons ..)
  recordFailure h _ := List.IsSuffix.trans h (List.suffix_cons ..)
  dropBatch h := by
    unfold dropBatch
    split
    next => exact List.IsSuffix.trans h (List.suffix_cons ..)
    next => exact h
  dropBacklog h _ := by
    unfold dropBacklog
    split
    next => exact List.IsSuffix.trans h (List.suffix_cons ..)
    next => exact h
  takeStock h := h
  outside _ _ _ h := h

end Courier.Collector
