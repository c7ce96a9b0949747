import Courier.Proofs.Collector.Stage
import Courier.Proofs.Collector.Thresholds

/-!
# What the sink asks for

In each of its calls the sink may turn to its collector with commands. This module lists the
commands of a call and of a whole cycle, each with the collector as it is when the command comes, so
that the answers and what the commands change can be spoken of one by one.

> `turn_completes`: what a call of the sink does beyond its commands.

> `CycleInvariant.asked`: what the moves of a cycle keep holds whenever a command comes.

> `disposed_work_iff`: a collector is disposed in a cycle exactly if the sink asks for it.
-/

namespace Courier.Collector

variable {α σ : Type}

/-- A command of the sink, and the collector as it is when the command comes. -/
structure Asked (α σ : Type) where
  command : Sink.Command α
  collector : Collector α σ

namespace Asked

/-- The answer to the command. -/
def reply (x : Asked α σ) : Reply := (x.collector.obey x.command).1

/-- The collector once it has obeyed. -/
def after (x : Asked α σ) : Collector α σ := (x.collector.obey x.command).2

/-- Whether the sink disposes its collector. -/
def isDisposal (x : Asked α σ) : Bool :=
  match x.command with
  | .dispose => true
  | _ => false

end Asked

/-! ## The commands of a cycle -/

/-- Commands that come one after the other. -/
def asked (c : Collector α σ) : List (Sink.Command α) → List (Asked α σ)
  | [] => []
  | command :: rest => ⟨command, c⟩ :: (c.obey command).2.asked rest

/-- The next call of the sink: the collector when the call has begun, and the commands that the sink
gives in it. -/
def nextCall (S : Sink α σ) (c : Collector α σ) : Collector α σ × List (Sink.Command α) :=
  match c.nextItem? with
  | some (item, backlog) =>
    let response := S.judge c.sink item
    ({ c with backlog, sink := response.next }, response.commands)
  | none =>
    let response := if c.staged.isEmpty then S.idle c.sink else S.take c.sink c.staged
    ({ c with sink := response.next }, response.commands)

/-- The collector when the commands of the next call have been obeyed. -/
def afterCommands (S : Sink α σ) (c : Collector α σ) : Collector α σ :=
  ((nextCall S c).1.obeyAll (nextCall S c).2).2

/-- The commands of the next call. -/
def askedInTurn (S : Sink α σ) (c : Collector α σ) : List (Asked α σ) :=
  (nextCall S c).1.asked (nextCall S c).2

/-- The commands of the calls until the cycle is over. -/
def askedInWork (S : Sink α σ) (now : Instant) (c : Collector α σ) : List (Asked α σ) :=
  match _h : turn S now c with
  | .again d => askedInTurn S c ++ askedInWork S now d
  | .ended _ _ => askedInTurn S c
termination_by load S c
decreasing_by exact load_turn_lt _h

/-- The commands of a cycle. -/
def askedInCycle (S : Sink α σ) (now : Instant) (final : Bool) (c : Collector α σ) :
    List (Asked α σ) :=
  askedInWork S now (c.note (.cycleBegan now final))

/-- A call after which the cycle goes on is followed by what is commanded in the rest. -/
theorem askedInWork_of_again {S : Sink α σ} {now : Instant} {c d : Collector α σ}
    (h : turn S now c = .again d) :
    askedInWork S now c = askedInTurn S c ++ askedInWork S now d := by
  rw [askedInWork]
  split
  next e he => rw [h] at he; cases he; rfl
  next he => rw [h] at he; cases he

/-- A call that ends the cycle is the last one with commands. -/
theorem askedInWork_of_ended {S : Sink α σ} {now : Instant} {c d : Collector α σ} {ok : Bool}
    (h : turn S now c = .ended ok d) : askedInWork S now c = askedInTurn S c := by
  rw [askedInWork]
  split
  next he => rw [h] at he; cases he
  next => rfl

/-! ## What a call does beyond its commands -/

/-- Whether the cycle ends with a failure. -/
def Turn.hasFailed : Turn α σ → Bool
  | .ended false _ => true
  | _ => false

/-- Whether a cycle begins. -/
def Entry.isBeginning : Entry α → Bool
  | .cycleBegan _ _ => true
  | _ => false

/-- An offer does not begin a cycle. -/
theorem Entry.isBeginning_of_isOffer {entry : Entry α} (h : entry.isOffer = true) :
    entry.isBeginning = false := by
  cases entry with
  | cycleBegan instant final => cases h
  | _ => rfl

/-- The outcome of a call is noted in one entry, and leaves most of the collector as the commands
have left it. -/
structure Completes (called : Collector α σ) (t : Turn α σ) (entry : Entry α) : Prop where
  journal : t.collector.journal = entry :: called.journal
  stage : t.collector.stage = called.stage
  backlog : t.collector.backlog = called.backlog
  emitted : t.collector.tally.emitted = called.tally.emitted
  beginning : entry.isBeginning = false
  fault : entry.isFault = t.hasFailed

/-- Once its commands are obeyed, a call ends with one entry more. -/
theorem turn_completes (S : Sink α σ) (now : Instant) (c : Collector α σ) :
    ∃ entry, Completes (afterCommands S c) (turn S now c) entry := by
  unfold turn afterCommands nextCall
  cases c.nextItem? with
  | some next =>
    obtain ⟨item, backlog⟩ := next
    dsimp only
    unfold judge
    dsimp only
    split
    next => exact ⟨_, rfl, rfl, rfl, rfl, rfl, rfl⟩
    next => exact ⟨_, rfl, rfl, rfl, rfl, rfl, rfl⟩
    next => exact ⟨_, rfl, rfl, rfl, rfl, rfl, rfl⟩
  | none =>
    dsimp only
    split
    next =>
      unfold idle
      refine ⟨_, rfl, rfl, rfl, rfl, rfl, ?_⟩
      show decide ((S.idle c.sink).outcome = .panic) = Turn.hasFailed (.ended (_ != _) _)
      cases (S.idle c.sink).outcome <;> rfl
    next =>
      unfold deliver
      dsimp only
      split
      next houtcome =>
        split
        next => exact ⟨_, rfl, rfl, rfl, rfl, rfl, by rw [houtcome]; rfl⟩
        next => exact ⟨_, rfl, rfl, rfl, rfl, rfl, by rw [houtcome]; rfl⟩
      next houtcome => exact ⟨_, rfl, rfl, rfl, rfl, rfl, by rw [houtcome]; rfl⟩
      next houtcome => exact ⟨_, rfl, rfl, rfl, rfl, rfl, by rw [houtcome]; rfl⟩

/-! ## Commands come between moves -/

/-- A collector gets by moves to where a command finds it. -/
theorem moves_asked (hand : Option α) {c : Collector α σ} {commands : List (Sink.Command α)}
    {x : Asked α σ} (hx : x ∈ c.asked commands) : Moves (hand, c) (hand, x.collector) := by
  induction commands generalizing c with
  | nil => cases hx
  | cons command rest ih =>
    rcases List.mem_cons.1 hx with rfl | hx
    · exact .refl
    · exact (moves_obey hand c command).trans (ih hx)

theorem moves_nextCall (S : Sink α σ) (c : Collector α σ) :
    ∃ hand, Moves (none, c) (hand, (nextCall S c).1) := by
  unfold nextCall
  split
  next item backlog hnext =>
    obtain ⟨hroom, hitems, hbacklog⟩ := nextItem?_eq_some hnext
    rw [hbacklog]
    exact ⟨some item, .head (.picked c item backlog.items hitems hroom) (.single (.advanced ..))⟩
  next => exact ⟨none, .single (.advanced ..)⟩

theorem moves_askedInTurn {S : Sink α σ} {c : Collector α σ} {x : Asked α σ}
    (hx : x ∈ askedInTurn S c) : ∃ hand, Moves (none, c) (hand, x.collector) := by
  obtain ⟨hand, hcall⟩ := moves_nextCall S c
  exact ⟨hand, hcall.trans (moves_asked hand hx)⟩

/-- So it gets to where the commands of all calls of the cycle find it. -/
theorem moves_askedInWork {S : Sink α σ} {now : Instant} {c : Collector α σ} {x : Asked α σ}
    (hx : x ∈ askedInWork S now c) : ∃ hand, Moves (none, c) (hand, x.collector) := by
  fun_induction work S now c with
  | case1 c d hturn ih =>
    rw [askedInWork_of_again hturn] at hx
    rcases List.mem_append.1 hx with hx | hx
    · exact moves_askedInTurn hx
    · obtain ⟨hand, hmoves⟩ := ih hx
      have hmove := moves_turn S now c
      rw [hturn] at hmove
      exact ⟨hand, hmove.trans hmoves⟩
  | case2 c ok d hturn =>
    rw [askedInWork_of_ended hturn] at hx
    exact moves_askedInTurn hx

/-- What the moves of a cycle keep holds whenever a command comes. -/
theorem CycleInvariant.asked {P : Bench α σ → Prop} (inv : CycleInvariant P) {S : Sink α σ}
    {now : Instant} {final : Bool} {c : Collector α σ}
    (h : P (none, c.note (.cycleBegan now final))) :
    ∀ x ∈ askedInCycle S now final c, ∃ hand, P (hand, x.collector) := by
  intro x hx
  obtain ⟨hand, hmoves⟩ := moves_askedInWork hx
  exact ⟨hand, hmoves.keep inv.move h⟩

/-! ## Disposal -/

/-- The disposal of the collector has taken effect. -/
def Disposed (c : Collector α σ) : Prop := c.stage = .closing ∨ c.stage = .closed

/-- A collector that has not ended is not disposed. -/
theorem not_disposed_of_unended {c : Collector α σ} (h : Unended c) : ¬c.Disposed := by
  rintro (hd | hd) <;> rcases h with h | h <;> (rw [hd] at h; cases h)

/-- A disposed collector takes nothing on. -/
theorem offer_of_disposed {c : Collector α σ} (h : c.Disposed) (item : α) :
    c.offer item = (.error (.disposed .collector), c) := by
  unfold offer
  rcases h with h | h <;> rw [h]

/-- Nor can it be disposed again from a call of the sink. -/
theorem requestClose_of_disposed {c : Collector α σ} (h : c.Disposed) : c.requestClose = c := by
  unfold requestClose
  rcases h with h | h <;> rw [h]

/-- No command changes a disposed collector. -/
theorem obey_of_disposed {c : Collector α σ} (h : c.Disposed) (command : Sink.Command α) :
    (c.obey command).2 = c := by
  unfold obey
  split
  next => split <;> rfl
  next =>
    split
    next item => rw [offer_of_disposed h]
    next => exact requestClose_of_disposed h
    next => rfl

/-- A disposed collector obeys no command. -/
theorem obeyAll_of_disposed {c : Collector α σ} (h : c.Disposed)
    (commands : List (Sink.Command α)) : (c.obeyAll commands).2 = c := by
  induction commands with
  | nil => rfl
  | cons command rest ih =>
    show ((c.obey command).2.obeyAll rest).2 = c
    rw [obey_of_disposed h command, ih]

/-- The moves of a cycle leave the stage of a disposed collector as it is. -/
theorem Moves.stage {b b' : Bench α σ} (h : Moves b b') (hb : b.2.Disposed) :
    b'.2.stage = b.2.stage := by
  have hkept : b'.2.Disposed ∧ b'.2.stage = b.2.stage := by
    refine h.keep (P := fun d => d.2.Disposed ∧ d.2.stage = b.2.stage) ?_ ⟨hb, rfl⟩
    rintro d d' ⟨hd, hstage⟩ hmove
    cases hmove with
    | accepted hand c item unended => exact absurd hd (not_disposed_of_unended unended)
    | refused hand c item unended => exact absurd hd (not_disposed_of_unended unended)
    | closing hand c unended => exact absurd hd (not_disposed_of_unended unended)
    | _ => exact ⟨hd, hstage⟩
  exact hkept.2

/-- No move changes whether the sink can reach the collector. -/
theorem Moves.unreachable {b b' : Bench α σ} (h : Moves b b') :
    b'.2.unreachable = b.2.unreachable := by
  refine h.keep (P := fun d => d.2.unreachable = b.2.unreachable) ?_ rfl
  intro d d' hd hmove
  cases hmove <;> exact hd

section Disposal

variable {S : Sink α σ} {now : Instant} {c : Collector α σ}

/-- A command disposes a collector that the sink can reach exactly if it is meant to. -/
theorem disposed_obey_iff (hreach : c.unreachable = false) (command : Sink.Command α) :
    (c.obey command).2.Disposed ↔ c.Disposed ∨ Asked.isDisposal ⟨command, c⟩ = true := by
  unfold obey
  rw [hreach]
  cases command with
  | emit item =>
    show (c.offer item).2.Disposed ↔ _
    unfold Disposed
    rw [stage_offer]
    simp [Asked.isDisposal]
  | dispose =>
    show c.requestClose.Disposed ↔ _
    unfold Disposed requestClose
    cases hstage : c.stage <;> simp [hstage, Asked.isDisposal]
  | stats =>
    show c.Disposed ↔ _
    simp [Asked.isDisposal]

/-- Some commands do so exactly if there is one among them that does. -/
theorem disposed_obeyAll_iff (hreach : c.unreachable = false) (commands : List (Sink.Command α)) :
    (c.obeyAll commands).2.Disposed ↔ c.Disposed ∨ ∃ x ∈ c.asked commands, x.isDisposal = true := by
  induction commands generalizing c with
  | nil => simp [obeyAll, asked]
  | cons command rest ih =>
    have hnext : (c.obey command).2.unreachable = false :=
      (moves_obey none c command).unreachable.trans hreach
    show ((c.obey command).2.obeyAll rest).2.Disposed ↔ _
    rw [ih hnext, disposed_obey_iff hreach, or_assoc, asked]
    simp only [List.mem_cons, exists_eq_or_imp]

/-- A call does so exactly if there is such a command in it. -/
theorem disposed_turn_iff (S : Sink α σ) (now : Instant) (hreach : c.unreachable = false) :
    (turn S now c).collector.Disposed ↔
      c.Disposed ∨ ∃ x ∈ askedInTurn S c, x.isDisposal = true := by
  obtain ⟨entry, hturn⟩ := turn_completes S now c
  obtain ⟨hand, hcall⟩ := moves_nextCall S c
  have hstage : (nextCall S c).1.stage = c.stage := by
    unfold nextCall
    split <;> rfl
  unfold Disposed
  rw [hturn.stage, ← hstage]
  exact disposed_obeyAll_iff (hcall.unreachable.trans hreach) _

/-- In the calls of a cycle the collector is disposed exactly if the sink asks for it. -/
theorem disposed_work_iff (S : Sink α σ) (now : Instant) (hreach : c.unreachable = false) :
    (work S now c).2.Disposed ↔ c.Disposed ∨ ∃ x ∈ askedInWork S now c, x.isDisposal = true := by
  fun_induction work S now c with
  | case1 c d hturn ih =>
    have hmove := moves_turn S now c
    have hiff := disposed_turn_iff S now hreach
    rw [hturn] at hmove hiff
    rw [ih (hmove.unreachable.trans hreach), askedInWork_of_again hturn]
    show d.Disposed ∨ _ ↔ _
    rw [show d.Disposed ↔ _ from hiff, or_assoc]
    simp only [List.mem_append, or_and_right, exists_or]
  | case2 c ok d hturn =>
    have hiff := disposed_turn_iff S now hreach
    rw [hturn] at hiff
    rw [askedInWork_of_ended hturn]
    exact hiff

/-- Every command that follows a disposal comes to a disposed collector. -/
theorem pairwise_asked (hreach : c.unreachable = false) (commands : List (Sink.Command α)) :
    (c.asked commands).Pairwise fun x y => x.isDisposal = true → y.collector.Disposed := by
  induction commands generalizing c with
  | nil => exact .nil
  | cons command rest ih =>
    have hnext : (c.obey command).2.unreachable = false :=
      (moves_obey none c command).unreachable.trans hreach
    refine .cons ?_ (ih hnext)
    intro y hy hdisposal
    have hdisposed := (disposed_obey_iff hreach command).2 (.inr hdisposal)
    unfold Disposed at hdisposed ⊢
    rw [(moves_asked none hy).stage hdisposed]
    exact hdisposed

/-- From the first disposal on, commands find a disposed collector. -/
theorem pairwise_askedInWork (S : Sink α σ) (now : Instant) (hreach : c.unreachable = false) :
    (askedInWork S now c).Pairwise fun x y => x.isDisposal = true → y.collector.Disposed := by
  have hcall (c : Collector α σ) (hreach : c.unreachable = false) :
      (askedInTurn S c).Pairwise fun x y => x.isDisposal = true → y.collector.Disposed := by
    obtain ⟨hand, hmoves⟩ := moves_nextCall S c
    exact pairwise_asked (hmoves.unreachable.trans hreach) _
  fun_induction work S now c with
  | case1 c d hturn ih =>
    have hmove := moves_turn S now c
    have hiff := disposed_turn_iff S now hreach
    rw [hturn] at hmove hiff
    rw [askedInWork_of_again hturn]
    refine List.pairwise_append.2 ⟨hcall c hreach, ih (hmove.unreachable.trans hreach), ?_⟩
    -- After a call with a disposal the collector stays disposed for the rest of the cycle.
    intro x hx y hy hdisposal
    have hdisposed : d.Disposed := hiff.2 (.inr ⟨x, hx, hdisposal⟩)
    obtain ⟨hand, hmoves⟩ := moves_askedInWork hy
    unfold Disposed at hdisposed ⊢
    rw [hmoves.stage hdisposed]
    exact hdisposed
  | case2 c ok d hturn =>
    rw [askedInWork_of_ended hturn]
    exact hcall c hreach

end Disposal

end Courier.Collector
