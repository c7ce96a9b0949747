import Courier.Proofs.Collector.Runs

/-!
# A collector goes on until it is disposed

The stage of a collector changes in few places. A cycle leaves it as it is, unless the sink disposes
the collector in one of its calls; and no failure of the sink ends a collector.

> `unended_run`: where neither the sink nor a request disposes the collector, it never ends.
-/

namespace Courier.Collector

variable {α σ : Type} {S : Sink α σ}

/-- The collector has not ended, and will not end by itself. -/
def Unended (c : Collector α σ) : Prop := c.stage = .fresh ∨ c.stage = .active

/-- The sink never disposes its collector. -/
structure NeverDisposes (S : Sink α σ) : Prop where
  judge : ∀ s item, .dispose ∉ (S.judge s item).commands
  take : ∀ s batch, .dispose ∉ (S.take s batch).commands
  idle : ∀ s, .dispose ∉ (S.idle s).commands

/-- An offer leaves the stage as it is. -/
theorem stage_offer (c : Collector α σ) (item : α) : (c.offer item).2.stage = c.stage := by
  rcases offer_cases c item with h | ⟨-, ⟨-, h⟩ | ⟨-, h⟩⟩
  · rw [h]
  · rw [h]; rfl
  · rw [h]; rfl

/-- So does a command that is no disposal. -/
theorem stage_obey {c : Collector α σ} {command : Sink.Command α} (h : command ≠ .dispose) :
    (c.obey command).2.stage = c.stage := by
  unfold obey
  split
  next => split <;> rfl
  next =>
    split
    next item => exact stage_offer c item
    next => exact absurd rfl h
    next => rfl

/-- Commands leave the stage as it is, unless one of them is a disposal. -/
theorem stage_obeyAll {c : Collector α σ} {commands : List (Sink.Command α)}
    (h : .dispose ∉ commands) : (c.obeyAll commands).2.stage = c.stage := by
  induction commands generalizing c with
  | nil => rfl
  | cons command rest ih =>
    have hcommand : command ≠ .dispose := fun heq => h (heq ▸ List.mem_cons_self)
    have hrest := ih (c := (c.obey command).2) fun hmem => h (List.mem_cons_of_mem _ hmem)
    exact hrest.trans (stage_obey hcommand)

/-- A call of the sink leaves the stage as it is, whatever its outcome. -/
theorem stage_turn (hS : NeverDisposes S) (now : Instant) (c : Collector α σ) :
    (turn S now c).collector.stage = c.stage := by
  unfold turn
  split
  next item backlog _ =>
    have h := stage_obeyAll (c := { c with backlog, sink := (S.judge c.sink item).next })
      (hS.judge c.sink item)
    unfold judge
    dsimp only
    split <;> exact h
  next =>
    split
    next => exact stage_obeyAll (c := { c with sink := (S.idle c.sink).next }) (hS.idle c.sink)
    next =>
      have h := stage_obeyAll (c := { c with sink := (S.take c.sink c.staged).next })
        (hS.take c.sink c.staged)
      unfold deliver
      dsimp only
      split
      next => split <;> exact h
      next => exact h
      next => exact h

/-- So do the calls of a cycle. -/
theorem stage_work (hS : NeverDisposes S) (now : Instant) (c : Collector α σ) :
    (work S now c).2.stage = c.stage := by
  fun_induction work S now c with
  | case1 c d hturn ih =>
    have h := stage_turn hS now c
    rw [hturn] at h
    exact ih.trans h
  | case2 c ok d hturn =>
    have h := stage_turn hS now c
    rw [hturn] at h
    exact h

/-- What giving up and taking stock leave as it is, only a failure can change at the end of a
cycle. -/
theorem eq_conclude {β : Type} (f : Collector α σ → β) (batch : ∀ c, f c.dropBatch = f c)
    (backlog : ∀ c, f c.dropBacklog = f c) (stock : ∀ c, f c.takeStock = f c) (ok : Bool)
    (c : Collector α σ) : f (conclude ok c) = f (if ok then c else c.recordFailure) := by
  unfold conclude
  dsimp only
  rw [stock, backlog, batch]

/-- `d` is `c` after the end of a cycle, whatever was given up there. -/
structure Concluded (ok : Bool) (c d : Collector α σ) : Prop where
  stage : d.stage = c.stage
  settings : d.settings = c.settings
  sink : d.sink = c.sink
  failures : d.failures = if ok then c.failures else c.recordFailure.failures

/-- What is given up concerns nothing but the staged batch, the backlog and the statistics. -/
theorem concluded (ok : Bool) (c : Collector α σ) : Concluded ok c (conclude ok c) := by
  have hafter := eq_conclude
    (fun d : Collector α σ => (d.stage, d.settings, d.sink, d.failures))
    (fun d => by unfold dropBatch; split <;> rfl) (fun d => by unfold dropBacklog; split <;> rfl)
    (fun _ => rfl) ok c
  simp only [Prod.mk.injEq] at hafter
  obtain ⟨hstage, hsettings, hsink, hfailures⟩ := hafter
  cases ok <;> exact ⟨hstage, hsettings, hsink, hfailures⟩

/-- A cycle leaves the stage as it is, also if it fails. -/
theorem stage_cycle (hS : NeverDisposes S) (now : Instant) (final : Bool) (c : Collector α σ) :
    (c.cycle S now final).stage = c.stage :=
  (concluded _ _).stage.trans (stage_work hS now _)

/-- To start the alarm does not end the collector. -/
theorem unended_schedule {c : Collector α σ} (h : Unended c) (now : Instant) :
    Unended (c.schedule now) := by
  unfold schedule
  split <;> exact h

theorem unended_afterCycle {c : Collector α σ} (h : Unended c) (now : Instant) :
    Unended (c.afterCycle S now) := by
  unfold afterCycle
  split
  next hclosing => rcases h with hs | hs <;> (rw [hclosing] at hs; cases hs)
  next => exact h
  next => exact unended_schedule h now
  next => exact unended_schedule h now

/-- Nor does a tick, if the sink does not dispose the collector. -/
theorem unended_tick (hS : NeverDisposes S) {c : Collector α σ} (h : Unended c) (now : Instant) :
    Unended (c.tick S now) := by
  have hcycle : Unended (c.beginTick.cycle S now false) := by
    unfold Unended
    rw [stage_cycle hS now false c.beginTick]
    exact h
  have hafter := unended_afterCycle (S := S) hcycle now
  unfold tick
  dsimp only
  generalize (c.beginTick.cycle S now false).afterCycle S now = d at hafter ⊢
  split
  next => exact h
  next => exact hafter

theorem unended_emit {c : Collector α σ} (h : Unended c) (now : Instant) (item : α) :
    Unended (c.emit now item).2 := by
  unfold Collector.emit
  split
  next =>
    dsimp only
    split
    next => exact .inr rfl
    next => exact .inr rfl
  next =>
    unfold Unended
    rw [stage_offer]
    exact h

theorem unended_pass (hS : NeverDisposes S) {s : Session α σ} (h : Unended s.collector)
    (nanos : Nat) : Unended (s.pass S nanos).collector := by
  obtain ⟨-, hrun⟩ := (ticks S).runUntil_invariant (P := fun _ c => Unended c)
    (fun h _ _ => unended_tick hS h _) h
  exact hrun

/-- No request but a disposal ends a collector. -/
theorem unended_serve (hS : NeverDisposes S) {s : Session α σ} (h : Unended s.collector)
    {request : Request α} (hrequest : request ≠ .dispose ∧ request ≠ .drop) :
    Unended (s.serve S request).2.collector := by
  cases request with
  | pass nanos => exact unended_pass hS h nanos
  | emit item =>
    unfold Session.serve
    dsimp only
    split
    next => exact h
    next => exact unended_pass hS (unended_emit h _ item) 0
  | dispose => exact absurd rfl hrequest.1
  | drop => exact absurd rfl hrequest.2

/-- A run without a disposal ends no collector. -/
theorem unended_run (hS : NeverDisposes S) {s : Session α σ} (h : Unended s.collector)
    {requests : List (Request α)}
    (hrequests : ∀ request ∈ requests, request ≠ .dispose ∧ request ≠ .drop) :
    Unended (s.run S requests).2.collector := by
  induction requests generalizing s with
  | nil => exact h
  | cons request rest ih =>
    have hserve := unended_serve hS h (hrequests request List.mem_cons_self)
    exact ih hserve fun request hmem => hrequests request (List.mem_cons_of_mem _ hmem)

end Courier.Collector
