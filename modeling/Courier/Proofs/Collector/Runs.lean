import Courier.Proofs.Collector.Moves

/-!
# Runs of a collector

A session answers requests one after the other. While no call of the sink is under way a collector
makes `Step`s: time goes on, a tick that is due runs, an item comes, or the collector is disposed or
dropped.

> `steps_run`: a run is a chain of steps.

> `Invariant.run`: what the moves of a collector keep holds after every run.
-/

namespace Courier.Collector

variable {α σ : Type}

namespace Session

/-- A session with a new collector. -/
def create (settings : BatchSettings) (sink : σ) (clock : Clock) :
    Except Failure (Session α σ) :=
  (Collector.create settings sink).map fun collector => { collector, clock }

/-- Answers requests one after the other. -/
def run (S : Sink α σ) (s : Session α σ) : List (Request α) → List Answer × Session α σ
  | [] => ([], s)
  | request :: rest =>
    let (answer, s) := s.serve S request
    let (answers, s) := run S s rest
    (answer :: answers, s)

/-- A backlog with a limit begins empty. -/
theorem eq_of_ofLimit? {limit : Option Nat} {b : Backlog α} (h : Backlog.ofLimit? limit = .ok b) :
    b = { limit } := by
  cases limit with
  | none => cases h; rfl
  | some limit =>
    have hlimit : Backlog.withLimit limit = .ok b := h
    unfold Backlog.withLimit at hlimit
    split at hlimit
    next => cases hlimit
    next => cases hlimit; rfl

/-- A session begins with a collector to which nothing has happened. -/
theorem eq_of_create {settings : BatchSettings} {sink : σ} {clock : Clock} {s : Session α σ}
    (h : create settings sink clock = .ok s) :
    ∃ valid : settings.Valid, s =
      { collector :=
          { settings, valid, sink, backlog := { limit := settings.queueLimit.map UInt64.toNat } }
        clock } := by
  unfold create Collector.create at h
  split at h
  next => cases h
  next hvalid =>
    cases hbacklog : (Backlog.ofLimit? (settings.queueLimit.map UInt64.toNat) :
      Except Failure (Backlog α)) with
    | error e => rw [hbacklog] at h; cases h
    | ok backlog =>
      rw [hbacklog, eq_of_ofLimit? hbacklog] at h
      cases h
      exact ⟨hvalid, rfl⟩

end Session

/-! ## Steps -/

/-- A collector, and the time. -/
abbrev Moment (α σ : Type) := Instant × Collector α σ

/-- What happens to a collector while no call of its sink is under way. A tick may run late. -/
inductive Step (S : Sink α σ) : Moment α σ → Moment α σ → Prop where
  | waited (c : Collector α σ) {now later : Instant} (onward : now ≤ later) :
      Step S (now, c) (later, c)
  | ticked (c : Collector α σ) {now d : Instant} (due : c.nextTick? = some d) (come : d ≤ now) :
      Step S (now, c) (now, c.tick S now)
  | emitted (now : Instant) (c : Collector α σ) (item : α) :
      Step S (now, c) (now, (c.emit now item).2)
  | disposed (now : Instant) (c : Collector α σ) : Step S (now, c) (now, c.dispose S now)
  | dropped (now : Instant) (c : Collector α σ) : Step S (now, c) (now, c.drop S now)

/-- Any number of steps. -/
abbrev Steps (S : Sink α σ) : Moment α σ → Moment α σ → Prop := Relation.ReflTransGen (Step S)

section Steps

variable {S : Sink α σ}

/-- What every step keeps, steps keep. -/
theorem Steps.keep {P : Moment α σ → Prop} {m m' : Moment α σ} (h : Steps S m m')
    (step : ∀ {m m' : Moment α σ}, P m → Step S m m' → P m') (hP : P m) : P m' := by
  induction h with
  | refl => exact hP
  | tail _ hstep ih => exact step ih hstep

/-- While time passes, the collector waits for each tick that is due, and ticks. -/
theorem steps_runUntil {limit now : Instant} (c : Collector α σ) (h : now ≤ limit) :
    Steps S (now, c) (limit, (ticks S).runUntil limit now c) := by
  fun_induction (ticks S).runUntil limit now c with
  | case1 now c hnone => exact .single (.waited c h)
  | case2 now c d hdue hd ih =>
    have hlater := Instant.nanos_later now d
    have hnow : now ≤ now.later d := by
      rw [Instant.le_iff]
      omega
    have hcome : d ≤ now.later d := by
      rw [Instant.le_iff]
      omega
    have hlimit : now.later d ≤ limit := by
      rw [Instant.le_iff] at h hd ⊢
      omega
    exact .head (.waited c hnow) (.head (.ticked c hdue hcome) (ih hlimit))
  | case3 now c d hdue hd => exact .single (.waited c h)

/-- The time that passes is a number of steps. -/
theorem steps_pass (s : Session α σ) (nanos : Nat) :
    Steps S (s.clock.monotonic, s.collector)
      ((s.pass S nanos).clock.monotonic, (s.pass S nanos).collector) :=
  steps_runUntil s.collector (Nat.le_add_right _ _)

/-- Answering a request is a number of steps. -/
theorem steps_serve (s : Session α σ) (request : Request α) :
    Steps S (s.clock.monotonic, s.collector)
      ((s.serve S request).2.clock.monotonic, (s.serve S request).2.collector) := by
  cases request with
  | pass nanos => exact steps_pass s nanos
  | emit item =>
    unfold Session.serve
    dsimp only
    split
    next => exact .refl
    next =>
      exact .head (.emitted _ _ item)
        (steps_pass { s with collector := (s.collector.emit s.clock.monotonic item).2 } 0)
  | dispose =>
    unfold Session.serve
    dsimp only
    split
    next => exact .refl
    next =>
      exact .head (.disposed _ _)
        (steps_pass { s with collector := s.collector.dispose S s.clock.monotonic } 0)
  | drop =>
    unfold Session.serve
    dsimp only
    split
    next => exact .refl
    next =>
      exact .head (.dropped _ _)
        (steps_pass { s with
          collector := s.collector.drop S s.clock.monotonic
          dropped := true } 0)

/-- A run is a chain of steps. -/
theorem steps_run (s : Session α σ) (requests : List (Request α)) :
    Steps S (s.clock.monotonic, s.collector)
      ((s.run S requests).2.clock.monotonic, (s.run S requests).2.collector) := by
  induction requests generalizing s with
  | nil => exact .refl
  | cons request rest ih => exact (steps_serve s request).trans (ih _)

/-- The clock does not go back. -/
theorem monotonic_le_serve (s : Session α σ) (request : Request α) :
    s.clock.monotonic ≤ (s.serve S request).2.clock.monotonic := by
  unfold Session.serve
  split
  next => exact Nat.le_add_right _ _
  all_goals
    split
    next => exact Nat.le_refl _
    next => exact Nat.le_refl _

/-- A run does not take time back. -/
theorem monotonic_le_run (s : Session α σ) (requests : List (Request α)) :
    s.clock.monotonic ≤ (s.run S requests).2.clock.monotonic := by
  induction requests generalizing s with
  | nil => exact Nat.le_refl _
  | cons request rest ih => exact Nat.le_trans (monotonic_le_serve s request) (ih _)

end Steps

/-! ## Ticks -/

/-- A tick of a collector that has not ended is a cycle, perhaps the final one, and a new
deadline. -/
theorem tick_of_not_closed {c : Collector α σ} (h : c.stage ≠ .closed) (S : Sink α σ)
    (now : Instant) :
    c.tick S now = ((c.beginTick.cycle S now false).afterCycle S now).endTick := by
  have hbegin : c.beginTick.stage ≠ .closed := h
  unfold tick
  dsimp only
  rw [if_neg hbegin]

/-- A tick of a collector that has ended has no cycle. -/
theorem tick_of_closed {c : Collector α σ} (h : c.stage = .closed) (S : Sink α σ)
    (now : Instant) : c.tick S now = c.beginTick.endTick := by
  have hbegin : c.beginTick.stage = .closed := h
  unfold tick
  dsimp only
  rw [if_pos hbegin]

/-! ## Invariants between cycles -/

/-- What whole cycles keep, and the little that happens between them. -/
structure RestInvariant (S : Sink α σ) (P : Collector α σ → Prop) : Prop where
  cycle : ∀ {c : Collector α σ} (now : Instant) (final : Bool), P c → P (c.cycle S now final)
  offer : ∀ {c : Collector α σ} (item : α), P c → P (c.offer item).2
  outside : ∀ {c : Collector α σ} (stage : Stage) (alarm : Alarm) (unreachable : Bool),
    P c → P { c with stage, alarm, unreachable }

/-- What every move keeps is kept between cycles. -/
theorem Invariant.rest {P : Bench α σ → Prop} (inv : Invariant P) (S : Sink α σ) :
    RestInvariant S fun c => P (none, c) where
  cycle now final h := inv.cycle h S now final
  offer item h := inv.toCycleInvariant.offer h item
  outside _ _ _ h := inv.outside _ _ _ h

namespace RestInvariant

variable {S : Sink α σ} {P : Collector α σ → Prop} (inv : RestInvariant S P) {c : Collector α σ}

include inv

/-- To start the alarm keeps what cycles keep. -/
theorem schedule (h : P c) (now : Instant) : P (c.schedule now) := by
  unfold Collector.schedule
  split
  next => exact inv.outside _ _ _ h
  next => exact h

/-- What follows a cycle keeps it. -/
theorem afterCycle (h : P c) (now : Instant) : P (c.afterCycle S now) := by
  unfold Collector.afterCycle
  split
  next => exact inv.cycle now true (inv.outside .closed _ _ h)
  next => exact h
  next => exact inv.schedule h now
  next => exact inv.schedule h now

/-- A tick keeps it. -/
theorem tick (h : P c) (now : Instant) : P (c.tick S now) := by
  -- Around the cycles of a tick only the alarm and the stage change.
  have hbegin : P c.beginTick := inv.outside _ _ _ h
  unfold Collector.tick
  refine inv.outside _ (Alarm.leave _) _ ?_
  split
  next => exact hbegin
  next => exact inv.afterCycle (inv.cycle now false hbegin) now

/-- A disposal from outside keeps it. -/
theorem dispose (h : P c) (now : Instant) : P (c.dispose S now) := by
  have hclosed : P { c with stage := .closed, alarm := c.alarm.dispose } := inv.outside _ _ _ h
  unfold Collector.dispose
  split
  next => exact hclosed
  next => exact inv.cycle now true hclosed
  next => exact h
  next => exact h

/-- An item from outside keeps it. -/
theorem emit (h : P c) (now : Instant) (item : α) : P (c.emit now item).2 := by
  unfold Collector.emit
  split
  next =>
    dsimp only
    split
    next => exact inv.outside _ _ _ (inv.offer item h)
    next => exact inv.outside _ _ _ (inv.offer item h)
  next => exact inv.offer item h

/-- Every step keeps it. -/
theorem step {m m' : Moment α σ} (h : P m.2) (hstep : Step S m m') : P m'.2 := by
  cases hstep with
  | waited => exact h
  | ticked c => exact inv.tick h _
  | emitted now c item => exact inv.emit h now item
  | disposed now c => exact inv.dispose h now
  | dropped now c => exact inv.dispose (inv.outside _ _ true h) now

/-- A run keeps it. -/
theorem run {s : Session α σ} (h : P s.collector) (requests : List (Request α)) :
    P (s.run S requests).2.collector :=
  (steps_run s requests).keep (P := fun m => P m.2) inv.step h

end RestInvariant

/-- What holds of the bench and is kept by moves and cycles holds after every run. -/
theorem Invariant.run {P : Bench α σ → Prop} (inv : Invariant P) {S : Sink α σ}
    {s : Session α σ} (h : P (none, s.collector)) (requests : List (Request α)) :
    P (none, (s.run S requests).2.collector) :=
  (inv.rest S).run h requests

end Courier.Collector
