import Courier.Proofs.Clock
import Courier.Proofs.Collector.Disposal

/-!
# The cycles of a run

A run of a collector has a transcript: the answers to the requests, and the cycles that begin while
the requests are answered, each with the collector as it is then. The commands of the sink are the
commands of these cycles.

> `steps_of_mem_startsInRun`: where the cycles of a run come from.

> `answered_run`: the items that were taken on, and those for which there was no room, are as many
> as the answers that said so.
-/

namespace Courier.Collector

variable {α σ : Type}

/-! ## Cycles that begin -/

/-- A cycle, and the collector as it begins. -/
structure Start (α σ : Type) where
  instant : Instant
  final : Bool
  collector : Collector α σ

/-- The commands of the sink in the cycle. -/
def Start.asked (S : Sink α σ) (start : Start α σ) : List (Asked α σ) :=
  askedInCycle S start.instant start.final start.collector

/-- The cycles of a tick. -/
def startsInTick (S : Sink α σ) (now : Instant) (c : Collector α σ) : List (Start α σ) :=
  if c.stage = .closed then []
  else
    let d := c.beginTick.cycle S now false
    ⟨now, false, c.beginTick⟩ ::
      if d.stage = .closing then [⟨now, true, { d with stage := .closed }⟩] else []

/-- The cycle of a disposal from outside. -/
def startsInDispose (now : Instant) (c : Collector α σ) : List (Start α σ) :=
  if c.stage = .active then [⟨now, true, c.shut⟩] else []

namespace Session

/-- The cycles that begin while time passes. -/
def startsInPass (S : Sink α σ) (s : Session α σ) (nanos : Nat) : List (Start α σ) :=
  ((ticks S).firings (s.clock.advance nanos).monotonic s.clock.monotonic s.collector).flatMap
    fun p => startsInTick S p.1 p.2

/-- The cycles that begin while a request is answered. -/
def startsInServe (S : Sink α σ) (s : Session α σ) : Request α → List (Start α σ)
  | .pass nanos => s.startsInPass S nanos
  | .emit item =>
    if s.dropped then []
    else { s with collector := (s.collector.emit s.clock.monotonic item).2 }.startsInPass S 0
  | .dispose =>
    if s.dropped then []
    else startsInDispose s.clock.monotonic s.collector ++
      { s with collector := s.collector.dispose S s.clock.monotonic }.startsInPass S 0
  | .drop =>
    if s.dropped then []
    else startsInDispose s.clock.monotonic { s.collector with unreachable := true } ++
      { s with
        collector := s.collector.drop S s.clock.monotonic
        dropped := true }.startsInPass S 0

/-- The cycles of a run. -/
def startsInRun (S : Sink α σ) (s : Session α σ) : List (Request α) → List (Start α σ)
  | [] => []
  | request :: rest => s.startsInServe S request ++ startsInRun S (s.serve S request).2 rest

/-- The commands of the sink in a run. -/
def askedInRun (S : Sink α σ) (s : Session α σ) (requests : List (Request α)) :
    List (Asked α σ) :=
  (s.startsInRun S requests).flatMap (Start.asked S)

end Session

/-! ## Where cycles begin -/

section Begun

variable {S : Sink α σ}

/-- What makes a cycle begin: a tick that is due, or a disposal from outside. -/
def Begins (S : Sink α σ) (now : Instant) (c : Collector α σ) (start : Start α σ) : Prop :=
  (∃ d, c.nextTick? = some d) ∧ start ∈ startsInTick S now c ∨
    start ∈ startsInDispose now c ∨ start ∈ startsInDispose now { c with unreachable := true }

/-- A cycle begins with a tick, behind the cycle of a tick that has closed the collector, or with a
disposal from outside. -/
theorem Begins.cases {now : Instant} {c : Collector α σ} {start : Start α σ}
    (h : Begins S now c start) :
    c.stage ≠ .closed ∧ start.collector = c.beginTick ∨
      start.collector = { c.beginTick.cycle S now false with stage := .closed } ∨
      start.collector = c.shut ∨ start.collector = { c with unreachable := true }.shut := by
  have hdispose {c : Collector α σ} (hmem : start ∈ startsInDispose now c) :
      start.collector = c.shut := by
    unfold startsInDispose at hmem
    split at hmem
    next => rw [List.mem_singleton.1 hmem]
    next => cases hmem
  rcases h with ⟨-, hmem⟩ | hmem | hmem
  · unfold startsInTick at hmem
    split at hmem
    next => cases hmem
    next hopen =>
      rcases List.mem_cons.1 hmem with rfl | hmem
      · exact .inl ⟨hopen, rfl⟩
      · split at hmem
        next => exact .inr (.inl (by rw [List.mem_singleton.1 hmem]))
        next => cases hmem
  · exact .inr (.inr (.inl (hdispose hmem)))
  · exact .inr (.inr (.inr (hdispose hmem)))

/-- What holds between calls of the sink holds where a cycle begins. -/
theorem RestInvariant.begins {P : Collector α σ → Prop} (inv : RestInvariant S P) {now : Instant}
    {c : Collector α σ} {start : Start α σ} (h : P c) (hbegins : Begins S now c start) :
    P start.collector := by
  rcases hbegins.cases with ⟨-, hstart⟩ | hstart | hstart | hstart
  · rw [hstart]
    exact inv.outside _ _ _ h
  · rw [hstart]
    exact inv.outside _ _ _ (inv.cycle now false (inv.outside _ _ _ h))
  · rw [hstart]
    exact inv.outside _ _ _ h
  · rw [hstart]
    exact inv.outside _ _ _ (inv.outside _ _ true h)

/-- A cycle begins with a collector that its sink can reach, unless it is the final one. -/
theorem open_of_begins {first c : Collector α σ} {now : Instant} {start : Start α σ}
    (hrest : Resting first c) (hreach : first.unreachable = false)
    (hbegins : Begins S now c start) :
    start.collector.Disposed ∨ start.collector.unreachable = false := by
  rcases hbegins.cases with ⟨hopen, hstart⟩ | hstart | hstart | hstart
  · rw [hstart]
    right
    show c.unreachable = false
    cases hstage : c.stage with
    | fresh =>
      rw [hrest.fresh hstage]
      exact hreach
    | active => exact (hrest.active hstage).1
    | closing => exact absurd hstage hrest.not_closing
    | closed => exact absurd hstage hopen
  · rw [hstart]
    exact .inl (.inr rfl)
  · rw [hstart]
    exact .inl (.inr rfl)
  · rw [hstart]
    exact .inl (.inr rfl)

/-- A cycle that begins in a state that can be reached from `m`. -/
def Reached (S : Sink α σ) (m : Moment α σ) (start : Start α σ) : Prop :=
  ∃ now c, Steps S m (now, c) ∧ Begins S now c start

/-- What can be reached from later on can be reached from before. -/
theorem Reached.of_steps {m m' : Moment α σ} {start : Start α σ} (hsteps : Steps S m m')
    (h : Reached S m' start) : Reached S m start := by
  obtain ⟨now, c, hreached, hbegins⟩ := h
  exact ⟨now, c, hsteps.trans hreached, hbegins⟩

/-- The ticks that are due while time passes can be reached by steps. -/
theorem steps_of_mem_firings {limit now : Instant} {c : Collector α σ} {p : Instant × Collector α σ}
    (hp : p ∈ (ticks S).firings limit now c) :
    Steps S (now, c) p ∧ ∃ d, p.2.nextTick? = some d := by
  fun_induction (ticks S).firings limit now c with
  | case1 now c hnone => cases hp
  | case2 now c d hdue hd ih =>
    have hlater := Instant.nanos_later now d
    have hnow : now ≤ now.later d := by
      rw [Instant.le_iff]
      omega
    have hcome : d ≤ now.later d := by
      rw [Instant.le_iff]
      omega
    rcases List.mem_cons.1 hp with rfl | hp
    · exact ⟨.single (.waited c hnow), d, hdue⟩
    · obtain ⟨hsteps, hnext⟩ := ih hp
      exact ⟨.head (.waited c hnow) (.head (.ticked c hdue hcome) hsteps), hnext⟩
  | case3 now c d hdue hd => cases hp

theorem reached_of_mem_startsInPass {s : Session α σ} {nanos : Nat} {start : Start α σ}
    (h : start ∈ s.startsInPass S nanos) : Reached S (s.clock.monotonic, s.collector) start := by
  obtain ⟨p, hp, hstart⟩ := List.mem_flatMap.1 h
  obtain ⟨hsteps, hdue⟩ := steps_of_mem_firings hp
  exact ⟨p.1, p.2, hsteps, .inl ⟨hdue, hstart⟩⟩

theorem reached_of_mem_startsInServe {s : Session α σ} {request : Request α} {start : Start α σ}
    (h : start ∈ s.startsInServe S request) :
    Reached S (s.clock.monotonic, s.collector) start := by
  unfold Session.startsInServe at h
  split at h
  next => exact reached_of_mem_startsInPass h
  next item =>
    split at h
    next => cases h
    next => exact .of_steps (.single (.emitted _ _ item)) (reached_of_mem_startsInPass h)
  next =>
    split at h
    next => cases h
    next =>
      rcases List.mem_append.1 h with h | h
      · exact ⟨_, _, .refl, .inr (.inl h)⟩
      · exact .of_steps (.single (.disposed _ _)) (reached_of_mem_startsInPass h)
  next =>
    split at h
    next => cases h
    next =>
      rcases List.mem_append.1 h with h | h
      · exact ⟨_, _, .refl, .inr (.inr h)⟩
      · exact .of_steps (.single (.dropped _ _)) (reached_of_mem_startsInPass h)

/-- Every cycle of a run begins in a state that the collector has reached by steps. -/
theorem reached_of_mem_startsInRun {s : Session α σ} {requests : List (Request α)}
    {start : Start α σ} (h : start ∈ s.startsInRun S requests) :
    Reached S (s.clock.monotonic, s.collector) start := by
  induction requests generalizing s with
  | nil => cases h
  | cons request rest ih =>
    rcases List.mem_append.1 h with h | h
    · exact reached_of_mem_startsInServe h
    · exact .of_steps (steps_serve s request) (ih h)

end Begun

/-! ## Answers -/

/-- How many items were taken on, or found no room. -/
def answered (c : Collector α σ) : Nat := c.stats.emitted + c.stats.droppedOnOverflow

/-- Whether a command was to emit an item, and was answered without a failure. -/
def Asked.isOk (x : Asked α σ) : Bool :=
  match x.reply with
  | .emitted (some result) => result.isOk
  | _ => false

/-- Whether a request was to emit an item, and was answered without a failure. -/
def Answer.isOk : Answer → Bool
  | .emitted result => result.isOk
  | _ => false

/-- How many commands of the cycles emit an item and are answered without a failure. -/
def okCount (S : Sink α σ) (starts : List (Start α σ)) : Nat :=
  (starts.flatMap (Start.asked S)).countP Asked.isOk

section Answers

variable {S : Sink α σ}

/-- Answers can be counted part by part. -/
theorem okCount_append (starts more : List (Start α σ)) :
    okCount S (starts ++ more) = okCount S starts + okCount S more := by
  unfold okCount
  rw [List.flatMap_append, List.countP_append]

/-- The answers in one cycle are those to its commands. -/
theorem okCount_singleton (start : Start α σ) :
    okCount S [start] = (start.asked S).countP Asked.isOk := by
  unfold okCount
  rw [List.flatMap_singleton]

/-- An offer that does not fail is answered, whether there is room or not. -/
theorem answered_offer (c : Collector α σ) (item : α) :
    (c.offer item).2.answered = c.answered + (c.offer item).1.isOk.toNat := by
  unfold offer Backlog.offer
  by_cases hfull : c.backlog.isFull = true
  · cases c.stage <;> simp [hfull, answered, stats, note, Except.isOk, Except.toBool, Nat.add_assoc]
  · cases c.stage <;>
      simp [hfull, answered, stats, note, Except.isOk, Except.toBool, Nat.add_right_comm]

/-- A command is answered if it is an offer that does not fail. -/
theorem answered_obey (c : Collector α σ) (command : Sink.Command α) :
    (c.obey command).2.answered = c.answered + (Asked.isOk ⟨command, c⟩).toNat := by
  have hclose : c.requestClose.answered = c.answered := by
    unfold requestClose
    split <;> rfl
  unfold Asked.isOk Asked.reply obey
  by_cases hreach : c.unreachable = true
  · rw [if_pos hreach]
    cases command <;> rfl
  · rw [if_neg hreach]
    cases command with
    | emit item => exact answered_offer c item
    | dispose => exact hclose
    | stats => rfl

theorem toNat_eq_ite (b : Bool) : b.toNat = if b then 1 else 0 := by
  cases b <;> rfl

/-- Commands are answered one by one. -/
theorem answered_obeyAll (c : Collector α σ) (commands : List (Sink.Command α)) :
    (c.obeyAll commands).2.answered = c.answered + (c.asked commands).countP Asked.isOk := by
  induction commands generalizing c with
  | nil => rfl
  | cons command rest ih =>
    show ((c.obey command).2.obeyAll rest).2.answered = _
    rw [ih, answered_obey, asked, List.countP_cons, toNat_eq_ite]
    omega

/-- A call of the sink is answered for by its commands. -/
theorem answered_turn (S : Sink α σ) (now : Instant) (c : Collector α σ) :
    (turn S now c).collector.answered = c.answered + (askedInTurn S c).countP Asked.isOk := by
  obtain ⟨entry, hturn⟩ := turn_completes S now c
  have hcalled : (nextCall S c).1.answered = c.answered := by
    unfold nextCall
    split
    next item backlog hnext =>
      obtain ⟨-, -, hbacklog⟩ := nextItem?_eq_some hnext
      rw [hbacklog]
      rfl
    next => rfl
  have hsame : (turn S now c).collector.answered = (afterCommands S c).answered := by
    unfold answered stats
    dsimp only
    rw [hturn.emitted, hturn.backlog]
  rw [hsame, ← hcalled]
  exact answered_obeyAll _ _

/-- The calls until the cycle is over are answered for by all commands in them. -/
theorem answered_work (S : Sink α σ) (now : Instant) (c : Collector α σ) :
    (work S now c).2.answered = c.answered + (askedInWork S now c).countP Asked.isOk := by
  fun_induction work S now c with
  | case1 c d hturn ih =>
    have hanswered := answered_turn S now c
    rw [hturn] at hanswered
    rw [ih, show d.answered = _ from hanswered, askedInWork_of_again hturn, List.countP_append,
      Nat.add_assoc]
  | case2 c ok d hturn =>
    have hanswered := answered_turn S now c
    rw [hturn] at hanswered
    rw [askedInWork_of_ended hturn]
    exact hanswered

/-- The end of a cycle answers nothing. -/
theorem answered_conclude (ok : Bool) (c : Collector α σ) :
    (conclude ok c).answered = c.answered := by
  have hafter := eq_conclude (fun d : Collector α σ => d.answered)
    (fun d => by unfold dropBatch; split <;> rfl) (fun d => by unfold dropBacklog; split <;> rfl)
    (fun _ => rfl) ok c
  refine hafter.trans ?_
  cases ok <;> rfl

/-- A cycle is answered for by the commands in it. -/
theorem answered_cycle (S : Sink α σ) (start : Start α σ) :
    (start.collector.cycle S start.instant start.final).answered =
      start.collector.answered + okCount S [start] := by
  rw [okCount_singleton]
  exact (answered_conclude _ _).trans (answered_work S start.instant _)

/-- A tick is answered for by the cycles in it. -/
theorem answered_tick (S : Sink α σ) (now : Instant) (c : Collector α σ) :
    (c.tick S now).answered = c.answered + okCount S (startsInTick S now c) := by
  have hschedule (d : Collector α σ) : (d.schedule now).answered = d.answered := by
    unfold schedule
    split <;> rfl
  have hfirst := answered_cycle S ⟨now, false, c.beginTick⟩
  unfold startsInTick
  by_cases hclosed : c.stage = .closed
  · rw [tick_of_closed hclosed, if_pos hclosed]
    rfl
  · rw [tick_of_not_closed hclosed, if_neg hclosed]
    show ((c.beginTick.cycle S now false).afterCycle S now).answered = _
    dsimp only at hfirst ⊢
    rw [← List.singleton_append, okCount_append, ← Nat.add_assoc]
    rw [show c.answered = c.beginTick.answered from rfl, ← hfirst]
    -- The final cycle follows if the sink has disposed the collector in the first one.
    generalize c.beginTick.cycle S now false = d
    unfold afterCycle
    cases hstage : d.stage with
    | closing => exact answered_cycle S ⟨now, true, { d with stage := .closed }⟩
    | closed => rfl
    | fresh => exact hschedule d
    | active => exact hschedule d

theorem answered_dispose (S : Sink α σ) (now : Instant) (c : Collector α σ) :
    (c.dispose S now).answered = c.answered + okCount S (startsInDispose now c) := by
  unfold Collector.dispose startsInDispose
  cases hstage : c.stage with
  | active => exact answered_cycle S ⟨now, true, c.shut⟩
  | fresh => rfl
  | closing => rfl
  | closed => rfl

theorem answered_pass (S : Sink α σ) (s : Session α σ) (nanos : Nat) :
    (s.pass S nanos).collector.answered =
      s.collector.answered + okCount S (s.startsInPass S nanos) := by
  have hsum := (ticks S).sum_firings (answered_tick S) (s.clock.advance nanos).monotonic
    s.clock.monotonic s.collector
  have hcount (firings : List (Instant × Collector α σ)) :
      okCount S (firings.flatMap fun p => startsInTick S p.1 p.2) =
        (firings.map fun p => okCount S (startsInTick S p.1 p.2)).sum := by
    induction firings with
    | nil => rfl
    | cons p rest ih => rw [List.flatMap_cons, okCount_append, ih, List.map_cons, List.sum_cons]
  unfold Session.startsInPass
  rw [hcount]
  exact hsum

/-- The alarm of a new collector can be started wherever the clock can show the time. -/
theorem emit_eq_offer {c : Collector α σ} {now : Instant} (shown : now.Shown)
    (hfresh : c.stage = .fresh → c.alarm.disposing = false) (item : α) :
    (c.emit now item).1 = (c.offer item).1 ∧
      (c.emit now item).2.answered = (c.offer item).2.answered := by
  unfold Collector.emit
  split
  next hstage =>
    have halarm : (c.offer item).2.alarm = c.alarm := by
      rcases offer_cases c item with h | ⟨-, ⟨-, h⟩ | ⟨-, h⟩⟩ <;> (rw [h]; try rfl)
    unfold Alarm.start
    dsimp only
    rw [Instant.after?_zero shown, halarm, hfresh hstage]
    exact ⟨rfl, rfl⟩
  next => exact ⟨rfl, rfl⟩

/-- A collector to which nothing has happened has an alarm that can be started. -/
theorem disposing_of_fresh {settings : BatchSettings} {sink : σ} {clock : Clock}
    {first s : Session α σ} (h : Session.create settings sink clock = .ok first)
    (hsteps : Steps S (clock.monotonic, first.collector) (s.clock.monotonic, s.collector))
    (hstage : s.collector.stage = .fresh) : s.collector.alarm.disposing = false := by
  rw [(resting_of_steps h hsteps).fresh hstage]
  obtain ⟨valid, rfl⟩ := Session.eq_of_create h
  rfl

/-- A request is answered for by its own answer and by the commands in the cycles that it makes
due. -/
theorem answered_serve {s : Session α σ} (shown : s.clock.monotonic.Shown)
    (hfresh : s.collector.stage = .fresh → s.collector.alarm.disposing = false)
    (request : Request α) :
    (s.serve S request).2.collector.answered = s.collector.answered +
      (s.serve S request).1.isOk.toNat + okCount S (s.startsInServe S request) := by
  unfold Session.serve Session.startsInServe
  cases request with
  | pass nanos => exact answered_pass S s nanos
  | emit item =>
    dsimp only
    split
    next => rfl
    next =>
      obtain ⟨hresult, hanswered⟩ := emit_eq_offer shown hfresh item
      refine (answered_pass S _ 0).trans ?_
      show (s.collector.emit s.clock.monotonic item).2.answered + _ =
        _ + (s.collector.emit s.clock.monotonic item).1.isOk.toNat + _
      rw [hresult, hanswered, answered_offer]
  | dispose =>
    dsimp only
    split
    next => rfl
    next =>
      refine (answered_pass S _ 0).trans ?_
      rw [answered_dispose, okCount_append, Nat.add_assoc]
      rfl
  | drop =>
    dsimp only
    split
    next => rfl
    next =>
      refine (answered_pass S _ 0).trans ?_
      unfold Collector.drop
      rw [answered_dispose, okCount_append, Nat.add_assoc]
      rfl

/-- The items that were taken on, and those for which there was no room, are as many as the answers
that said so. -/
theorem answered_run {settings : BatchSettings} {sink : σ} {clock : Clock} {first s : Session α σ}
    (h : Session.create settings sink clock = .ok first)
    (hsteps : Steps S (clock.monotonic, first.collector) (s.clock.monotonic, s.collector))
    (requests : List (Request α)) (shown : (s.run S requests).2.clock.monotonic.Shown) :
    (s.run S requests).2.collector.answered = s.collector.answered +
      (s.run S requests).1.countP Answer.isOk + okCount S (s.startsInRun S requests) := by
  induction requests generalizing s with
  | nil => rfl
  | cons request rest ih =>
    have hbefore := shown.of_le (monotonic_le_run (S := S) s (request :: rest))
    have hserve := answered_serve (S := S) hbefore (disposing_of_fresh h hsteps) request
    have hrest := ih (hsteps.trans (steps_serve s request)) shown
    show ((s.serve S request).2.run S rest).2.collector.answered = s.collector.answered +
      ((s.serve S request).1 :: ((s.serve S request).2.run S rest).1).countP Answer.isOk +
        okCount S (s.startsInServe S request ++ (s.serve S request).2.startsInRun S rest)
    rw [hrest, hserve, okCount_append, List.countP_cons, toNat_eq_ite]
    omega

end Answers

end Courier.Collector
