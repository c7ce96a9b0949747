import Courier.Collector.Script
import Courier.Proofs.Clock
import Courier.Proofs.Collector.Counters
import Courier.Proofs.Collector.Stage

/-!
# The schedule of a collector

A collector ticks at once when it takes the first item on, and from then on each tick sets the
alarm for the next one. The wait in between depends on the streak of failures alone, and that is
what the journal tells: not on what the sink did in its calls, nor on what was emitted meanwhile.

> `begun_tick`: a tick keeps to the schedule, whatever the sink does.

> `onSchedule_run`: in every run the ticks are on time, and at rest a collector that has not ended
> waits for the next of them.
-/

namespace Courier.Collector

variable {α σ : Type} {settings : BatchSettings} {first : Instant}

/-! ## Ticks in the journal -/

/-- The instant of a tick. A final cycle is none. -/
def Entry.tick? : Entry α → Option Instant
  | .cycleBegan instant false => some instant
  | _ => none

/-- The ticks that a journal tells, latest first. -/
def ticksOf (journal : List (Entry α)) : List Instant := journal.filterMap Entry.tick?

/-- The pace of a collector with this journal. -/
def paceAfter (settings : BatchSettings) (journal : List (Entry α)) : Pacing where
  period := settings.period
  policy := settings.backoff
  failures := failuresAfter 0 journal

/-- When the next tick is due: `first`, or the wait after the last one. -/
def dueAfter (settings : BatchSettings) (first : Instant) (journal : List (Entry α)) : Instant :=
  match ticksOf journal with
  | [] => first
  | last :: _ => last.after (paceAfter settings journal).wait

/-- A tick comes when it is due. -/
def Entry.OnTime (settings : BatchSettings) (first : Instant) :
    Entry α → List (Entry α) → Prop
  | .cycleBegan instant false, earlier => instant = dueAfter settings first earlier
  | _, _ => True

/-- What is no tick is passed over. -/
theorem ticksOf_cons {entry : Entry α} (h : entry.tick? = none) (journal : List (Entry α)) :
    ticksOf (entry :: journal) = ticksOf journal := by
  unfold ticksOf
  rw [List.filterMap_cons, h]

/-- It is always on time. -/
theorem Entry.onTime_of_tick? {entry : Entry α} (h : entry.tick? = none)
    (earlier : List (Entry α)) : entry.OnTime settings first earlier := by
  unfold Entry.OnTime
  split
  next => cases h
  next => trivial

/-- Before the first tick, that one is due. -/
theorem dueAfter_of_nil {journal : List (Entry α)} (h : ticksOf journal = []) :
    dueAfter settings first journal = first := by
  unfold dueAfter
  rw [h]

/-- After a tick the next one is due when the wait is over. -/
theorem dueAfter_of_head? {journal : List (Entry α)} {last : Instant}
    (h : (ticksOf journal).head? = some last) :
    dueAfter settings first journal = last.after (paceAfter settings journal).wait := by
  unfold dueAfter
  split
  next hnone => rw [hnone] at h; cases h
  next hcons => rw [hcons] at h; cases h; rfl

/-- What is no tick and does not concern the streak of failures leaves the next tick as it is. -/
theorem dueAfter_cons (settings : BatchSettings) (first : Instant) {entry : Entry α}
    (htick : entry.tick? = none) (hd : entry.isDelivery = false) (hf : entry.isFailure = false)
    (journal : List (Entry α)) :
    dueAfter settings first (entry :: journal) = dueAfter settings first journal := by
  unfold dueAfter paceAfter
  rw [ticksOf_cons htick, failuresAfter_cons hd hf]

/-! ## Within a cycle -/

/-- The stage and the alarm of a collector that has ended. -/
structure Ended (stage : Stage) (alarm : Alarm) : Prop where
  stage : stage = .closing ∨ stage = .closed
  disposing : alarm.disposing = true

/-- How a collector stands during a cycle. It goes on with the alarm that it had when the cycle
began, if it had not ended then; or it has ended. -/
structure InCycle (settings : BatchSettings) (first : Instant) (last : Option Instant)
    (alarm : Option Alarm) (b : Bench α σ) : Prop where
  fixed : b.2.settings = settings
  onTime : Throughout (Entry.OnTime settings first) b.2.journal
  last : (ticksOf b.2.journal).head? = last
  standing : b.2.stage = .active ∧ some b.2.alarm = alarm ∨ Ended b.2.stage b.2.alarm

/-- An entry that is no tick leaves the collector in its cycle. -/
theorem InCycle.note {last : Option Instant} {alarm : Option Alarm} {hand hand' : Option α}
    {c d : Collector α σ} {entry : Entry α} (h : InCycle settings first last alarm (hand, c))
    (hjournal : d.journal = entry :: c.journal) (htick : entry.tick? = none)
    (hsettings : d.settings = c.settings) (hstage : d.stage = c.stage)
    (halarm : d.alarm = c.alarm) : InCycle settings first last alarm (hand', d) := by
  refine ⟨hsettings.trans h.fixed, ?_, ?_, ?_⟩
  · show Throughout _ d.journal
    rw [hjournal]
    exact h.onTime.cons (Entry.onTime_of_tick? htick _)
  · show (ticksOf d.journal).head? = last
    rw [hjournal, ticksOf_cons htick]
    exact h.last
  · rcases h.standing with ⟨hactive, hsame⟩ | ⟨hended, hdisposing⟩
    · exact .inl ⟨hstage.trans hactive, halarm ▸ hsame⟩
    · exact .inr ⟨hstage ▸ hended, halarm ▸ hdisposing⟩

/-- Nothing in a cycle disturbs the schedule. -/
theorem inCycle_invariant (settings : BatchSettings) (first : Instant) (last : Option Instant)
    (alarm : Option Alarm) :
    CycleInvariant (α := α) (σ := σ) (InCycle settings first last alarm) where
  move h hmove := by
    cases hmove with
    | advanced => exact ⟨h.fixed, h.onTime, h.last, h.standing⟩
    | accepted hand c item => exact h.note rfl rfl rfl rfl rfl
    | refused hand c item => exact h.note rfl rfl rfl rfl rfl
    | closing hand c =>
      exact ⟨h.fixed, h.onTime, h.last, .inr ⟨.inl rfl, c.alarm.disposing_dispose⟩⟩
    | picked => exact ⟨h.fixed, h.onTime, h.last, h.standing⟩
    | kept c item => exact h.note rfl rfl rfl rfl rfl
    | rejected c item => exact h.note rfl rfl rfl rfl rfl
    | panicked c now item => exact h.note rfl rfl rfl rfl rfl
    | delivered c now replies => exact h.note rfl rfl rfl rfl rfl
    | undelivered c now replies outcome => exact h.note rfl rfl rfl rfl rfl
    | idled c now replies outcome => exact h.note rfl rfl rfl rfl rfl
  recordFailure h _ := h.note rfl rfl rfl rfl rfl
  dropBatch h := by
    unfold dropBatch
    split
    next => exact h.note rfl rfl rfl rfl rfl
    next => exact h
  dropBacklog h _ := by
    unfold dropBacklog
    split
    next => exact h.note rfl rfl rfl rfl rfl
    next => exact h
  takeStock h := ⟨h.fixed, h.onTime, h.last, h.standing⟩

/-! ## Between cycles -/

/-- A collector that waits for the next tick. -/
structure Waiting (settings : BatchSettings) (first now : Instant) (c : Collector α σ) : Prop where
  stage : c.stage = .active
  phase : c.alarm.phase = .armed
  disposing : c.alarm.disposing = false
  due : c.alarm.due = some (dueAfter settings first c.journal)
  ahead : now ≤ dueAfter settings first c.journal
  begun : first ≤ now

/-- A collector whose ticks were on time, outside its cycles. -/
structure Punctual (settings : BatchSettings) (first : Instant) (c : Collector α σ) : Prop where
  fixed : c.settings = settings
  onTime : Throughout (Entry.OnTime settings first) c.journal
  streak : Streak 0 [] (none, c)
  counted : c.tally.consecutiveFailures = c.failures.toNat

/-- A collector that began at `first`, outside its cycles. -/
structure Begun (settings : BatchSettings) (first now : Instant) (c : Collector α σ) : Prop
    extends Punctual settings first c where
  standing : Waiting settings first now c ∨ Ended c.stage c.alarm

/-- A collector that has not taken an item on yet. -/
structure Unbegun (settings : BatchSettings) (first : Instant) (c : Collector α σ) : Prop
    extends Punctual settings first c where
  stage : c.stage = .fresh
  alarm : c.alarm = { name := "periodic-batcher" }
  unticked : ticksOf c.journal = []

/-- A collector that waits has the tick that its journal makes due. -/
theorem Waiting.nextTick? {now : Instant} {c : Collector α σ} (h : Waiting settings first now c) :
    c.nextTick? = some (dueAfter settings first c.journal) := by
  unfold Collector.nextTick? Alarm.deadline?
  rw [h.disposing, h.due]
  rfl

/-- The pace of a collector follows from its journal. -/
theorem pacing_eq {c : Collector α σ} (hfixed : c.settings = settings)
    (hstreak : Streak 0 [] (none, c)) : c.pacing = paceAfter settings c.journal := by
  obtain ⟨entries, hjournal, hfailures⟩ := hstreak
  dsimp only at hjournal hfailures
  rw [List.append_nil] at hjournal
  unfold pacing paceAfter
  rw [hfixed, hfailures, hjournal]

/-- A cycle leaves the statistics of its failures. -/
theorem counted_cycle (S : Sink α σ) (now : Instant) (final : Bool) (c : Collector α σ) :
    (c.cycle S now final).tally.consecutiveFailures = (c.cycle S now final).failures.toNat := rfl

/-- A final cycle leaves a collector that has ended. -/
theorem begun_final {c : Collector α σ} (hfixed : c.settings = settings)
    (honTime : Throughout (Entry.OnTime settings first) c.journal) (hstreak : Streak 0 [] (none, c))
    (hended : Ended c.stage c.alarm) (S : Sink α σ) (instant now : Instant) :
    Begun settings first now (c.cycle S instant true) := by
  have hcycle := (inCycle_invariant settings first (ticksOf c.journal).head? none).cycle S instant
    true (c := c) ⟨hfixed, honTime.cons trivial, rfl, .inr hended⟩
  refine ⟨⟨hcycle.fixed, hcycle.onTime, (streak_invariant 0 []).cycle hstreak S instant true, rfl⟩,
    ?_⟩
  rcases hcycle.standing with ⟨-, hnone⟩ | hended
  · cases hnone
  · exact .inr hended

/-- The return of the callback changes no deadline. -/
theorem Begun.endTick {now : Instant} {c : Collector α σ} (h : Begun settings first now c) :
    Begun settings first now c.endTick := by
  refine ⟨⟨h.fixed, h.onTime, h.streak, h.counted⟩, ?_⟩
  rcases h.standing with hwaiting | hended
  · refine .inl ⟨hwaiting.stage, ?_, hwaiting.disposing, hwaiting.due, hwaiting.ahead,
      hwaiting.begun⟩
    show (if c.alarm.disposing then Alarm.Phase.disposed
      else if c.alarm.due.isSome then .armed else .idle) = .armed
    rw [hwaiting.disposing, hwaiting.due]
    rfl
  · exact .inr ⟨hended.stage, hended.disposing⟩

/-- The alarm that is set at the end of a tick, and how it looks once its callback has returned. -/
theorem leave_start {a : Alarm} {now : Instant} {wait : Span} (hphase : a.phase = .running)
    (hdisposing : a.disposing = false) (room : now.HasRoom)
    (hwait : wait.toNanos ≤ UInt64.size * nanosPerMilli) :
    ∃ b, a.start now wait = .ok b ∧ b.leave.phase = .armed ∧ b.leave.disposing = false ∧
      b.leave.due = some (now.after wait) := by
  unfold Alarm.start
  rw [Instant.after?_of_hasRoom room hwait]
  simp [hdisposing, hphase, Alarm.leave]

/-- A tick keeps to the schedule, whatever the sink does. -/
theorem begun_tick {now d : Instant} {c : Collector α σ} (h : Begun settings first now c)
    (hdue : c.nextTick? = some d) (room : d.HasRoom) (S : Sink α σ) :
    Begun settings first (now.later d) (c.tick S (now.later d)) := by
  rcases h.standing with hwaiting | hended
  case inr =>
    -- A collector that has ended has no next tick.
    unfold nextTick? Alarm.deadline? at hdue
    rw [hended.disposing, if_pos rfl] at hdue
    cases hdue
  -- The tick comes exactly when it is due.
  have hd : d = dueAfter settings first c.journal :=
    Option.some.inj (hdue.symm.trans hwaiting.nextTick?)
  have hnow : now.later d = d := by
    unfold Instant.later
    rw [if_pos (hd ▸ hwaiting.ahead)]
  rw [hnow]
  have hbegan : InCycle settings first (some d) (some c.alarm.enter)
      (none, c.beginTick.note (.cycleBegan d false)) :=
    ⟨h.fixed, h.onTime.cons hd, rfl, .inl ⟨hwaiting.stage, rfl⟩⟩
  have hcycle := (inCycle_invariant ..).cycle S d false hbegan
  have hstreak : Streak 0 [] (none, c.beginTick.cycle S d false) :=
    (streak_invariant 0 []).cycle (c := c.beginTick) h.streak S d false
  have hcounted := counted_cycle S d false c.beginTick
  have hopen : c.stage ≠ .closed := by
    rw [hwaiting.stage]
    nofun
  rw [tick_of_not_closed hopen]
  generalize c.beginTick.cycle S d false = e at hcycle hstreak hcounted ⊢
  obtain ⟨hfixed, honTime, hlast, hstanding⟩ := hcycle
  dsimp only at hfixed honTime hlast hstanding
  unfold afterCycle
  rcases hstanding with ⟨hstage, halarm⟩ | hended
  case inl =>
    -- The collector goes on, and the alarm is set for the next tick.
    obtain ⟨hphase, hdisposing⟩ : e.alarm.phase = .running ∧ e.alarm.disposing = false := by
      rw [Option.some.inj halarm]
      exact ⟨rfl, hwaiting.disposing⟩
    obtain ⟨alarm, hstart, hphase, hdisposing, hdue⟩ := leave_start hphase hdisposing room
      (settings.wait_le e.failures)
    have hpacing : e.pacing = ⟨settings.period, settings.backoff, e.failures⟩ := by
      unfold pacing
      rw [hfixed]
    have hwait : dueAfter settings first e.journal = d.after e.pacing.wait := by
      rw [dueAfter_of_head? hlast, pacing_eq hfixed hstreak]
    rw [← hpacing] at hstart hdue
    unfold schedule
    rw [hstage, hstart]
    refine ⟨⟨hfixed, honTime, hstreak, hcounted⟩, .inl ⟨rfl, hphase, hdisposing, ?_, ?_, ?_⟩⟩
    · rw [← hwait] at hdue
      exact hdue
    · show d ≤ dueAfter settings first e.journal
      rw [hwait]
      exact Nat.le_add_right _ _
    · exact Nat.le_trans hwaiting.begun (hd ▸ hwaiting.ahead)
  case inr =>
    -- The sink has disposed the collector; the final cycle follows.
    refine Begun.endTick ?_
    rcases hended.stage with hclosing | hclosed
    · rw [hclosing]
      exact begun_final (c := { e with stage := .closed }) hfixed honTime hstreak
        ⟨.inr rfl, hended.disposing⟩ S d d
    · rw [hclosed]
      exact ⟨⟨hfixed, honTime, hstreak, hcounted⟩, .inr hended⟩

/-! ## Requests -/

/-- While time passes the collector keeps to its schedule, and the next tick lies ahead. -/
theorem begun_runUntil {now limit : Instant} {c : Collector α σ}
    (h : Begun settings first now c) (hlimit : now ≤ limit) (room : limit.HasRoom) (S : Sink α σ) :
    Begun settings first limit ((ticks S).runUntil limit now c) := by
  obtain ⟨t, hrun, htime⟩ := (ticks S).runUntil_invariant
    (P := fun t c => Begun settings first t c ∧ t ≤ limit) (fun {t d c} ht hdue hd => by
      refine ⟨begun_tick ht.1 hdue (room.of_le hd) S, ?_⟩
      rw [Instant.le_iff, Instant.nanos_later]
      exact Nat.max_le.2 ⟨ht.2, hd⟩) ⟨h, hlimit⟩
  have hnext (d : Instant) (hd : ((ticks S).runUntil limit now c).nextTick? = some d) : limit < d :=
    (ticks S).due_runUntil hd
  generalize (ticks S).runUntil limit now c = e at hrun hnext ⊢
  refine ⟨hrun.toPunctual, ?_⟩
  rcases hrun.standing with hwaiting | hended
  · -- No tick up to the limit is left, so the next one lies beyond it.
    refine .inl ⟨hwaiting.stage, hwaiting.phase, hwaiting.disposing, hwaiting.due, ?_, ?_⟩
    · exact Nat.le_of_lt (hnext _ hwaiting.nextTick?)
    · exact Nat.le_trans hwaiting.begun htime
  · exact .inr hended

/-- An entry that is noted between cycles does not disturb the schedule. -/
theorem Punctual.note {c d : Collector α σ} (h : Punctual settings first c) (entry : Entry α)
    (hjournal : d.journal = entry :: c.journal) (htick : entry.tick? = none)
    (hdelivery : entry.isDelivery = false) (hfailure : entry.isFailure = false)
    (hsettings : d.settings = c.settings) (hfailures : d.failures = c.failures)
    (hcounted : d.tally.consecutiveFailures = c.tally.consecutiveFailures) :
    Punctual settings first d where
  fixed := hsettings.trans h.fixed
  onTime := by
    rw [hjournal]
    exact h.onTime.cons (Entry.onTime_of_tick? htick _)
  streak := h.streak.note hjournal hfailures hdelivery hfailure
  counted := by rw [hcounted, hfailures, h.counted]

/-- An offer does not disturb the schedule. -/
theorem begun_offer {now : Instant} {c : Collector α σ} (h : Begun settings first now c)
    (item : α) : Begun settings first now (c.offer item).2 := by
  have hnoted {d : Collector α σ} (hpunctual : Punctual settings first d)
      (hstage : d.stage = c.stage) (halarm : d.alarm = c.alarm)
      (hdue : dueAfter settings first d.journal = dueAfter settings first c.journal) :
      Begun settings first now d := by
    refine ⟨hpunctual, ?_⟩
    rcases h.standing with ⟨hs, hphase, hdisposing, hd, hahead, hbegun⟩ | hended
    · refine .inl ⟨hstage.trans hs, ?_, ?_, ?_, ?_, hbegun⟩
      · rw [halarm]; exact hphase
      · rw [halarm]; exact hdisposing
      · rw [halarm, hdue]; exact hd
      · rw [hdue]; exact hahead
    · rw [hstage, halarm]
      exact .inr hended
  rcases offer_cases c item with hsame | ⟨-, ⟨-, haccept⟩ | ⟨-, hrefuse⟩⟩
  · rw [hsame]
    exact h
  · rw [haccept]
    exact hnoted (h.note (.accepted item) rfl rfl rfl rfl rfl rfl rfl) rfl rfl
      (dueAfter_cons settings first rfl rfl rfl c.journal)
  · rw [hrefuse]
    exact hnoted (h.note (.refused item) rfl rfl rfl rfl rfl rfl rfl) rfl rfl
      (dueAfter_cons settings first rfl rfl rfl c.journal)

/-- Nor does an item from outside, once the collector has begun. -/
theorem begun_emit {now : Instant} {c : Collector α σ} (h : Begun settings first now c)
    (instant : Instant) (item : α) : Begun settings first now (c.emit instant item).2 := by
  unfold Collector.emit
  split
  next hfresh =>
    rcases h.standing with hwaiting | hended
    · rw [hwaiting.stage] at hfresh
      cases hfresh
    · rw [hfresh] at hended
      rcases hended.stage with hs | hs <;> cases hs
  next => exact begun_offer h item

/-- The disposal from outside ends the collector. -/
theorem begun_dispose {now : Instant} {c : Collector α σ} (h : Begun settings first now c)
    (S : Sink α σ) (instant : Instant) : Begun settings first now (c.dispose S instant) := by
  have hended : Ended .closed c.alarm.dispose := ⟨.inr rfl, c.alarm.disposing_dispose⟩
  unfold Collector.dispose
  split
  next => exact ⟨⟨h.fixed, h.onTime, h.streak, h.counted⟩, .inr hended⟩
  next => exact begun_final (c := { c with stage := .closed, alarm := c.alarm.dispose }) h.fixed
            h.onTime h.streak hended S instant now
  next => exact h
  next => exact h

/-- Before the first item, disposal just ends the collector. -/
theorem Unbegun.dispose {c : Collector α σ} (h : Unbegun settings first c) (S : Sink α σ)
    (now instant : Instant) : Begun settings first now (c.dispose S instant) := by
  unfold Collector.dispose
  rw [h.stage]
  exact ⟨⟨h.fixed, h.onTime, h.streak, h.counted⟩, .inr ⟨.inr rfl, c.alarm.disposing_dispose⟩⟩

/-- The first item has the collector tick at once. -/
theorem Unbegun.emit {now : Instant} {c : Collector α σ} (h : Unbegun settings now c)
    (room : now.HasRoom) (item : α) :
    Punctual settings now (c.emit now item).2 ∧ Waiting settings now now (c.emit now item).2 ∧
      ticksOf (c.emit now item).2.journal = [] := by
  have hstart : c.alarm.start now .zero =
      .ok { name := "periodic-batcher", phase := .armed, due := some now } := by
    unfold Alarm.start
    rw [h.alarm, Instant.after?_of_hasRoom room (Nat.zero_le _)]
    rfl
  obtain ⟨hpunctual, hunticked, halarm⟩ : Punctual settings now (c.offer item).2 ∧
      ticksOf (c.offer item).2.journal = [] ∧ (c.offer item).2.alarm = c.alarm := by
    rcases offer_cases c item with hsame | ⟨-, ⟨-, haccept⟩ | ⟨-, hrefuse⟩⟩
    · rw [hsame]
      exact ⟨h.toPunctual, h.unticked, rfl⟩
    · rw [haccept]
      exact ⟨h.note (.accepted item) rfl rfl rfl rfl rfl rfl rfl, h.unticked, rfl⟩
    · rw [hrefuse]
      exact ⟨h.note (.refused item) rfl rfl rfl rfl rfl rfl rfl, h.unticked, rfl⟩
  unfold Collector.emit
  rw [h.stage]
  dsimp only
  rw [halarm, hstart]
  have hdue : dueAfter settings now (c.offer item).2.journal = now := dueAfter_of_nil hunticked
  refine ⟨⟨hpunctual.fixed, hpunctual.onTime, hpunctual.streak, hpunctual.counted⟩, ?_, hunticked⟩
  refine ⟨rfl, rfl, rfl, ?_, ?_, Nat.le_refl _⟩
  · exact congrArg some hdue.symm
  · exact Nat.le_of_eq (congrArg Instant.nanos hdue.symm)

/-! ## Runs -/

/-- A session at rest with a collector that has begun: the next tick lies ahead. -/
def Session.Rested (settings : BatchSettings) (first : Instant) (s : Session α σ) : Prop :=
  Begun settings first s.clock.monotonic s.collector ∧
    ∀ d, s.collector.nextTick? = some d → s.clock.monotonic < d

/-- A session at rest with a collector that has not begun, or has been disposed before it could. -/
def Session.Unstarted (settings : BatchSettings) (first : Instant) (s : Session α σ) : Prop :=
  Unbegun settings first s.collector ∧ s.dropped = false ∨ s.Rested settings first

section Runs

variable (S : Sink α σ)

/-- Once all due ticks have run, the session is at rest. -/
theorem rested_pass {s : Session α σ} (h : Begun settings first s.clock.monotonic s.collector)
    (nanos : Nat) (room : (s.pass S nanos).clock.monotonic.HasRoom) :
    (s.pass S nanos).Rested settings first :=
  ⟨begun_runUntil h (Nat.le_add_right _ _) room S, fun _ hd => (ticks S).due_runUntil hd⟩

/-- Requests can be answered in two parts. -/
theorem run_append (s : Session α σ) (before after : List (Request α)) :
    (s.run S (before ++ after)).2 = ((s.run S before).2.run S after).2 := by
  induction before generalizing s with
  | nil => rfl
  | cons request rest ih => exact ih _

/-- A request leaves a session at rest. -/
theorem rested_serve {s : Session α σ} (h : s.Rested settings first) (request : Request α)
    (room : (s.serve S request).2.clock.monotonic.HasRoom) :
    (s.serve S request).2.Rested settings first := by
  obtain ⟨hbegun, hahead⟩ := h
  cases request with
  | pass nanos => exact rested_pass S hbegun nanos room
  | emit item =>
    unfold Session.serve at room ⊢
    dsimp only at room ⊢
    split at room
    next hdropped => rw [if_pos hdropped]; exact ⟨hbegun, hahead⟩
    next hdropped =>
      rw [if_neg hdropped]
      exact rested_pass S (begun_emit hbegun _ item) 0 room
  | dispose =>
    unfold Session.serve at room ⊢
    dsimp only at room ⊢
    split at room
    next hdropped => rw [if_pos hdropped]; exact ⟨hbegun, hahead⟩
    next hdropped =>
      rw [if_neg hdropped]
      exact rested_pass S (begun_dispose hbegun S _) 0 room
  | drop =>
    unfold Session.serve at room ⊢
    dsimp only at room ⊢
    split at room
    next hdropped => rw [if_pos hdropped]; exact ⟨hbegun, hahead⟩
    next hdropped =>
      rw [if_neg hdropped]
      refine rested_pass S (begun_dispose (c := { s.collector with unreachable := true }) ?_ S _) 0
        room
      exact ⟨⟨hbegun.fixed, hbegun.onTime, hbegun.streak, hbegun.counted⟩, hbegun.standing.imp
        (fun hw => ⟨hw.stage, hw.phase, hw.disposing, hw.due, hw.ahead, hw.begun⟩) id⟩

/-- A session at rest is at rest after every run that the clock has room for. -/
theorem rested_run {s : Session α σ} (h : s.Rested settings first) (requests : List (Request α))
    (room : (s.run S requests).2.clock.monotonic.HasRoom) :
    (s.run S requests).2.Rested settings first := by
  induction requests generalizing s with
  | nil => exact h
  | cons request rest ih =>
    have hroom := room.of_le (monotonic_le_run (s.serve S request).2 rest)
    exact ih (rested_serve S h request hroom) room

/-- Until the first item comes, a session waits for it, or has been disposed. -/
theorem unstarted_serve {s : Session α σ} (h : s.Unstarted settings first) {request : Request α}
    (hrequest : ∀ item, request ≠ .emit item)
    (room : (s.serve S request).2.clock.monotonic.HasRoom) :
    (s.serve S request).2.Unstarted settings first := by
  rcases h with ⟨hunbegun, hdropped⟩ | hrested
  case inr => exact .inr (rested_serve S hrested request room)
  cases request with
  | pass nanos =>
    have hnone : s.collector.nextTick? = none := by
      unfold nextTick?
      rw [hunbegun.alarm]
      rfl
    refine .inl ⟨?_, hdropped⟩
    show Unbegun settings first ((ticks S).runUntil _ _ s.collector)
    rw [(ticks S).runUntil_of_none hnone]
    exact hunbegun
  | emit item => exact absurd rfl (hrequest item)
  | dispose =>
    unfold Session.serve at room ⊢
    rw [hdropped] at room ⊢
    exact .inr (rested_pass S (hunbegun.dispose S _ _) 0 room)
  | drop =>
    unfold Session.serve at room ⊢
    rw [hdropped] at room ⊢
    refine .inr (rested_pass S (Unbegun.dispose (c := { s.collector with unreachable := true })
      ?_ S _ _) 0 room)
    exact ⟨⟨hunbegun.fixed, hunbegun.onTime, hunbegun.streak, hunbegun.counted⟩, hunbegun.stage,
      hunbegun.alarm, hunbegun.unticked⟩

/-- So it is after every run without an item from outside. -/
theorem unstarted_run {s : Session α σ} (h : s.Unstarted settings first)
    {requests : List (Request α)} (hrequests : ∀ request ∈ requests, ∀ item, request ≠ .emit item)
    (room : (s.run S requests).2.clock.monotonic.HasRoom) :
    (s.run S requests).2.Unstarted settings first := by
  induction requests generalizing s with
  | nil => exact h
  | cons request rest ih =>
    have hroom := room.of_le (monotonic_le_run (s.serve S request).2 rest)
    have hhead := hrequests request List.mem_cons_self
    exact ih (unstarted_serve S h hhead hroom)
      (fun request hmem => hrequests request (List.mem_cons_of_mem _ hmem)) room

/-- With the first item the schedule begins. -/
theorem rested_first {s : Session α σ} (h : s.Unstarted settings s.clock.monotonic) (item : α)
    (room : (s.serve S (.emit item)).2.clock.monotonic.HasRoom) :
    (s.serve S (.emit item)).2.Rested settings s.clock.monotonic := by
  have hroom := room.of_le (monotonic_le_serve s (.emit item))
  rcases h with ⟨hunbegun, hdropped⟩ | hrested
  · unfold Session.serve at room ⊢
    rw [hdropped] at room ⊢
    obtain ⟨hpunctual, hwaiting, -⟩ := hunbegun.emit hroom item
    exact rested_pass S ⟨hpunctual, .inl hwaiting⟩ 0 room
  · exact rested_serve S hrested _ room

/-- A tick is noted in the journal. -/
theorem suffix_tick {c : Collector α σ} (h : c.stage ≠ .closed) (now : Instant) :
    .cycleBegan now false :: c.journal <:+ (c.tick S now).journal := by
  have hcycle : .cycleBegan now false :: c.journal <:+ (c.beginTick.cycle S now false).journal :=
    (suffix_invariant _).toCycleInvariant.cycle (c := c.beginTick) S now false (List.suffix_refl _)
  rw [tick_of_not_closed h]
  exact ((suffix_invariant _).rest S).afterCycle hcycle now

/-- The first tick runs at once. -/
theorem ticked_first {s : Session α σ} (h : Unbegun settings s.clock.monotonic s.collector)
    (hdropped : s.dropped = false) (room : s.clock.monotonic.HasRoom) (item : α) :
    ∃ earlier, .cycleBegan s.clock.monotonic false :: earlier <:+
      (s.serve S (.emit item)).2.collector.journal := by
  obtain ⟨-, hwaiting, hunticked⟩ := h.emit room item
  have hnext := hwaiting.nextTick?
  rw [dueAfter_of_nil hunticked] at hnext
  have hopen : (s.collector.emit s.clock.monotonic item).2.stage ≠ .closed := by
    rw [hwaiting.stage]
    nofun
  unfold Session.serve
  rw [hdropped]
  show ∃ earlier, _ <:+ ((ticks S).runUntil s.clock.monotonic s.clock.monotonic
    (s.collector.emit s.clock.monotonic item).2).journal
  have hself : s.clock.monotonic.later s.clock.monotonic = s.clock.monotonic := ite_self _
  have hle : s.clock.monotonic ≤ s.clock.monotonic := Nat.le_refl _
  rw [(ticks S).runUntil_of_some hnext, if_pos hle, hself]
  have hrun := steps_runUntil (S := S) ((s.collector.emit s.clock.monotonic item).2.tick S
    s.clock.monotonic) hle
  exact ⟨_, hrun.keep (P := fun m => _ <:+ m.2.journal) ((suffix_invariant _).rest S).step
    (suffix_tick S hopen s.clock.monotonic)⟩

end Runs

/-! ## The schedule -/

/-- If all ticks were on time, the first one was at `first`. -/
theorem getLast?_ticksOf {journal : List (Entry α)}
    (h : Throughout (Entry.OnTime settings first) journal) (hne : ticksOf journal ≠ []) :
    (ticksOf journal).getLast? = some first := by
  induction journal with
  | nil => exact absurd rfl hne
  | cons entry earlier ih =>
    cases htick : entry.tick? with
    | none =>
      rw [ticksOf_cons htick] at hne ⊢
      exact ih h.tail hne
    | some instant =>
      have hticks : ticksOf (entry :: earlier) = instant :: ticksOf earlier := by
        unfold ticksOf
        rw [List.filterMap_cons, htick]
      rw [hticks]
      by_cases hearlier : ticksOf earlier = []
      · have honTime := h entry earlier (List.suffix_refl _)
        unfold Entry.tick? at htick
        split at htick
        next =>
          cases htick
          have honTime : instant = dueAfter settings first earlier := honTime
          rw [hearlier, honTime, dueAfter_of_nil hearlier]
          rfl
        next => cases htick
      · rw [List.getLast?_cons, ih h.tail hearlier]
        rfl

/-- What a collector's journal tells of its ticks, the first of which was due at `first`, and how
the collector stands at rest. -/
structure OnSchedule (settings : BatchSettings) (first now : Instant) (c : Collector α σ) :
    Prop where
  /-- A collector that has not ended is armed for the end of the wait after its last tick, which
  lies ahead. -/
  armed : c.stage = .active → ∃ last, (ticksOf c.journal).head? = some last ∧
    c.alarm.phase = .armed ∧ c.alarm.due = some (last.after c.pacing.wait) ∧
    now < last.after c.pacing.wait
  /-- The wait is that of the streak of failures, which the statistics show. -/
  pace : c.pacing = paceAfter settings c.journal
  failures : c.stats.consecutiveFailures = c.failures.toNat
  first : ∀ t, (ticksOf c.journal).getLast? = some t → t = first
  /-- A tick follows the one before it after the wait at that time. -/
  gaps : ∀ t u earlier, .cycleBegan u false :: earlier <:+ c.journal →
    (ticksOf earlier).head? = some t → u = t.after (paceAfter settings earlier).wait
  /-- After a delivery, and no failure since, the wait is the period. -/
  healthy : ∀ t u quiet instant batch replies earlier,
    .cycleBegan u false :: (quiet ++ .flushed instant batch replies .ok :: earlier) <:+ c.journal →
      (∀ entry ∈ quiet, entry.isFailure = false) →
      (ticksOf (quiet ++ .flushed instant batch replies .ok :: earlier)).head? = some t →
      u = t.after settings.period
  /-- From one tick to the next the wait does not get shorter without a delivery. -/
  growing : ∀ t u v between earlier,
    .cycleBegan v false :: (between ++ .cycleBegan u false :: earlier) <:+ c.journal →
      ticksOf between = [] → (∀ entry ∈ between, entry.isDelivery = false) →
      (ticksOf earlier).head? = some t → u.nanos - t.nanos ≤ v.nanos - u.nanos

/-- A tick that was on time came after the wait, if it was not the first. -/
theorem eq_of_onTime {journal : List (Entry α)}
    (h : Throughout (Entry.OnTime settings first) journal) {t u : Instant}
    {earlier : List (Entry α)} (hsuffix : .cycleBegan u false :: earlier <:+ journal)
    (hlast : (ticksOf earlier).head? = some t) : u = t.after (paceAfter settings earlier).wait := by
  have honTime : u = dueAfter settings first earlier := h _ earlier hsuffix
  rw [honTime, dueAfter_of_head? hlast]

/-- While a healthy collector waits, it waits for the period. -/
theorem wait_of_delivery (settings : BatchSettings) {quiet earlier : List (Entry α)}
    (h : ∀ entry ∈ quiet, entry.isFailure = false) (instant : Instant) (batch : List α)
    (replies : List Reply) :
    (paceAfter settings (quiet ++ .flushed instant batch replies .ok :: earlier)).wait =
      settings.period := by
  have hzero : failuresAfter 0 (quiet ++ .flushed instant batch replies .ok :: earlier) = 0 := by
    rw [failuresAfter_append, failuresAfter_of_no_failure h]
    exact ite_self _
  unfold Pacing.wait
  exact if_pos hzero

/-- A collector at rest is on schedule. -/
theorem onSchedule_of_rested {s : Session α σ} (h : s.Rested settings first) :
    OnSchedule settings first s.clock.monotonic s.collector := by
  obtain ⟨hbegun, hahead⟩ := h
  have hpacing := pacing_eq hbegun.fixed hbegun.streak
  refine ⟨?_, hpacing, hbegun.counted, ?_, ?_, ?_, ?_⟩
  · intro hactive
    rcases hbegun.standing with hwaiting | hended
    · have hnext := hahead _ hwaiting.nextTick?
      cases hticks : ticksOf s.collector.journal with
      | nil =>
        -- Without a tick so far the first one would be overdue.
        rw [dueAfter_of_nil hticks] at hnext
        exact absurd hwaiting.begun (Nat.not_le.2 hnext)
      | cons last rest =>
        have hdue : dueAfter settings first s.collector.journal =
            last.after s.collector.pacing.wait := by
          rw [dueAfter_of_head? (by rw [hticks]; rfl), hpacing]
        rw [hdue] at hnext
        exact ⟨last, rfl, hwaiting.phase, hdue ▸ hwaiting.due, hnext⟩
    · rw [hactive] at hended
      rcases hended.stage with hs | hs <;> cases hs
  · intro t ht
    have hne : ticksOf s.collector.journal ≠ [] := by
      intro hnil
      rw [hnil] at ht
      cases ht
    rw [getLast?_ticksOf hbegun.onTime hne] at ht
    exact (Option.some.inj ht).symm
  · intro t u earlier hsuffix hlast
    exact eq_of_onTime hbegun.onTime hsuffix hlast
  · intro t u quiet instant batch replies earlier hsuffix hquiet hlast
    rw [eq_of_onTime hbegun.onTime hsuffix hlast, wait_of_delivery settings hquiet]
  · intro t u v between earlier hsuffix hbetween hdelivery hlast
    have hlast' : (ticksOf (between ++ .cycleBegan u false :: earlier)).head? = some u := by
      unfold ticksOf at hbetween ⊢
      rw [List.filterMap_append, hbetween]
      rfl
    have hsuffix' : .cycleBegan u false :: earlier <:+ s.collector.journal :=
      ((List.suffix_append ..).trans (List.suffix_cons ..)).trans hsuffix
    have hgap := eq_of_onTime hbegun.onTime hsuffix' hlast
    have hgap' := eq_of_onTime hbegun.onTime hsuffix hlast'
    have hstreak : failuresAfter 0 earlier ≤
        failuresAfter 0 (between ++ .cycleBegan u false :: earlier) :=
      UInt32.le_trans (failuresAfter_le_cons rfl) (failuresAfter_le_append hdelivery)
    have hwait : (paceAfter settings earlier).wait.toNanos ≤
        (paceAfter settings (between ++ .cycleBegan u false :: earlier)).wait.toNanos :=
      Pacing.wait_mono rfl rfl hstreak
    have hu : u.nanos = t.nanos + (paceAfter settings earlier).wait.toNanos :=
      congrArg Instant.nanos hgap
    have hv : v.nanos = u.nanos +
        (paceAfter settings (between ++ .cycleBegan u false :: earlier)).wait.toNanos :=
      congrArg Instant.nanos hgap'
    omega

/-- In every run with a first item, the collector is on schedule from then on. Its first tick ran
when that item came, unless it had been disposed before; and it goes on until it is disposed,
whatever else the sink does. -/
theorem onSchedule_run {sink : σ} {clock : Clock} {s : Session α σ}
    (h : Session.create settings sink clock = .ok s) (S : Sink α σ)
    {before : List (Request α)} (hbefore : ∀ request ∈ before, ∀ item, request ≠ .emit item)
    (item : α) (after : List (Request α))
    (room : (s.run S (before ++ .emit item :: after)).2.clock.monotonic.HasRoom) :
    OnSchedule settings (s.run S before).2.clock.monotonic
        (s.run S (before ++ .emit item :: after)).2.clock.monotonic
        (s.run S (before ++ .emit item :: after)).2.collector ∧
      ((s.run S before).2.collector.stage = .fresh →
        (ticksOf (s.run S (before ++ .emit item :: after)).2.collector.journal).getLast? =
          some (s.run S before).2.clock.monotonic) ∧
      (NeverDisposes S →
        (∀ request ∈ before ++ .emit item :: after, request ≠ .dispose ∧ request ≠ .drop) →
        (s.run S (before ++ .emit item :: after)).2.collector.stage = .active) := by
  have hunended (hS : NeverDisposes S)
      (hrequests : ∀ request ∈ before ++ .emit item :: after,
        request ≠ .dispose ∧ request ≠ .drop) :
      Unended (s.run S (before ++ .emit item :: after)).2.collector := by
    refine unended_run hS ?_ hrequests
    obtain ⟨valid, rfl⟩ := Session.eq_of_create h
    exact .inl rfl
  rw [run_append] at room hunended ⊢
  -- The run up to the item leaves the collector unstarted, and from there on it is at rest.
  have hunstarted : (s.run S before).2.Unstarted settings (s.run S before).2.clock.monotonic := by
    refine unstarted_run S ?_ hbefore (room.of_le (monotonic_le_run _ _))
    obtain ⟨valid, rfl⟩ := Session.eq_of_create h
    exact .inl ⟨⟨⟨rfl, throughout_nil _, ⟨[], rfl, rfl⟩, rfl⟩, rfl, rfl, rfl⟩, rfl⟩
  generalize (s.run S before).2 = t at room hunstarted hunended ⊢
  have hroom := room.of_le (monotonic_le_run (t.serve S (.emit item)).2 after)
  have hfirst := rested_first S hunstarted item hroom
  have hrested := rested_run S hfirst after room
  have hended {c : Collector α σ} (hc : Ended c.stage c.alarm) : ¬Unended c := by
    intro hunended
    rcases hc.stage with hs | hs <;> rcases hunended with hs' | hs' <;> (rw [hs] at hs'; cases hs')
  refine ⟨onSchedule_of_rested hrested, ?_, ?_⟩
  · intro hfresh
    rcases hunstarted with ⟨hunbegun, hdropped⟩ | ⟨hbegun, -⟩
    · -- The first tick has been noted at once, and what is noted stays.
      obtain ⟨earlier, htick⟩ := ticked_first S hunbegun hdropped
        (hroom.of_le (monotonic_le_serve t _)) item
      obtain ⟨later, hjournal⟩ := (suffix_invariant _).run htick (S := S) after
      refine getLast?_ticksOf hrested.1.onTime ?_
      show ticksOf ((t.serve S (.emit item)).2.run S after).2.collector.journal ≠ []
      dsimp only at hjournal
      rw [← hjournal]
      unfold ticksOf
      rw [List.filterMap_append]
      exact List.append_ne_nil_of_right_ne_nil _ (List.cons_ne_nil _ _)
    · rcases hbegun.standing with hwaiting | hc
      · rw [hwaiting.stage] at hfresh
        cases hfresh
      · exact absurd (.inl hfresh) (hended hc)
  · intro hS hrequests
    rcases hrested.1.standing with hwaiting | hc
    · exact hwaiting.stage
    · exact absurd (hunended hS hrequests) (hended hc)

/-- A sink that panics in its first call and fails in the next two, and emits meanwhile: the ticks
are five, ten and twenty seconds apart, and then one second. -/
theorem onSchedule_run_troubled :
    ∃ (s : Session Nat (Sink.Script Nat)) (S : Sink Nat (Sink.Script Nat)),
      Session.create { periodMs := 1000 }
          { takes := [⟨[.emit 2], .panic⟩, ⟨[], .error⟩, ⟨[.emit 3], .error⟩] } ⟨⟨0⟩, 0⟩ = .ok s ∧
        let before := [.pass 7]
        let after := [.pass 5000000000, .emit 4, .pass 31000000000]
        let t := (s.run S (before ++ .emit 1 :: after)).2
        t.clock.monotonic.HasRoom ∧
          ticksOf t.collector.journal =
            [⟨36000000007⟩, ⟨35000000007⟩, ⟨15000000007⟩, ⟨5000000007⟩, ⟨7⟩] ∧
          OnSchedule { periodMs := 1000 } (s.run S before).2.clock.monotonic t.clock.monotonic
            t.collector := by
  refine ⟨_, .scripted fun _ => .keep, rfl, ?_, by decide +kernel, ?_⟩
  · unfold Instant.HasRoom
    decide +kernel
  · refine (onSchedule_run rfl _ ?_ 1 _ ?_).1
    · intro request hmem item
      rw [List.mem_singleton.1 hmem]
      nofun
    · unfold Instant.HasRoom
      decide +kernel

end Courier.Collector
