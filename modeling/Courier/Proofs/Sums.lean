import Courier.Proofs.Alarm.Range
import Courier.Proofs.Collector.Schedule
import Courier.Proofs.Mailbox.Posting

/-!
# The sums that the clock has to show

Wherever an interval is added to a reading of the clock, the exact sum may be too large. Who starts
an alarm is told so. The other sums come from the settings, and these are intervals that cannot lead
out of range as long as the clock is `2 ^ 64` milliseconds below its end: the deadline of an event
that is handed out, the next pass of a requeue loop, and the next tick of a collector, however many
failures there have been.

> `Mailbox.inRange_run`: in every run of a mailbox, where it goes on by itself.

> `Collector.inRange`: every collector, in every tick that is followed by another one.

> `sums_in_range`: these, and the starts of alarms.
-/

namespace Courier

/-! ## Mailboxes -/

namespace Mailbox

variable {α : Type} {settings : QueueSettings}

/-- A mailbox that requeues on its own has a loop as its settings want it, until it is disposed. -/
def Tuned (settings : QueueSettings) (m : Mailbox α) : Prop :=
  m.disposed = false → settings.autoRequeue = true →
    ∃ l, m.loop = some l ∧ l.period = settings.requeuePeriod ∧ l.alarm.disposing = false

/-- Setting the alarm of a loop does not dispose it. -/
theorem schedule_keeps (l : RequeueLoop) (now : Instant) :
    (l.schedule now).period = l.period ∧
      (l.alarm.disposing = false → (l.schedule now).alarm.disposing = false) := by
  rw [RequeueLoop.schedule]
  split
  next hstart => exact ⟨rfl, fun _ => (Alarm.start_eq_ok hstart).2.1⟩
  next => exact ⟨rfl, id⟩

theorem Tuned.pass {m : Mailbox α} (h : Tuned settings m) (now : Instant) :
    Tuned settings (m.pass now) := by
  intro hrunning auto
  rw [disposed_pass] at hrunning
  obtain ⟨l, hl, hperiod, hlive⟩ := h hrunning auto
  obtain ⟨hperiod', hlive'⟩ := schedule_keeps { l with alarm := l.alarm.enter } now
  rw [Mailbox.pass, hl]
  dsimp only
  rw [hrunning, if_neg Bool.false_ne_true]
  exact ⟨_, rfl, hperiod'.trans hperiod, hlive' hlive⟩

theorem Tuned.serve {s : Session α} (h : Tuned settings s.mailbox) (request : Request α) :
    Tuned settings (s.serve request).2.mailbox := by
  rcases loop_cases s request with ⟨-, hsame, -⟩ | ⟨nanos, rfl⟩ | rfl
  · rw [Tuned, hsame.disposed, hsame.loop]
    exact h
  · obtain ⟨-, hrun⟩ := (passes α).runUntil_invariant (P := fun _ m => Tuned settings m)
      (fun {now d m} hm _ _ => hm.pass (now.later d)) h
    exact hrun
  · intro hrunning
    have hdisposed := (disposed_serve s .dispose).2 (.inr rfl)
    rw [hrunning] at hdisposed
    cases hdisposed

theorem Tuned.run {s : Session α} (h : Tuned settings s.mailbox) (requests : List (Request α)) :
    Tuned settings (s.run requests).2.mailbox := by
  induction requests generalizing s with
  | nil => exact h
  | cons request rest ih =>
    rw [Session.run_cons]
    exact ih (h.serve request)

theorem tuned_create {clock : Clock} {s : Session α} (h : Session.create settings clock = .ok s) :
    Tuned settings s.mailbox := by
  intro _ auto
  rw [Session.create, Mailbox.create] at h
  split at h
  next => cases h
  next =>
    rw [dif_pos auto] at h
    cases h
    obtain ⟨hperiod, hlive⟩ := schedule_keeps
      { alarm := { name := "ack-requeue" }, period := settings.requeuePeriod,
        period_pos := QueueSettings.Valid.requeuePeriod_pos ‹_› auto } clock.monotonic
    exact ⟨_, rfl, hperiod, hlive rfl⟩

/-- The clock can show the sums of a mailbox at an instant. -/
structure InRange (settings : QueueSettings) (now : Instant) (m : Mailbox α) : Prop where
  /-- The deadline of an event that is handed out. -/
  deadline : ∀ e, ∃ deadline, now.after? settings.ackTimeout = some deadline ∧
    (m.track e now).deadline? e.id = some deadline
  /-- The pass after a pass, unless the mailbox is disposed. -/
  pass : settings.autoRequeue = true → m.disposed = false →
    ∃ next, now.after? settings.requeuePeriod = some next ∧ (m.pass now).nextPass? = some next

theorem Tuned.inRange {m : Mailbox α} {now : Instant} (h : Tuned settings m)
    (hsettings : m.settings = settings) (room : now.HasRoom) : InRange settings now m := by
  constructor
  · intro e
    refine ⟨now.after settings.ackTimeout, ?_, ?_⟩
    · exact Instant.after?_of_hasRoom room (Span.toNanos_ofMillis_le settings.ackTimeoutMs)
    · rw [Mailbox.deadline?, track, hsettings]
      simp
  · intro auto hrunning
    obtain ⟨l, hl, hperiod, hlive⟩ := h hrunning auto
    refine ⟨now.after settings.requeuePeriod, ?_, ?_⟩
    · exact Instant.after?_of_hasRoom room (Span.toNanos_ofMillis_le settings.requeuePeriodMs)
    · rw [Mailbox.pass, hl]
      dsimp only
      rw [hrunning, if_neg Bool.false_ne_true,
        RequeueLoop.schedule_eq (l := { l with alarm := l.alarm.enter }) room hperiod hlive]
      show (if l.alarm.disposing then none else some (now.after settings.requeuePeriod)) = _
      rw [hlive]
      rfl

/-- After every run the sums of a mailbox are in range, wherever there is room. -/
theorem inRange_run {clock : Clock} {s : Session α} (h : Session.create settings clock = .ok s)
    (requests : List (Request α)) {now : Instant} (room : now.HasRoom) :
    InRange settings now (s.run requests).2.mailbox := by
  apply ((tuned_create h).run requests).inRange _ room
  apply settings_run
  obtain ⟨loop, rfl⟩ := eq_of_sessionCreate h
  rfl

end Mailbox

/-! ## Collectors -/

namespace Collector

variable {α σ : Type}

/-- As long as the collector has not ended it has the alarm. -/
def HasAlarm (alarm : Alarm) (b : Bench α σ) : Prop :=
  b.2.stage = .fresh ∨ b.2.stage = .active → b.2.alarm = alarm

/-- A cycle leaves the alarm alone, unless the sink disposes the collector. -/
theorem hasAlarm_invariant (alarm : Alarm) : CycleInvariant (α := α) (σ := σ) (HasAlarm alarm) where
  move h hmove := by
    cases hmove with
    | closing hand c => exact fun hopen => hopen.elim nofun nofun
    | advanced | accepted | refused | picked | kept | rejected | panicked | delivered
    | undelivered | idled => exact h
  recordFailure h _ := h
  dropBatch h := by
    unfold dropBatch
    split
    next => exact h
    next => exact h
  dropBacklog h _ := by
    unfold dropBacklog
    split
    next => exact h
    next => exact h
  takeStock h := h

/-- The clock can show the sums of a collector at an instant. -/
structure InRange (S : Sink α σ) (now : Instant) (c : Collector α σ) : Prop where
  /-- The wait after any number of failures. -/
  wait : ∀ failures, ∃ next,
    now.after? (Pacing.wait ⟨c.settings.period, c.settings.backoff, failures⟩) = some next
  /-- The tick after a tick, unless the collector has ended. -/
  tick : ∀ e, c.beginTick.cycle S now false = e → c.stage ≠ .closed → c.alarm.disposing = false →
    e.stage = .fresh ∨ e.stage = .active →
    ∃ next, now.after? e.pacing.wait = some next ∧ (c.tick S now).nextTick? = some next

/-- The sums of every collector are in range, wherever there is room. -/
theorem inRange (S : Sink α σ) (c : Collector α σ) {now : Instant} (room : now.HasRoom) :
    InRange S now c := by
  constructor
  · intro failures
    exact ⟨_, Instant.after?_of_hasRoom room (c.settings.wait_le failures)⟩
  · intro e hcycle hopen hlive hgoesOn
    have hwait : e.pacing.wait.toNanos ≤ UInt64.size * nanosPerMilli :=
      e.settings.wait_le e.failures
    have halarm : e.alarm = c.alarm.enter := by
      have hkept := (hasAlarm_invariant c.alarm.enter).cycle (c := c.beginTick) S now false
        fun _ => rfl
      rw [hcycle] at hkept
      exact hkept hgoesOn
    obtain ⟨alarm, hstart, -, hlive', hdue⟩ :=
      leave_start (a := e.alarm) (by rw [halarm]; rfl) (by rw [halarm]; exact hlive) room hwait
    refine ⟨now.after e.pacing.wait, Instant.after?_of_hasRoom room hwait, ?_⟩
    have hafter : (e.afterCycle S now).alarm = alarm := by
      have hschedule : (e.schedule now).alarm = alarm := by
        rw [schedule, hstart]
      rw [afterCycle]
      rcases hgoesOn with hstage | hstage
      · rw [hstage]
        exact hschedule
      · rw [hstage]
        exact hschedule
    rw [tick_of_not_closed hopen, hcycle, Collector.nextTick?, endTick]
    dsimp only
    rw [hafter, Alarm.deadline?, hlive', hdue]
    rfl

end Collector

/-! ## All sums -/

/-- A start fails for its argument exactly if the sum is out of range, and then it changes nothing.
The sums that follow from settings are in range, wherever the clock has room. -/
theorem sums_in_range {α σ : Type} :
    (∀ (a : Alarm) (now : Instant) (interval : Span),
      (∃ e, a.start now interval = .error e ∧ e.kind = .invalidArgument) ↔
        Alarm.OutOfRange now interval) ∧
    (∀ (name : String) (clock : Clock) (scripts : List (List Alarm.Action))
      (requests : List Alarm.Session.Request),
      Alarm.RangeChecked (Alarm.Session.initial name clock scripts) requests) ∧
    (∀ (settings : QueueSettings) (clock : Clock) (s : Mailbox.Session α)
      (requests : List (Mailbox.Request α)) (now : Instant),
      Mailbox.Session.create settings clock = .ok s → now.HasRoom →
        Mailbox.InRange settings now (s.run requests).2.mailbox) ∧
    (∀ (S : Sink α σ) (c : Collector α σ) (now : Instant), now.HasRoom → c.InRange S now) :=
  ⟨Alarm.invalidArgument_iff, Alarm.rangeChecked_run,
    fun _ _ _ requests _ h room => Mailbox.inRange_run h requests room,
    fun S c _ room => c.inRange S room⟩

/-- The last instant at which the clock has room. -/
def Instant.lastWithRoom : Instant := ⟨9204925292781066256383999999⟩

/-- Settings with the longest intervals. -/
def QueueSettings.longest : QueueSettings :=
  { autoRequeue := true, ackTimeoutMs := 18446744073709551615,
    requeuePeriodMs := 18446744073709551615 }

/-- At the last instant with room, the longest intervals lead to the last second of the clock. -/
theorem sums_in_range_last :
    ∃ s : Mailbox.Session Nat, Mailbox.Session.create .longest ⟨⟨0⟩, 0⟩ = .ok s ∧
      Instant.lastWithRoom.HasRoom ∧ ¬ Instant.HasRoom ⟨Instant.lastWithRoom.nanos + 1⟩ ∧
      (Instant.lastWithRoom.after QueueSettings.longest.ackTimeout).seconds = Instant.lastSecond ∧
      Mailbox.InRange .longest .lastWithRoom
        (s.run [.post (.ofNat 7) ⟨"Order"⟩ 1 none, .takeAny]).2.mailbox ∧
      ∃ c : Collector Nat (Sink.Script Nat),
        Collector.create { periodMs := 18446744073709551615 } {} = .ok c ∧
        c.InRange (.scripted fun _ => .keep) .lastWithRoom := by
  have hroom : Instant.lastWithRoom.HasRoom := by
    unfold Instant.HasRoom
    decide +kernel
  have hnoRoom : ¬ Instant.HasRoom ⟨Instant.lastWithRoom.nanos + 1⟩ := by
    unfold Instant.HasRoom
    decide +kernel
  obtain ⟨-, -, hmailbox, hcollector⟩ := sums_in_range (α := Nat) (σ := Sink.Script Nat)
  exact ⟨_, rfl, hroom, hnoRoom, by decide +kernel,
    hmailbox .longest ⟨⟨0⟩, 0⟩ _ _ .lastWithRoom rfl hroom, _, rfl,
    hcollector _ _ .lastWithRoom hroom⟩

end Courier
