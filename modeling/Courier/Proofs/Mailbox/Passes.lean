import Courier.Proofs.Clock
import Courier.Proofs.Mailbox.Records

/-!
# The passes of the requeue loop

A mailbox that requeues on its own returns overdue events once per period, counted from the instant
of its creation. Each pass sets the alarm for the next one, and nothing else touches it, so the
passes come at the multiples of the period, whatever else happens to the mailbox.

> `pass_looping`: a pass keeps the loop going, and leaves no event in flight that is overdue.

> `regular_run`: in every run the passes are those of the multiples of the period that have been
> reached, until the mailbox is disposed; then there are no more.
-/

namespace Courier

/-! ## The loop -/

namespace RequeueLoop

/-- The alarm of the loop is set for an instant. -/
structure SetFor (settings : QueueSettings) (due : Instant) (l : RequeueLoop) : Prop where
  period : l.period = settings.requeuePeriod
  phase : l.alarm.phase = .armed
  due : l.alarm.due = some due
  disposing : l.alarm.disposing = false

/-- As long as the clock has room, the loop can set its alarm. -/
theorem schedule_eq {settings : QueueSettings} {l : RequeueLoop} {now : Instant}
    (room : now.HasRoom) (hperiod : l.period = settings.requeuePeriod)
    (hdisposing : l.alarm.disposing = false) :
    l.schedule now = { l with alarm := { l.alarm with
      due := some (now.after settings.requeuePeriod)
      phase := if l.alarm.phase = .idle then .armed else l.alarm.phase } } := by
  have hafter : now.after? l.period = some (now.after settings.requeuePeriod) := by
    rw [hperiod]
    exact Instant.after?_of_hasRoom room (Span.toNanos_ofMillis_le settings.requeuePeriodMs)
  have hstart : l.alarm.start now l.period = .ok { l.alarm with
      due := some (now.after settings.requeuePeriod)
      phase := if l.alarm.phase = .idle then .armed else l.alarm.phase } := by
    unfold Alarm.start
    rw [hafter]
    dsimp only
    rw [if_neg (by rw [hdisposing]; exact Bool.false_ne_true)]
  unfold schedule
  rw [hstart]

end RequeueLoop

namespace Mailbox

variable {α : Type} {settings : QueueSettings} {start : Instant}

/-! ## Which requests concern the loop -/

/-- The passes of the requeue loop while a request is answered: when each of them comes, and the
mailbox before it. -/
def Session.passesIn (s : Session α) : Request α → List (Instant × Mailbox α)
  | .pass nanos =>
    (passes α).firings (s.clock.advance nanos).monotonic s.clock.monotonic s.mailbox
  | _ => []

/-- When the passes come in a run. -/
def Session.passTimes (s : Session α) : List (Request α) → List Instant
  | [] => []
  | request :: rest => (s.passesIn request).map (·.1) ++ (s.serve request).2.passTimes rest

/-- `m'` has the requeue loop of `m`, and is disposed where `m` is. -/
structure SameLoop (m m' : Mailbox α) : Prop where
  loop : m'.loop = m.loop
  disposed : m'.disposed = m.disposed

/-- An event that is handed out is no concern of the loop. -/
theorem HandedOut.sameLoop {m m' : Mailbox α} {now : Instant} {e : Event α}
    (h : HandedOut m now e m') : SameLoop m m' := by
  obtain ⟨front, back, -, rfl⟩ := h
  exact ⟨rfl, rfl⟩

/-- Only the passing of time lets passes come and moves the clock. -/
theorem still_serve (s : Session α) {request : Request α} (h : ¬∃ nanos, request = .pass nanos) :
    s.passesIn request = [] ∧ (s.serve request).2.clock = s.clock := by
  cases request with
  | pass nanos => exact absurd ⟨nanos, rfl⟩ h
  | pollStream =>
    rcases hstream : s.stream with _ | stream
    · simp only [Session.serve, hstream]
      exact ⟨rfl, trivial⟩
    · simp only [Session.serve, hstream]
      exact ⟨rfl, trivial⟩
  | _ => exact ⟨rfl, rfl⟩

/-- Only the passing of time and disposal concern the loop. -/
theorem loop_cases (s : Session α) (request : Request α) :
    (s.passesIn request = [] ∧ SameLoop s.mailbox (s.serve request).2.mailbox ∧
        (s.serve request).2.clock = s.clock) ∨
      (∃ nanos, request = .pass nanos) ∨ request = .dispose := by
  by_cases hpass : ∃ nanos, request = .pass nanos
  · exact .inr (.inl hpass)
  by_cases hdispose : request = .dispose
  · exact .inr (.inr hdispose)
  obtain ⟨hpasses, hclock⟩ := still_serve s hpass
  refine .inl ⟨hpasses, ?_, hclock⟩
  have hserved := served_serve s request
  generalize (s.serve request).2.mailbox = m', Exchange.happening _ = happening at hserved ⊢
  cases hserved with
  | disposed made => exact absurd made hdispose
  | passed nanos made => exact absurd ⟨nanos, made⟩ hpass
  | delivered e out => exact out.sameLoop
  | accepted e room free mailbox => exact mailbox ▸ ⟨rfl, rfl⟩
  | turnedAway mailbox => exact mailbox ▸ ⟨rfl, rfl⟩
  | acknowledged id key mailbox => exact mailbox ▸ ⟨rfl, rfl⟩
  | swept made mailbox => exact mailbox ▸ ⟨rfl, rfl⟩
  | nothing mailbox => exact mailbox ▸ ⟨rfl, rfl⟩

/-- A request does not take time back. -/
theorem monotonic_le_serve (s : Session α) (request : Request α) :
    s.clock.monotonic ≤ (s.serve request).2.clock.monotonic := by
  rcases loop_cases s request with ⟨-, -, hclock⟩ | ⟨nanos, rfl⟩ | rfl
  · rw [hclock]
    exact Nat.le_refl _
  · exact Nat.le_add_right _ _
  · exact Nat.le_refl _

theorem monotonic_le_run (s : Session α) (requests : List (Request α)) :
    s.clock.monotonic ≤ (s.run requests).2.clock.monotonic := by
  induction requests generalizing s with
  | nil => exact Nat.le_refl _
  | cons request rest ih => exact Nat.le_trans (monotonic_le_serve s request) (ih _)

/-- An event is in flight since before the request, or has been handed out at its instant. -/
theorem Motion.mem_inFlight {now : Instant} {m m' : Mailbox α} {h : Happening α}
    (hc : Coherent m) (hmotion : Motion now m m' h) {entry : Event.Id × InFlight α}
    (hentry : entry ∈ m'.inFlight) :
    entry ∈ m.inFlight ∨ entry.2.deadline = now.after m.settings.ackTimeout := by
  cases hmotion with
  | accepted e _ _ _ _ inFlight => exact .inl (inFlight ▸ hentry)
  | turnedAway _ _ inFlight => exact .inl (inFlight ▸ hentry)
  | acknowledged _ _ _ inFlight => exact .inl (inFlight hentry)
  | returned back hreturned => exact .inl (hreturned.inFlight hentry)
  | delivered e out =>
    rw [out.inFlight_eq hc] at hentry
    rcases List.mem_cons.1 hentry with rfl | hold
    · exact .inr rfl
    · exact .inl hold

/-! ## The loop at work -/

/-- When the `k`-th pass comes. -/
def passTime (settings : QueueSettings) (start : Instant) (k : Nat) : Instant :=
  ⟨start.nanos + k * settings.requeuePeriod.toNanos⟩

/-- A period after one pass comes the next. -/
theorem after_passTime (settings : QueueSettings) (start : Instant) (k : Nat) :
    (passTime settings start k).after settings.requeuePeriod =
      passTime settings start (k + 1) := by
  unfold passTime Instant.after
  rw [Nat.succ_mul, Nat.add_assoc]

/-- A mailbox that requeues on its own, after `k` passes. -/
structure Looping (settings : QueueSettings) (start : Instant) (k : Nat) (now : Instant)
    (m : Mailbox α) : Prop where
  coherent : Coherent m
  fixed : m.settings = settings
  running : m.disposed = false
  loop : ∃ l, m.loop = some l ∧ l.SetFor settings (passTime settings start (k + 1))
  reached : passTime settings start k ≤ now
  ahead : now < passTime settings start (k + 1)
  /-- What was overdue at the last pass is not in flight any more. -/
  fresh : ∀ entry ∈ m.inFlight, passTime settings start k < entry.2.deadline

/-- The next pass of a loop at work is the one after those that it has done. -/
theorem Looping.nextPass? {k : Nat} {now : Instant} {m : Mailbox α}
    (h : Looping settings start k now m) :
    m.nextPass? = some (passTime settings start (k + 1)) := by
  obtain ⟨l, hl, hset⟩ := h.loop
  unfold Mailbox.nextPass?
  rw [hl]
  show (if l.alarm.disposing then none else l.alarm.due) = _
  rw [hset.disposing, hset.due]
  rfl

/-- A pass comes when it is due, and the next one follows a period later. -/
theorem pass_looping {k : Nat} {now : Instant} {m : Mailbox α}
    (h : Looping settings start k now m) (hpos : 0 < settings.requeuePeriod.toNanos)
    (room : (passTime settings start (k + 1)).HasRoom) :
    Looping settings start (k + 1) (passTime settings start (k + 1))
      (m.pass (passTime settings start (k + 1))) := by
  obtain ⟨l, hl, hset⟩ := h.loop
  have hcoherent := (rearranged_pass h.coherent (passTime settings start (k + 1))).1
  have hschedule := RequeueLoop.schedule_eq (l := { l with alarm := l.alarm.enter }) room
    hset.period hset.disposing
  have hphase : (if l.alarm.enter.phase = .idle then .armed else l.alarm.enter.phase) =
      Alarm.Phase.running := rfl
  unfold pass at hcoherent ⊢
  rw [hl] at hcoherent ⊢
  dsimp only at hcoherent ⊢
  rw [h.running, if_neg Bool.false_ne_true, hschedule, hphase,
    after_passTime settings start (k + 1)] at hcoherent ⊢
  have hset' : RequeueLoop.SetFor settings (passTime settings start (k + 1 + 1))
      { l with alarm := Alarm.leave { l.alarm.enter with
        due := some (passTime settings start (k + 1 + 1)), phase := .running } } := by
    refine ⟨hset.period, ?_, rfl, hset.disposing⟩
    show (if l.alarm.disposing then _ else _) = _
    rw [hset.disposing]
    rfl
  refine ⟨hcoherent, h.fixed, h.running, ⟨_, rfl, hset'⟩, Nat.le_refl _, ?_, ?_⟩
  · rw [← after_passTime settings start (k + 1)]
    exact Nat.lt_add_of_pos_right hpos
  · intro entry hentry
    have hkept := (List.mem_filter.1 hentry).2
    unfold InFlight.isOverdue at hkept
    have hnot : ¬ entry.2.deadline ≤ passTime settings start (k + 1) := by simpa using hkept
    exact Nat.lt_of_not_le hnot

/-- While time passes, the passes come one after the other. -/
theorem passes_looping {k : Nat} {s : Session α}
    (h : Looping settings start k s.clock.monotonic s.mailbox)
    (hpos : 0 < settings.requeuePeriod.toNanos) (nanos : Nat)
    (room : (s.clock.advance nanos).monotonic.HasRoom) :
    ∃ n, (s.passesIn (.pass nanos)).map (·.1) =
        (List.range' (k + 1) n).map (passTime settings start) ∧
      Looping settings start (k + n) (s.clock.advance nanos).monotonic (s.pass nanos).mailbox := by
  have hle : s.clock.monotonic ≤ (s.clock.advance nanos).monotonic := Nat.le_add_right _ _
  have hstart : ∃ n, ([] : List Instant) =
      (List.range' (k + 1) n).map (passTime settings start) ∧
        Looping settings start (k + n) s.clock.monotonic s.mailbox ∧
        s.clock.monotonic ≤ (s.clock.advance nanos).monotonic := ⟨0, rfl, h, hle⟩
  obtain ⟨t, n, htimes, hlooping, ht⟩ := (passes α).firings_invariant
    (fun t _ => [t]) (s.clock.advance nanos).monotonic
    (P := fun now past m => ∃ n, past = (List.range' (k + 1) n).map (passTime settings start) ∧
      Looping settings start (k + n) now m ∧ now ≤ (s.clock.advance nanos).monotonic)
    (fun {now d past m} hP hdue hd => by
      obtain ⟨n, rfl, hlooping, -⟩ := hP
      have hnext : some (passTime settings start (k + n + 1)) = some d :=
        hlooping.nextPass?.symm.trans hdue
      cases hnext
      have hlater : now.later (passTime settings start (k + n + 1)) =
          passTime settings start (k + n + 1) := if_pos (Nat.le_of_lt hlooping.ahead)
      rw [hlater]
      refine ⟨n + 1, ?_, pass_looping hlooping hpos (room.of_le hd), hd⟩
      rw [List.range'_concat, List.map_append, Nat.one_mul, Nat.add_right_comm k 1 n]
      rfl)
    hstart
  refine ⟨n, ?_, ?_⟩
  · rw [List.nil_append, ← List.map_eq_flatMap] at htimes
    exact htimes
  · have hahead := (passes α).due_runUntil hlooping.nextPass?
    exact ⟨hlooping.coherent, hlooping.fixed, hlooping.running, hlooping.loop,
      Nat.le_trans hlooping.reached ht, hahead, hlooping.fresh⟩

/-- No other request disturbs the loop. An event that is handed out now is not overdue yet. -/
theorem Looping.serve {k : Nat} {s : Session α}
    (h : Looping settings start k s.clock.monotonic s.mailbox)
    (hpos : 0 < settings.ackTimeout.toNanos) {request : Request α}
    (hsame : SameLoop s.mailbox (s.serve request).2.mailbox) :
    Looping settings start k s.clock.monotonic (s.serve request).2.mailbox := by
  have hmotion := motion_serve s request
  refine ⟨(effect_serve h.coherent request).1, hmotion.settings.trans h.fixed,
    hsame.disposed.trans h.running, hsame.loop ▸ h.loop, h.reached, h.ahead, ?_⟩
  intro entry hentry
  rcases hmotion.mem_inFlight h.coherent hentry with hold | hnew
  · exact h.fresh entry hold
  · rw [hnew, h.fixed]
    exact Nat.lt_of_le_of_lt h.reached (Nat.lt_add_of_pos_right hpos)

/-- A loop at work does its passes in every run in which the mailbox is not disposed. -/
theorem looping_run {k : Nat} {s : Session α}
    (h : Looping settings start k s.clock.monotonic s.mailbox)
    (hperiod : 0 < settings.requeuePeriod.toNanos) (htimeout : 0 < settings.ackTimeout.toNanos)
    {requests : List (Request α)} (hrequests : ∀ request ∈ requests, request ≠ .dispose)
    (room : (s.run requests).2.clock.monotonic.HasRoom) :
    ∃ n, s.passTimes requests = (List.range' (k + 1) n).map (passTime settings start) ∧
      Looping settings start (k + n) (s.run requests).2.clock.monotonic
        (s.run requests).2.mailbox := by
  induction requests generalizing k s with
  | nil => exact ⟨0, rfl, h⟩
  | cons request rest ih =>
    rw [Session.run_cons] at room ⊢
    have hrest : ∀ request ∈ rest, request ≠ .dispose :=
      fun request hmem => hrequests request (List.mem_cons_of_mem _ hmem)
    unfold Session.passTimes
    rcases loop_cases s request with ⟨hnone, hsame, hclock⟩ | ⟨nanos, rfl⟩ | rfl
    · obtain ⟨n, htimes, hlooping⟩ := ih (hclock ▸ h.serve htimeout hsame) hrest room
      rw [hnone, htimes]
      exact ⟨n, rfl, hlooping⟩
    · have hroom := room.of_le (monotonic_le_run (s.serve (.pass nanos)).2 rest)
      obtain ⟨n, htimes, hlooping⟩ := passes_looping h hperiod nanos hroom
      obtain ⟨n', htimes', hlooping'⟩ := ih (s := (s.serve (.pass nanos)).2) hlooping hrest room
      refine ⟨n + n', ?_, Nat.add_assoc k n n' ▸ hlooping'⟩
      rw [htimes, htimes', ← List.map_append, Nat.add_right_comm k n 1, List.range'_append_1]
    · exact absurd rfl (hrequests _ List.mem_cons_self)

/-- A new mailbox that requeues on its own has its first pass one period ahead. -/
theorem looping_create {clock : Clock} {s : Session α}
    (h : Session.create settings clock = .ok s) (auto : settings.autoRequeue = true)
    (room : clock.monotonic.HasRoom) :
    settings.Valid ∧ Looping settings clock.monotonic 0 clock.monotonic s.mailbox := by
  unfold Session.create Mailbox.create at h
  split at h
  next => cases h
  next hvalid =>
    rw [dif_pos auto] at h
    dsimp only at h
    rw [RequeueLoop.schedule_eq room rfl rfl] at h
    cases h
    have hfirst : clock.monotonic.after settings.requeuePeriod =
        passTime settings clock.monotonic 1 := by
      unfold Instant.after passTime
      rw [Nat.one_mul]
    refine ⟨hvalid, coherent_empty settings _, rfl, rfl, ⟨_, rfl, rfl, rfl, ?_, rfl⟩, ?_, ?_,
      List.forall_mem_nil _⟩
    · exact congrArg some hfirst
    · unfold passTime
      rw [Nat.zero_mul]
      exact Nat.le_refl _
    · rw [← hfirst]
      exact Nat.lt_add_of_pos_right (QueueSettings.Valid.requeuePeriod_pos hvalid auto)

/-! ## The end of the loop -/

/-- A mailbox that has been disposed has no next pass. -/
def Silenced (m : Mailbox α) : Prop := m.disposed = true → m.nextPass? = none

theorem Silenced.dispose {m : Mailbox α} (h : Silenced m) :
    m.dispose.disposed = true ∧ m.dispose.nextPass? = none := by
  unfold Mailbox.dispose
  split
  next hdisposed => exact ⟨hdisposed, h hdisposed⟩
  next =>
    refine ⟨rfl, ?_⟩
    unfold Mailbox.nextPass?
    cases m.loop with
    | none => rfl
    | some l => exact l.alarm.deadline?_dispose

theorem silenced_pass {m : Mailbox α} (h : m.disposed = false) (now : Instant) :
    (m.pass now).disposed = false := by
  unfold pass
  split
  next => exact h
  next => exact h

/-- Without a next pass, none comes while time passes. -/
theorem pass_of_silent {s : Session α} (h : s.mailbox.nextPass? = none) (nanos : Nat) :
    s.passesIn (.pass nanos) = [] ∧ (s.pass nanos).mailbox = s.mailbox :=
  ⟨(passes α).firings_of_none h, (passes α).runUntil_of_none h⟩

theorem nextPass?_of_sameLoop {m m' : Mailbox α} (h : SameLoop m m') :
    m'.nextPass? = m.nextPass? := by
  unfold nextPass?
  rw [h.loop]

theorem silenced_serve {s : Session α} (h : Silenced s.mailbox) (request : Request α) :
    Silenced (s.serve request).2.mailbox := by
  rcases loop_cases s request with ⟨-, hsame, -⟩ | ⟨nanos, rfl⟩ | rfl
  · intro hdisposed
    rw [nextPass?_of_sameLoop hsame]
    exact h (hsame.disposed ▸ hdisposed)
  · cases hdisposed : s.mailbox.disposed with
    | true =>
      show Silenced (s.pass nanos).mailbox
      rw [(pass_of_silent (h hdisposed) nanos).2]
      exact h
    | false =>
      have hrun : ∃ _ : Instant, (s.pass nanos).mailbox.disposed = false :=
        (passes α).runUntil_invariant (P := fun _ m => m.disposed = false)
          (fun {now d m} hm _ _ => silenced_pass hm (now.later d)) hdisposed
      intro hdisposed'
      obtain ⟨_, hrun⟩ := hrun
      exact absurd (hrun.symm.trans hdisposed') Bool.false_ne_true
  · exact fun _ => h.dispose.2

theorem silenced_run {s : Session α} (h : Silenced s.mailbox) (requests : List (Request α)) :
    Silenced (s.run requests).2.mailbox := by
  induction requests generalizing s with
  | nil => exact h
  | cons request rest ih =>
    rw [Session.run_cons]
    exact ih (silenced_serve h request)

/-- Once the mailbox is disposed no pass comes any more. -/
theorem passTimes_of_disposed {s : Session α} (hsilenced : Silenced s.mailbox)
    (hdisposed : s.mailbox.disposed = true) (requests : List (Request α)) :
    s.passTimes requests = [] := by
  induction requests generalizing s with
  | nil => rfl
  | cons request rest ih =>
    unfold Session.passTimes
    have hsilenced' := silenced_serve hsilenced request
    rcases loop_cases s request with ⟨hnone, hsame, -⟩ | ⟨nanos, rfl⟩ | rfl
    · rw [hnone, ih hsilenced' (hsame.disposed.trans hdisposed)]
      rfl
    · obtain ⟨hnone, hmailbox⟩ := pass_of_silent (hsilenced hdisposed) nanos
      rw [hnone, ih hsilenced' ((congrArg Mailbox.disposed hmailbox).trans hdisposed)]
      rfl
    · rw [ih hsilenced' hsilenced.dispose.1]
      rfl

/-- The passes of a run can be told in two parts. -/
theorem passTimes_append (s : Session α) (before after : List (Request α)) :
    s.passTimes (before ++ after) =
      s.passTimes before ++ (s.run before).2.passTimes after := by
  induction before generalizing s with
  | nil => rfl
  | cons request rest ih =>
    rw [List.cons_append, Session.passTimes, Session.passTimes, ih, List.append_assoc,
      Session.run_cons]

/-! ## The schedule -/

/-- How many periods have passed since the creation of a mailbox. -/
def periodsSince (settings : QueueSettings) (start now : Instant) : Nat :=
  (now.nanos - start.nanos) / settings.requeuePeriod.toNanos

/-- Between two passes their number is that of the periods that have passed. -/
theorem periodsSince_eq {k : Nat} {now : Instant} (hreached : passTime settings start k ≤ now)
    (hahead : now < passTime settings start (k + 1)) : periodsSince settings start now = k := by
  have hreached : start.nanos + k * settings.requeuePeriod.toNanos ≤ now.nanos := hreached
  have hahead : now.nanos < start.nanos + (k + 1) * settings.requeuePeriod.toNanos := hahead
  exact Nat.div_eq_of_lt_le (by omega) (by omega)

/-- A session at rest whose mailbox was created at `start`, and the passes so far. -/
structure Regular (settings : QueueSettings) (start : Instant) (times : List Instant)
    (s : Session α) : Prop where
  /-- There was a pass whenever a period was over. -/
  passed : times = (List.range' 1 (periodsSince settings start s.clock.monotonic)).map
    (passTime settings start)
  armed : ∃ l, s.mailbox.loop = some l ∧ l.alarm.phase = .armed ∧ l.alarm.due =
    some (passTime settings start (periodsSince settings start s.clock.monotonic + 1))
  fresh : ∀ entry ∈ s.mailbox.inFlight,
    passTime settings start (periodsSince settings start s.clock.monotonic) < entry.2.deadline
  timely : ∀ entry ∈ s.mailbox.inFlight,
    s.clock.monotonic < entry.2.deadline.after settings.requeuePeriod
  /-- Only the passing of time and disposal change when the next pass comes. -/
  undisturbed : ∀ request, (∀ nanos, request ≠ .pass nanos) → request ≠ .dispose →
    s.passesIn request = [] ∧ (s.serve request).2.mailbox.loop = s.mailbox.loop

theorem Looping.regular {k : Nat} {s : Session α}
    (h : Looping settings start k s.clock.monotonic s.mailbox) :
    Regular settings start ((List.range' 1 k).map (passTime settings start)) s := by
  have hk := periodsSince_eq h.reached h.ahead
  obtain ⟨l, hl, hset⟩ := h.loop
  refine ⟨?_, ⟨l, hl, hset.phase, ?_⟩, ?_, ?_, ?_⟩
  · rw [hk]
  · rw [hk]
    exact hset.due
  · rw [hk]
    exact h.fresh
  · intro entry hentry
    have hfresh : (passTime settings start k).nanos < entry.2.deadline.nanos :=
      h.fresh entry hentry
    have hahead : s.clock.monotonic.nanos <
        ((passTime settings start k).after settings.requeuePeriod).nanos :=
      after_passTime settings start k ▸ h.ahead
    exact Nat.lt_trans hahead (Nat.add_lt_add_right hfresh _)
  · intro request hpass hdispose
    rcases loop_cases s request with ⟨hnone, hsame, -⟩ | ⟨nanos, rfl⟩ | rfl
    · exact ⟨hnone, hsame.loop⟩
    · exact absurd rfl (hpass nanos)
    · exact absurd rfl hdispose

/-- In every run of a mailbox that requeues on its own the passes come at the multiples of the
period, up to its disposal. -/
theorem regular_run {clock : Clock} {s : Session α} (h : Session.create settings clock = .ok s)
    (auto : settings.autoRequeue = true) (requests : List (Request α))
    (room : (s.run requests).2.clock.monotonic.HasRoom) :
    ((∀ request ∈ requests, request ≠ .dispose) →
        Regular settings clock.monotonic (s.passTimes requests) (s.run requests).2) ∧
      ∀ before after, requests = before ++ .dispose :: after →
        s.passTimes requests = s.passTimes before := by
  have hclock : s.clock = clock := by
    obtain ⟨loop, rfl⟩ := eq_of_sessionCreate h
    rfl
  subst hclock
  obtain ⟨hvalid, hlooping⟩ := looping_create h auto (room.of_le (monotonic_le_run s requests))
  refine ⟨?_, ?_⟩
  · intro hrequests
    obtain ⟨n, htimes, hlooping'⟩ := looping_run hlooping (hvalid.requeuePeriod_pos auto)
      hvalid.ackTimeout_pos hrequests room
    rw [Nat.zero_add] at htimes hlooping'
    rw [htimes]
    exact hlooping'.regular
  · rintro before after rfl
    have hsilenced : Silenced s.mailbox :=
      fun hdisposed => absurd (hlooping.running.symm.trans hdisposed) Bool.false_ne_true
    have hbefore := silenced_run hsilenced before
    have hend := passTimes_of_disposed (silenced_serve hbefore .dispose) hbefore.dispose.1 after
    rw [passTimes_append, Session.passTimes, hend]
    exact List.append_nil _

/-- Settings with a pass every 700 milliseconds. -/
def brisk : QueueSettings := { autoRequeue := true, ackTimeoutMs := 1000, requeuePeriodMs := 700 }

/-- An event is in flight twice. That its first deadline has passed, at one second, is seen in the
second pass. -/
theorem regular_run_brisk :
    ∃ s : Session Nat, Session.create brisk ⟨⟨5⟩, 0⟩ = .ok s ∧ brisk.autoRequeue = true ∧
      let requests := [.post (.ofNat 7) ⟨"Order"⟩ 1 none, .takeAny, .pass 1500000000, .takeAny,
        .pass 700000000]
      let longer := requests ++ .dispose :: [.pass 5000000000]
      (s.run longer).2.clock.monotonic.HasRoom ∧
        s.passTimes requests = [⟨700000005⟩, ⟨1400000005⟩, ⟨2100000005⟩] ∧
        (s.run requests).2.mailbox.inFlight.map (·.2.deadline) = [⟨2500000005⟩] ∧
        Regular brisk ⟨5⟩ (s.passTimes requests) (s.run requests).2 ∧
        s.passTimes longer = s.passTimes requests := by
  refine ⟨_, rfl, rfl, ?_⟩
  intro requests longer
  have hroom : Instant.HasRoom ⟨7200000005⟩ := by
    unfold Instant.HasRoom
    decide +kernel
  have hshort := hroom.of_le (t := ⟨2200000005⟩) (by decide)
  refine ⟨hroom, by decide +kernel, by decide +kernel, ?_, ?_⟩
  · exact (@regular_run Nat brisk ⟨⟨5⟩, 0⟩ _ rfl rfl requests hshort).1 (by simp [requests])
  · exact (@regular_run Nat brisk ⟨⟨5⟩, 0⟩ _ rfl rfl longer hroom).2 _ _ rfl

end Mailbox
end Courier
