import Courier.Alarm.Basic
import Courier.Event.Basic
import Courier.Time.Recurring

/-!
# Mailboxes with acknowledgement

A `Mailbox` hands out events and keeps each one until it is acknowledged. An event is available
first; when it is taken it is in flight, and stays so until it is acknowledged or returns, once
its deadline has passed, to the end of the available events. So every event is delivered at least
once, and a consumer that takes too long receives it again.

A mailbox that requeues on its own has an alarm that returns overdue events once per period.
-/

namespace Courier

/-- An event that has been handed out. -/
structure InFlight (α : Type) where
  event : Event α
  takenAt : Instant
  /-- From when on the event counts as overdue. -/
  deadline : Instant

/-- Whether an event in flight is overdue. -/
def InFlight.isOverdue {α : Type} (f : InFlight α) (now : Instant) : Bool := f.deadline ≤ now

/-- The alarm of a mailbox that requeues on its own. -/
structure RequeueLoop where
  alarm : Alarm
  period : Span
  period_pos : 0 < period.toNanos

namespace RequeueLoop

/-- The loop with its alarm started, if the clock can show the instant of its next firing. -/
def schedule (l : RequeueLoop) (now : Instant) : RequeueLoop :=
  match l.alarm.start now l.period with
  | .ok alarm => { l with alarm }
  | .error _ => l

/-- The next pass of the loop lies ahead. -/
theorem lt_deadline_schedule {l : RequeueLoop} {now d : Instant}
    (hdue : l.alarm.due = none) (h : (l.schedule now).alarm.deadline? = some d) : now < d := by
  rw [schedule] at h
  split at h
  · next alarm hstart =>
    obtain ⟨_, hdis, hdue'⟩ := Alarm.start_eq_ok hstart
    simp only [Alarm.deadline?, hdis, hdue', Bool.false_eq_true, if_false, Option.some.injEq] at h
    rw [← h, Instant.lt_iff, Instant.after]
    exact Nat.lt_add_of_pos_right l.period_pos
  · simp only [Alarm.deadline?, hdue, ite_self] at h
    cases h

end RequeueLoop

/-- Events that wait, and events that wait for their acknowledgement. -/
structure Mailbox (α : Type) where
  settings : QueueSettings
  /-- The events that can be taken, oldest first. -/
  available : List (Event α) := []
  /-- The events that have been taken, by identifier. -/
  inFlight : List (Event.Id × InFlight α) := []
  /-- The identifiers of the events that are available or in flight. -/
  tracked : List Event.Id := []
  /-- How many events have been accepted. -/
  accepted : Nat := 0
  /-- How many events have been turned away because there was no room. -/
  dropped : Nat := 0
  /-- How many events have been acknowledged. -/
  acknowledged : Nat := 0
  /-- How often an event has returned. -/
  returned : Nat := 0
  disposed : Bool := false
  loop : Option RequeueLoop := none

namespace Mailbox

variable {α : Type}

/-! ## Posting -/

/-- Whether the settings leave no room for another available event. -/
def isFull (m : Mailbox α) : Bool :=
  match m.settings.queueLimit with
  | none => false
  | some limit => limit.toNat ≤ m.available.length

/-- The properties with which an event is posted: those that are supplied, or new ones with the
fresh identifier, completed. -/
def postedProperties (clock : Clock) (fresh : Event.Id) (kind : Event.Kind)
    (supplied : Option Event.Properties) : Event.Properties :=
  (supplied.getD (.create fresh clock.nowMillis)).complete kind clock.nowMillis

/-- Posts an event. A disposed mailbox refuses it, and so does one that tracks its identifier; a
full one turns it away, which is no failure. -/
def post (m : Mailbox α) (clock : Clock) (fresh : Event.Id) (kind : Event.Kind) (data : α)
    (supplied : Option Event.Properties) : Except Failure (Option Event.Id) × Mailbox α :=
  if m.disposed then (.error (.disposed .mailbox), m)
  else
    let properties := postedProperties clock fresh kind supplied
    if properties.id ∈ m.tracked then (.error (.alreadyTracked properties.id), m)
    else if m.isFull then (.ok none, { m with dropped := m.dropped + 1 })
    else
      (.ok (some properties.id),
        { m with
          available := m.available ++ [{ properties, kind, data }]
          tracked := properties.id :: m.tracked
          accepted := m.accepted + 1 })

/-! ## Taking -/

/-- Puts an event in flight, instead of one with the same identifier. Its deadline is the exact sum.
The clock cannot show a sum past its end, and to ask it for one is to panic; `sums_in_range` says
that no deadline comes so late as long as the clock has room. -/
def track (m : Mailbox α) (e : Event α) (now : Instant) : Mailbox α :=
  let flight : InFlight α :=
    { event := e, takenAt := now, deadline := now.after m.settings.ackTimeout }
  { m with inFlight := (e.id, flight) :: m.inFlight.filter (·.1 ≠ e.id) }

/-- Takes the oldest available event of a kind. -/
def take (m : Mailbox α) (kind : Event.Kind) (now : Instant) :
    Option (Event.OfKind α kind) × Mailbox α :=
  match m.available.find? (·.kind = kind) with
  | none => (none, m)
  | some e =>
    match e.ofKind? kind with
    | none => (none, m)
    | some typed =>
      (some typed,
        { m with available := m.available.eraseP (·.kind = kind) }.track e now)

/-- Takes the oldest available event. -/
def takeAny (m : Mailbox α) (now : Instant) : Option (Event α) × Mailbox α :=
  match m.available with
  | [] => (none, m)
  | e :: rest => (some e, { m with available := rest }.track e now)

/-! ## Acknowledging and returning -/

/-- Acknowledges an event, if it is in flight. The answer says whether it was. -/
def acknowledge (m : Mailbox α) (id : Event.Id) : Bool × Mailbox α :=
  match m.inFlight.lookup id with
  | none => (false, m)
  | some _ =>
    (true,
      { m with
        inFlight := m.inFlight.filter (·.1 ≠ id)
        tracked := m.tracked.erase id
        acknowledged := m.acknowledged + 1 })

/-- The order in which overdue events return: by deadline, and at one deadline by identifier. -/
def returnsBefore (a b : Event.Id × InFlight α) : Bool :=
  a.2.deadline < b.2.deadline ∨ (a.2.deadline = b.2.deadline ∧ a.1 ≤ b.1)

/-- Returns every overdue event to the end of the available ones. The answer is their number. -/
def returnOverdue (m : Mailbox α) (now : Instant) : Nat × Mailbox α :=
  let overdue := m.inFlight.filter (InFlight.isOverdue ·.2 now)
  (overdue.length,
    { m with
      available := m.available ++ (overdue.mergeSort returnsBefore).map (·.2.event)
      inFlight := m.inFlight.filter (fun entry => ! InFlight.isOverdue entry.2 now)
      returned := m.returned + overdue.length })

/-- The deadline of an event in flight. -/
def deadline? (m : Mailbox α) (id : Event.Id) : Option Instant :=
  (m.inFlight.lookup id).map (·.deadline)

/-! ## The requeue loop -/

/-- A new mailbox. If it requeues on its own, the first pass is one period away. -/
def create (settings : QueueSettings) (now : Instant) : Except Failure (Mailbox α) :=
  match h : settings.defect? with
  | some defect => .error (.queueSettings defect)
  | none =>
    if auto : settings.autoRequeue then
      let l : RequeueLoop :=
        { alarm := { name := "ack-requeue" }
          period := settings.requeuePeriod
          period_pos := QueueSettings.Valid.requeuePeriod_pos h auto }
      .ok { settings, loop := some (l.schedule now) }
    else .ok { settings }

/-- A new mailbox after the settings of all components have been checked. -/
def createChecked (settings : Settings) (now : Instant) : Except Failure (Mailbox α) :=
  match settings.defect? with
  | some defect => .error (.settings defect)
  | none => create settings.queue now

/-- The next pass of the requeue loop. -/
def nextPass? (m : Mailbox α) : Option Instant :=
  match m.loop with
  | none => none
  | some l => l.alarm.deadline?

/-- One pass of the requeue loop: overdue events return, and unless the mailbox is disposed the
next pass is set. -/
def pass (now : Instant) (m : Mailbox α) : Mailbox α :=
  match m.loop with
  | none => m
  | some l =>
    let l := { l with alarm := l.alarm.enter }
    let l := if m.disposed then l else l.schedule now
    { (m.returnOverdue now).2 with loop := some { l with alarm := l.alarm.leave } }

/-- Disposes the mailbox: it refuses further events, and the requeue loop ends. -/
def dispose (m : Mailbox α) : Mailbox α :=
  if m.disposed then m
  else
    { m with
      disposed := true
      loop := m.loop.map fun l => { l with alarm := l.alarm.dispose } }

/-- The pass after a pass is a later one. -/
theorem nextPass?_pass {m : Mailbox α} {now d : Instant} (h : (m.pass now).nextPass? = some d) :
    now < d := by
  unfold pass at h
  split at h
  · next hl => simp only [nextPass?, hl] at h; cases h
  · next l hl =>
    simp only [nextPass?, Alarm.deadline?_leave] at h
    split at h
    · rw [Alarm.deadline?] at h
      split at h <;> cases h
    · exact RequeueLoop.lt_deadline_schedule rfl h

/-- The mailbox as a machine that fires at each pass. -/
def passes (α : Type) : Recurring (Mailbox α) where
  due := nextPass?
  fire := pass
  due_fire h := nextPass?_pass h

/-! ## Statistics -/

/-- How many events are where, and how many have been. -/
structure Stats where
  available : Nat
  inFlight : Nat
  accepted : Nat
  dropped : Nat
  acknowledged : Nat
  returned : Nat
deriving DecidableEq

/-- The statistics of a mailbox. -/
def stats (m : Mailbox α) : Stats where
  available := m.available.length
  inFlight := m.inFlight.length
  accepted := m.accepted
  dropped := m.dropped
  acknowledged := m.acknowledged
  returned := m.returned

end Mailbox
end Courier
