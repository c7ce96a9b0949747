import Courier.Alarm.Basic
import Courier.Misuse

/-!
# An alarm at work

A `Session` is an alarm with the callbacks that it will run, one script for each firing, and the
clock it runs by. A request from outside is answered at once; then every firing that is due runs,
until the alarm is at rest. While time passes, each firing happens at its deadline.

Firings beyond the scripts do nothing. So a session comes to rest however often its callbacks
start the alarm again.
-/

namespace Courier.Alarm

/-- One step of a callback. -/
inductive Action where
  /-- Start the alarm. -/
  | start (interval : Span)
  /-- Dispose the alarm. -/
  | dispose
  /-- Look at the phase. -/
  | lookAtPhase
  /-- Ask whether this is the alarm's own thread. -/
  | askThread
  /-- Wait until a caller outside the callback disposes the alarm, and look at the phase. -/
  | awaitDisposal
  /-- Panic. -/
  | panic
deriving DecidableEq

/-- What a step of a callback brings back. -/
inductive Observation where
  | started (result : Except Failure Unit)
  | disposed
  | phase (phase : Phase)
  | onAlarmThread (answer : Bool)
  | disposalSeen (phase : Phase)

/-- Takes one step of a callback. -/
def act (now : Instant) (a : Alarm) : Action → Option Observation × Alarm
  | .start interval =>
    match a.start now interval with
    | .ok a' => (some (.started (.ok ())), a')
    | .error e => (some (.started (.error e)), a)
  | .dispose => (some .disposed, a.dispose)
  | .lookAtPhase => (some (.phase a.phase), a)
  | .askThread => (some (.onAlarmThread true), a)
  | .awaitDisposal => let a' := a.disposeAndWait; (some (.disposalSeen a'.phase), a')
  | .panic => (none, a)

/-- Runs the steps of a callback, up to the first panic. -/
def perform (now : Instant) : List Action → Alarm → List Observation × Alarm
  | [], a => ([], a)
  | action :: rest, a =>
    match act now a action with
    | (none, a') => ([], a')
    | (some seen, a') =>
      let (later, a'') := perform now rest a'
      (seen :: later, a'')

/-- One firing: its number, its instant and what its callback saw. -/
structure Firing where
  number : Nat
  instant : Instant
  seen : List Observation

/-- Fires once, with the script for the callback. -/
def fire (now : Instant) (script : List Action) (a : Alarm) : List Observation × Alarm :=
  let (seen, a') := perform now script a.enter
  (seen, a'.leave)

/-- An alarm, the scripts of the firings to come, and the clock. -/
structure Session where
  /-- The alarm, until it is dropped. -/
  alarm : Option Alarm
  clock : Clock
  scripts : List (List Action)
  /-- How often the alarm has fired. -/
  fired : Nat := 0

/-- The clock at the next firing, if its deadline is not later than `limit`. A deadline that has
already passed is met now. -/
def clockAtNext? (limit : Instant) (clock : Clock) (a : Alarm) : Option Clock :=
  match a.deadline? with
  | none => none
  | some d => if d ≤ limit then some (clock.moveTo d) else none

/-- The firings at deadlines up to `limit`, with what is left of the scripts, the alarm and the
clock after them. -/
def fireUntil (limit : Instant) :
    (scripts : List (List Action)) → (fired : Nat) → Clock → Alarm →
      List Firing × List (List Action) × Clock × Alarm
  | [], fired, clock, a =>
    match clockAtNext? limit clock a with
    | none => ([], [], clock, a)
    | some clock =>
      let (seen, a) := fire clock.monotonic [] a
      ([⟨fired + 1, clock.monotonic, seen⟩], [], clock, a)
  | script :: rest, fired, clock, a =>
    match clockAtNext? limit clock a with
    | none => ([], script :: rest, clock, a)
    | some clock =>
      let (seen, a) := fire clock.monotonic script a
      let (firings, left) := fireUntil limit rest (fired + 1) clock a
      (⟨fired + 1, clock.monotonic, seen⟩ :: firings, left)

namespace Session

/-- A new alarm at the time that `clock` shows. -/
def initial (name : String) (clock : Clock) (scripts : List (List Action)) : Session :=
  { alarm := some { name }, clock, scripts }

/-- Creates an alarm and its thread, which is named after it. -/
def create (name : String) (clock : Clock) (scripts : List (List Action)) :
    Except Misuse Session := do
  checkThreadName ("timer-" ++ name)
  return initial name clock scripts

/-- Runs every firing up to `limit`. -/
def runUntil (s : Session) (limit : Instant) : List Firing × Session :=
  match s.alarm with
  | none => ([], s)
  | some a =>
    let (firings, scripts, clock, a) := fireUntil limit s.scripts s.fired s.clock a
    (firings, { alarm := some a, clock, scripts, fired := s.fired + firings.length })

/-- Runs every firing that is due. -/
def settle (s : Session) : List Firing × Session := s.runUntil s.clock.monotonic

/-- Lets time pass. -/
def pass (s : Session) (nanos : Nat) : List Firing × Session :=
  let target : Instant := ⟨s.clock.monotonic.nanos + nanos⟩
  let (firings, s) := s.runUntil target
  (firings, { s with clock := s.clock.moveTo target })

/-- A request from outside the callback. -/
inductive Request where
  | start (interval : Span)
  | pass (nanos : Nat)
  | dispose
  /-- Start the alarm at once, and dispose it while its callback runs; if it does not start,
  dispose it right away. -/
  | disposeDuringCallback
  | name
  | askThread
  | drop
deriving DecidableEq

/-- The answer to a request. -/
inductive Reply where
  | started (result : Except Failure Unit)
  | now (clock : Clock)
  | done
  | name (name : String)
  | onAlarmThread (answer : Bool)
  /-- There is no alarm any more. -/
  | dropped

/-- Starts the alarm and runs what is due. -/
def start (s : Session) (a : Alarm) (interval : Span) :
    Except Failure Unit × List Firing × Session :=
  match a.start s.clock.monotonic interval with
  | .error e => (.error e, s.settle)
  | .ok a => (.ok (), { s with alarm := some a }.settle)

/-- Answers a request and runs what is due. Time passes even without an alarm. -/
def serve (s : Session) (request : Request) : Reply × List Firing × Session :=
  match request, s.alarm with
  | .pass nanos, _ =>
    let (firings, s) := s.pass nanos
    (.now s.clock, firings, s)
  | _, none => (.dropped, [], s)
  | .start interval, some a =>
    let (result, firings, s) := s.start a interval
    (.started result, firings, s)
  | .dispose, some a => (.done, { s with alarm := some a.disposeAndWait }.settle)
  | .disposeDuringCallback, some a =>
    let (result, firings, s) := s.start a .zero
    (.started result, firings, { s with alarm := s.alarm.map disposeAndWait })
  | .name, some a => (.name a.name, [], s)
  | .askThread, some _ => (.onAlarmThread false, [], s)
  | .drop, some _ => (.done, [], { s with alarm := none })

end Session
end Courier.Alarm
