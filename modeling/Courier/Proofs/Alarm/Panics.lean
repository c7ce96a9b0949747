import Courier.Proofs.Alarm.Firings
import Mathlib.Data.List.Forall2

/-!
# Callbacks that panic

A callback that panics ends there, and for the alarm that is a return. So a run in which some
callbacks panic at some step of theirs is compared with the run in which they return at that step:
both take the same moments, apart from the panics themselves, and everyone gets the same answers.

> `Interchangeable`: two scripts that do the same to every alarm at every instant.

> `Session.Matches.run`: interchangeable scripts make no difference to a run.

> `returns_run`: panics are returns, and after a panic the alarm is as usable as before.
-/

namespace Courier.Alarm

open Session (Request)

/-! ## Scripts without their ends -/

/-- The scripts, of which some are cut short: `cuts` says after how many steps, and `ending` stands
in place of the steps that are cut off. -/
def cutShort (ending : List Action) (cuts : Nat → Option Nat) (scripts : List (List Action)) :
    List (List Action) :=
  scripts.mapIdx fun i script =>
    match cuts i with
    | none => script
    | some steps => script.take steps ++ ending

/-- The moments apart from the panics. -/
def calm (log : List Moment) : List Moment := log.filter (·.deed ≠ .act .panic)

/-- The moments apart from the panics can be taken part by part. -/
theorem calm_append (log log' : List Moment) : calm (log ++ log') = calm log ++ calm log' :=
  List.filter_append _ _

/-- A moment that is no panic is kept. -/
theorem calm_cons {m : Moment} (h : m.deed ≠ .act .panic) (log : List Moment) :
    calm (m :: log) = m :: calm log := by
  apply List.filter_cons_of_pos
  simpa using h

/-- Two scripts do the same, whatever the alarm and whenever they run. -/
structure Interchangeable (script script' : List Action) : Prop where
  perform : ∀ now a, perform now script a = perform now script' a
  performed : ∀ now a, calm (performed now script a) = calm (performed now script' a)

theorem Interchangeable.refl (script : List Action) : Interchangeable script script :=
  ⟨fun _ _ => rfl, fun _ _ => rfl⟩

/-- A panic at the end of a script makes no difference. -/
theorem interchangeable_panic (script : List Action) :
    Interchangeable (script ++ [.panic]) script := by
  constructor
  · intro now a
    induction script generalizing a with
    | nil => rfl
    | cons action rest ih =>
      rw [List.cons_append, Alarm.perform, Alarm.perform]
      rcases act now a action with ⟨_ | seen, a'⟩
      · rfl
      · simp only [ih]
  · intro now a
    induction script generalizing a with
    | nil => rfl
    | cons action rest ih =>
      rw [List.cons_append, Alarm.performed, Alarm.performed]
      rcases act now a action with ⟨_ | seen, a'⟩
      · rfl
      · show calm ([_] ++ _) = calm ([_] ++ _)
        rw [calm_append, calm_append, ih]

/-- Scripts that are cut short by a panic are interchangeable with those that are cut short by
nothing. -/
theorem interchangeable_cutShort (cuts : Nat → Option Nat) (scripts : List (List Action)) :
    List.Forall₂ Interchangeable (cutShort [.panic] cuts scripts) (cutShort [] cuts scripts) := by
  induction scripts generalizing cuts with
  | nil => exact .nil
  | cons script rest ih =>
    rw [cutShort, cutShort, List.mapIdx_cons, List.mapIdx_cons]
    refine .cons ?_ (ih fun i => cuts (i + 1))
    rcases cuts 0 with _ | steps
    · exact .refl script
    · dsimp only
      rw [List.append_nil]
      exact interchangeable_panic _

/-! ## Runs of interchangeable scripts -/

section Firings

variable {now : Instant} {script script' : List Action} {scripts scripts' : List (List Action)}

/-- Interchangeable scripts make the same firing of an alarm. -/
theorem Interchangeable.fire (h : Interchangeable script script') (now : Instant) (a : Alarm) :
    fire now script a = fire now script' a := by
  rw [Alarm.fire, Alarm.fire, h.perform]

/-- Its moments are the same too, apart from the panics. -/
theorem Interchangeable.firing (h : Interchangeable script script') (now : Instant) (a : Alarm) :
    calm (firing now script a) = calm (firing now script' a) := by
  rw [Alarm.firing, Alarm.firing, h.perform, calm_cons Deed.noConfusion, calm_append, h.performed,
    ← calm_append, ← calm_cons Deed.noConfusion]

/-- Firings at deadlines do not depend on which of two interchangeable scripts there are. -/
theorem fireUntil_congr (h : List.Forall₂ Interchangeable scripts scripts') (limit : Instant)
    (fired : Nat) (clock : Clock) (a : Alarm) :
    ∃ firings left left' clock' a', List.Forall₂ Interchangeable left left' ∧
      fireUntil limit scripts fired clock a = (firings, left, clock', a') ∧
      fireUntil limit scripts' fired clock a = (firings, left', clock', a') := by
  induction h generalizing fired clock a with
  | nil =>
    rw [fireUntil]
    rcases clockAtNext? limit clock a with _ | clock'
    · exact ⟨[], [], [], clock, a, .nil, rfl, rfl⟩
    · exact ⟨_, [], [], clock', _, .nil, rfl, rfl⟩
  | @cons script script' rest rest' hscript hrest ih =>
    rw [fireUntil, fireUntil]
    rcases clockAtNext? limit clock a with _ | clock'
    · exact ⟨[], _, _, clock, a, .cons hscript hrest, rfl, rfl⟩
    · dsimp only
      rw [hscript.fire]
      obtain ⟨firings, left, left', clock₂, a₂, hleft, h, h'⟩ :=
        ih (fired + 1) clock' (Alarm.fire clock'.monotonic script' a).2
      rw [h, h']
      exact ⟨_, left, left', clock₂, a₂, hleft, rfl, rfl⟩

theorem firingsUntil_congr (h : List.Forall₂ Interchangeable scripts scripts') (limit : Instant)
    (clock : Clock) (a : Alarm) :
    calm (firingsUntil limit scripts clock a) = calm (firingsUntil limit scripts' clock a) := by
  induction h generalizing clock a with
  | nil => rfl
  | cons hscript _ ih =>
    rw [firingsUntil, firingsUntil]
    rcases clockAtNext? limit clock a with _ | clock'
    · rfl
    · dsimp only
      rw [calm_append, calm_append, hscript.firing, hscript.fire, ih]

end Firings

namespace Session

/-- Two sessions that differ in interchangeable scripts at most. -/
inductive Matches : Session → Session → Prop where
  | intro (alarm : Option Alarm) (clock : Clock) {scripts scripts' : List (List Action)}
      (fired : Nat) (alike : List.Forall₂ Interchangeable scripts scripts') :
      Matches ⟨alarm, clock, scripts, fired⟩ ⟨alarm, clock, scripts', fired⟩

variable {s r : Session}

theorem Matches.alarm (h : s.Matches r) : s.alarm = r.alarm := by
  cases h
  rfl

theorem Matches.clock (h : s.Matches r) : s.clock = r.clock := by
  cases h
  rfl

theorem Matches.fired (h : s.Matches r) : s.fired = r.fired := by
  cases h
  rfl

/-- Running what is due up to a limit, they see the same firings and match again. -/
theorem Matches.runUntil (h : s.Matches r) (limit : Instant) :
    ∃ firings s' r', s'.Matches r' ∧ s.runUntil limit = (firings, s') ∧
      r.runUntil limit = (firings, r') := by
  obtain ⟨_ | a, clock, fired, hscripts⟩ := h
  · exact ⟨[], _, _, .intro none clock fired hscripts, rfl, rfl⟩
  · obtain ⟨firings, left, left', clock', a', hleft, h, h'⟩ :=
      fireUntil_congr hscripts limit fired clock a
    rw [Session.runUntil, Session.runUntil]
    dsimp only
    rw [h, h']
    exact ⟨firings, _, _, .intro (some a') clock' _ hleft, rfl, rfl⟩

/-- The moments of these firings are the same, apart from the panics. -/
theorem Matches.momentsUntil (h : s.Matches r) (limit : Instant) :
    calm (s.momentsUntil limit) = calm (r.momentsUntil limit) := by
  obtain ⟨_ | a, clock, fired, hscripts⟩ := h
  · rfl
  · exact firingsUntil_congr hscripts limit clock a

/-- What is due by now is the same in both. -/
theorem Matches.settle (h : s.Matches r) :
    ∃ firings s' r', s'.Matches r' ∧ s.settle = (firings, s') ∧ r.settle = (firings, r') := by
  obtain ⟨alarm, clock, fired, hscripts⟩ := h
  exact (Matches.intro alarm clock fired hscripts).runUntil clock.monotonic

/-- The same happens in both while time passes. -/
theorem Matches.pass (h : s.Matches r) (nanos : Nat) :
    ∃ firings s' r', s'.Matches r' ∧ s.pass nanos = (firings, s') ∧
      r.pass nanos = (firings, r') := by
  obtain ⟨alarm, clock, fired, hscripts⟩ := h
  obtain ⟨firings, s', r', hrest, hs, hr⟩ :=
    (Matches.intro alarm clock fired hscripts).runUntil ⟨clock.monotonic.nanos + nanos⟩
  rw [Session.pass, Session.pass]
  dsimp only
  rw [hs, hr]
  obtain ⟨alarm', clock', fired', hscripts'⟩ := hrest
  exact ⟨firings, _, _, .intro alarm' _ fired' hscripts', rfl, rfl⟩

/-- A start from outside has the same answer and the same consequences. -/
theorem Matches.start (h : s.Matches r) (a : Alarm) (interval : Span) :
    ∃ result firings s' r', s'.Matches r' ∧ s.start a interval = (result, firings, s') ∧
      r.start a interval = (result, firings, r') := by
  obtain ⟨alarm, clock, fired, hscripts⟩ := h
  rw [Session.start, Session.start]
  dsimp only
  rcases a.start clock.monotonic interval with e | b
  · obtain ⟨firings, s', r', hrest, hs, hr⟩ := (Matches.intro alarm clock fired hscripts).settle
    exact ⟨.error e, firings, s', r', hrest, congrArg _ hs, congrArg _ hr⟩
  · obtain ⟨firings, s', r', hrest, hs, hr⟩ := (Matches.intro (some b) clock fired hscripts).settle
    exact ⟨.ok (), firings, s', r', hrest, congrArg _ hs, congrArg _ hr⟩

/-- The moments of a start are the same, apart from the panics. -/
theorem Matches.momentsOfStart (h : s.Matches r) (a : Alarm) (interval : Span) :
    calm (s.momentsOfStart a interval) = calm (r.momentsOfStart a interval) := by
  obtain ⟨alarm, clock, fired, hscripts⟩ := h
  rw [Session.momentsOfStart, Session.momentsOfStart, calm_cons Deed.noConfusion,
    calm_cons Deed.noConfusion]
  apply congrArg (_ :: ·)
  exact (Matches.intro _ clock fired hscripts).momentsUntil clock.monotonic

/-- A request gets the same answer and leads to the same firings. -/
theorem Matches.serve (h : s.Matches r) (request : Request) :
    ∃ reply firings s' r', s'.Matches r' ∧ s.serve request = (reply, firings, s') ∧
      r.serve request = (reply, firings, r') := by
  by_cases hpass : ∃ nanos, request = .pass nanos
  · obtain ⟨nanos, rfl⟩ := hpass
    obtain ⟨firings, s', r', hrest, hs, hr⟩ := h.pass nanos
    rw [Session.serve, Session.serve, hs, hr]
    dsimp only
    rw [hrest.clock]
    exact ⟨.now r'.clock, firings, s', r', hrest, rfl, rfl⟩
  · rcases halarm : s.alarm with _ | a
    · have hmiss : ∀ nanos, request ≠ .pass nanos := fun nanos heq => hpass ⟨nanos, heq⟩
      rw [serve_of_none halarm hmiss, serve_of_none (h.alarm ▸ halarm) hmiss]
      exact ⟨.dropped, [], s, r, h, rfl, rfl⟩
    · rw [Session.serve.eq_def, Session.serve.eq_def r, ← h.alarm, halarm]
      cases request with
      | pass nanos => exact absurd ⟨nanos, rfl⟩ hpass
      | start interval =>
        obtain ⟨result, firings, s', r', hrest, hs, hr⟩ := h.start a interval
        dsimp only
        rw [hs, hr]
        exact ⟨.started result, firings, s', r', hrest, rfl, rfl⟩
      | dispose =>
        obtain ⟨alarm, clock, fired, hscripts⟩ := h
        obtain ⟨firings, s', r', hrest, hs, hr⟩ :=
          (Matches.intro (some a.disposeAndWait) clock fired hscripts).settle
        exact ⟨.done, firings, s', r', hrest, congrArg _ hs, congrArg _ hr⟩
      | disposeDuringCallback =>
        obtain ⟨result, firings, s', r', hrest, hs, hr⟩ := h.start a .zero
        dsimp only
        rw [hs, hr]
        obtain ⟨alarm, clock, fired, hscripts⟩ := hrest
        exact ⟨.started result, firings, _, _, .intro _ clock fired hscripts, rfl, rfl⟩
      | name => exact ⟨.name a.name, [], s, r, h, rfl, rfl⟩
      | askThread => exact ⟨.onAlarmThread false, [], s, r, h, rfl, rfl⟩
      | drop =>
        obtain ⟨alarm, clock, fired, hscripts⟩ := h
        exact ⟨.done, [], _, _, .intro none clock fired hscripts, rfl, rfl⟩

/-- A request leads to the same moments, apart from the panics. -/
theorem Matches.momentsOf (h : s.Matches r) (request : Request) :
    calm (s.momentsOf request) = calm (r.momentsOf request) := by
  have hpass (nanos : Nat) :
      calm (s.momentsOf (.pass nanos)) = calm (r.momentsOf (.pass nanos)) := by
    obtain ⟨alarm, clock, fired, hscripts⟩ := h
    exact (Matches.intro alarm clock fired hscripts).momentsUntil _
  rcases halarm : s.alarm with _ | a
  · rw [momentsOf_of_none halarm, momentsOf_of_none (h.alarm ▸ halarm)]
  · cases request with
    | pass nanos => exact hpass nanos
    | start interval =>
      rw [Session.momentsOf.eq_def, Session.momentsOf.eq_def, ← h.alarm, halarm]
      exact h.momentsOfStart a interval
    | dispose =>
      rw [Session.momentsOf.eq_def, Session.momentsOf.eq_def, ← h.alarm, halarm]
      obtain ⟨alarm, clock, fired, hscripts⟩ := h
      dsimp only
      rw [calm_cons Deed.noConfusion, calm_cons Deed.noConfusion]
      apply congrArg (_ :: ·)
      exact (Matches.intro _ clock fired hscripts).momentsUntil clock.monotonic
    | disposeDuringCallback =>
      rw [Session.momentsOf.eq_def, Session.momentsOf.eq_def, ← h.alarm, halarm]
      obtain ⟨result, firings, s', r', hrest, hs, hr⟩ := h.start a .zero
      dsimp only
      rw [calm_append, calm_append, h.momentsOfStart, hs, hr, hrest.alarm, h.clock]
    | name | askThread =>
      rw [Session.momentsOf.eq_def, Session.momentsOf.eq_def, ← h.alarm, halarm]
    | drop =>
      rw [Session.momentsOf.eq_def, Session.momentsOf.eq_def, ← h.alarm, halarm]
      obtain ⟨alarm, clock, fired, hscripts⟩ := h
      rfl

/-- Interchangeable scripts make no difference to a run. -/
theorem Matches.run (h : s.Matches r) (requests : List Request) :
    (s.run requests).1 = (r.run requests).1 ∧ (s.run requests).2.Matches (r.run requests).2 ∧
      calm (s.moments requests) = calm (r.moments requests) := by
  induction requests generalizing s r with
  | nil => exact ⟨rfl, h, rfl⟩
  | cons request rest ih =>
    obtain ⟨reply, firings, s', r', hrest, hs, hr⟩ := h.serve request
    obtain ⟨hanswers, hend, hmoments⟩ := ih hrest
    rw [Session.run, Session.run, Session.moments, Session.moments, hs, hr, calm_append,
      calm_append, h.momentsOf, hmoments]
    exact ⟨congrArg (_ :: ·) hanswers, hend, rfl⟩

end Session

/-! ## What a panic leaves behind -/

/-- A panic is the last step of a callback, which ends at once and with the alarm as it is. -/
structure EndsAtPanics (log : List Moment) : Prop where
  last : ∀ before m after, log = before ++ m :: after → m.deed = .act .panic →
    ∃ leave later, after = leave :: later ∧ leave.deed = .leave ∧ leave.instant = m.instant ∧
      leave.before = m.before

theorem endsAtPanics_nil : EndsAtPanics [] := by
  constructor
  intro before m after hlog
  simp at hlog

/-- A moment that is no panic may come first. -/
theorem EndsAtPanics.cons {m : Moment} {log : List Moment} (h : EndsAtPanics log)
    (hm : m.deed ≠ .act .panic) : EndsAtPanics (m :: log) := by
  constructor
  intro before n after hlog hn
  rcases List.cons_eq_append_iff.1 hlog with ⟨rfl, hfirst⟩ | ⟨rest, rfl, hrest⟩
  · cases hfirst
    exact absurd hn hm
  · exact h.last rest n after hrest hn

/-- Two logs whose panics are followed by returns can be joined. -/
theorem EndsAtPanics.append {log log' : List Moment} (h : EndsAtPanics log)
    (h' : EndsAtPanics log') : EndsAtPanics (log ++ log') := by
  constructor
  intro before m after hlog hm
  rcases List.append_eq_append_iff.1 hlog with ⟨rest, rfl, hrest⟩ | ⟨rest, rfl, hrest⟩
  · exact h'.last rest m after hrest hm
  · rcases List.cons_eq_append_iff.1 hrest with ⟨rfl, hfirst⟩ | ⟨inside, rfl, hafter⟩
    · exact h'.last [] m after hfirst hm
    · obtain ⟨leave, later, rfl, hleave⟩ := h.last before m inside rfl hm
      exact ⟨leave, later ++ log', hafter, hleave⟩

/-- The steps of a callback end at the first panic, where it returns. -/
theorem endsAtPanics_performed (now : Instant) (script : List Action) (a : Alarm) :
    EndsAtPanics (performed now script a ++ [⟨now, .leave, (perform now script a).2⟩]) := by
  induction script generalizing a with
  | nil => exact endsAtPanics_nil.cons Deed.noConfusion
  | cons action rest ih =>
    rw [performed, perform]
    by_cases hpanic : action = .panic
    · rw [hpanic]
      constructor
      intro before m after hlog hm
      rcases List.cons_eq_append_iff.1 hlog with ⟨rfl, hfirst⟩ | ⟨rest, rfl, hrest⟩
      · cases hfirst
        exact ⟨_, [], rfl, rfl, rfl, rfl⟩
      · exact (endsAtPanics_nil.cons Deed.noConfusion).last rest m after hrest hm
    · have hseen : ∃ seen a', act now a action = (some seen, a') := by
        cases action with
        | panic => exact absurd rfl hpanic
        | start interval =>
          rw [act]
          split
          next => exact ⟨_, _, rfl⟩
          next => exact ⟨_, _, rfl⟩
        | dispose | lookAtPhase | askThread | awaitDisposal => exact ⟨_, _, rfl⟩
      obtain ⟨seen, a', hact⟩ := hseen
      rw [hact]
      exact (ih a').cons fun hdeed => hpanic (Deed.act.inj hdeed)

theorem endsAtPanics_firing (now : Instant) (script : List Action) (a : Alarm) :
    EndsAtPanics (firing now script a) :=
  (endsAtPanics_performed now script a.enter).cons Deed.noConfusion

theorem endsAtPanics_firingsUntil (limit : Instant) (scripts : List (List Action)) (clock : Clock)
    (a : Alarm) : EndsAtPanics (firingsUntil limit scripts clock a) := by
  induction scripts generalizing clock a with
  | nil =>
    rw [firingsUntil]
    rcases clockAtNext? limit clock a with _ | clock'
    · exact endsAtPanics_nil
    · exact endsAtPanics_firing ..
  | cons script rest ih =>
    rw [firingsUntil]
    rcases clockAtNext? limit clock a with _ | clock'
    · exact endsAtPanics_nil
    · exact (endsAtPanics_firing ..).append (ih ..)

namespace Session

theorem endsAtPanics_momentsUntil (s : Session) (limit : Instant) :
    EndsAtPanics (s.momentsUntil limit) := by
  rw [Session.momentsUntil]
  rcases s.alarm with _ | a
  · exact endsAtPanics_nil
  · exact endsAtPanics_firingsUntil ..

theorem endsAtPanics_momentsOf (s : Session) (request : Request) :
    EndsAtPanics (s.momentsOf request) := by
  have hstart (a : Alarm) (interval : Span) : EndsAtPanics (s.momentsOfStart a interval) :=
    (endsAtPanics_momentsUntil ..).cons Deed.noConfusion
  rcases halarm : s.alarm with _ | a
  · rw [momentsOf_of_none halarm]
    exact endsAtPanics_nil
  · rw [Session.momentsOf.eq_def, halarm]
    cases request with
    | pass nanos => exact endsAtPanics_momentsUntil ..
    | start interval => exact hstart a interval
    | dispose => exact (endsAtPanics_momentsUntil ..).cons Deed.noConfusion
    | disposeDuringCallback =>
      apply (hstart a .zero).append
      rcases (s.start a .zero).2.2.alarm with _ | b
      · exact endsAtPanics_nil
      · exact endsAtPanics_nil.cons Deed.noConfusion
    | name | askThread => exact endsAtPanics_nil
    | drop => exact endsAtPanics_nil.cons Deed.noConfusion

/-- Wherever a callback panics in a run, it returns there. -/
theorem endsAtPanics_moments (s : Session) (requests : List Request) :
    EndsAtPanics (s.moments requests) := by
  induction requests generalizing s with
  | nil => exact endsAtPanics_nil
  | cons request rest ih => exact (endsAtPanics_momentsOf s request).append (ih _)

end Session

/-! ## Runs with panics -/

/-- A start that succeeds is answered so, and what is due then fires. -/
theorem serve_started {s : Session} {a b : Alarm} {interval : Span} (halarm : s.alarm = some a)
    (hb : a.start s.clock.monotonic interval = .ok b) :
    s.serve (.start interval) = (.started (.ok ()), { s with alarm := some b }.settle) := by
  rw [Session.serve.eq_def, halarm]
  dsimp only
  rw [Session.start, hb]

/-- The firings after a start that succeeds are those at once, and those while time passes. -/
theorem firings_started {s : Session} {a b : Alarm} {interval : Span} (halarm : s.alarm = some a)
    (hb : a.start s.clock.monotonic interval = .ok b) (nanos : Nat) :
    s.firings [.start interval, .pass nanos] =
      { s with alarm := some b }.settle.1 ++
        ({ s with alarm := some b }.settle.2.pass nanos).1 := by
  rw [Session.firings, Session.run, serve_started halarm hb]
  simp [Session.run, Session.serve]

/-- A start that succeeds leads to a firing, when time has come. -/
theorem fires_of_started {s : Session} {a b : Alarm} {interval : Span} (halarm : s.alarm = some a)
    (hb : a.start s.clock.monotonic interval = .ok b) :
    ∃ seen rest, s.firings [.start interval, .pass interval.toNanos] =
      ⟨s.fired + 1, s.clock.monotonic.after interval, seen⟩ :: rest := by
  have hdue := deadline?_of_start hb
  have hunpassed : b.Unpassed s.clock.monotonic := by
    intro d hd
    rw [hdue] at hd
    cases hd
    exact Nat.le_add_right _ _
  rw [firings_started halarm hb]
  by_cases hnow : s.clock.monotonic.after interval ≤ s.clock.monotonic
  · obtain ⟨seen, rest, hfires⟩ :=
      runUntil_of_due (s := { s with alarm := some b }) rfl hunpassed hdue hnow
    rw [Session.settle, hfires]
    exact ⟨seen, _, rfl⟩
  · -- Nothing is due at once, so the firing comes while time passes.
    have hquiet : { s with alarm := some b }.settle = ([], { s with alarm := some b }) := by
      apply runUntil_of_quiet (s := { s with alarm := some b }) rfl
      intro d hd
      rw [hdue] at hd
      cases hd
      exact Nat.lt_of_not_le hnow
    rw [hquiet]
    exact runUntil_of_due (s := { s with alarm := some b }) rfl hunpassed hdue (Nat.le_refl _)

/-- A start within the range of the clock succeeds on an alarm that is not disposed. -/
theorem start_of_live {a : Alarm} (hlive : a.disposing = false) {now : Instant} {interval : Span}
    (hrange : (now.after interval).seconds ≤ Instant.lastSecond) :
    ∃ b, a.start now interval = .ok b := by
  rw [start_eq, if_neg (Nat.not_lt_of_le hrange), hlive]
  exact ⟨_, rfl⟩

/-- The alarm is at rest, and unless it has been disposed it can be started, and then fires when
time has come. -/
structure Session.Usable (s : Session) : Prop where
  rests : ∀ a, s.alarm = some a → a.AtRest s.clock.monotonic
  fires : ∀ a interval, s.alarm = some a → a.disposing = false →
    (s.clock.monotonic.after interval).seconds ≤ Instant.lastSecond →
    (s.serve (.start interval)).1 = .started (.ok ()) ∧
      ∃ seen rest, s.firings [.start interval, .pass interval.toNanos] =
        ⟨s.fired + 1, s.clock.monotonic.after interval, seen⟩ :: rest

/-- An alarm that a session drives is usable. -/
theorem Session.Drives.usable {s : Session} {a : Alarm} (h : s.Drives a) : s.Usable := by
  constructor
  · intro b hb
    rw [h.eq hb]
    exact h.rest
  · intro b interval hb hlive hrange
    obtain ⟨c, hc⟩ := start_of_live hlive hrange
    exact ⟨congrArg Prod.fst (serve_started hb hc), fires_of_started hb hc⟩

/-- A run in which callbacks panic, against the run in which they return instead. -/
structure ReturnsAtPanics (panicking returning : Session) (requests : List Request) : Prop where
  /-- The replies and the firings, with their instants and what their callbacks saw. -/
  answers : (panicking.run requests).1 = (returning.run requests).1
  /-- Every moment of the run with the alarm before it, also within the callbacks. -/
  moments : calm (panicking.moments requests) = calm (returning.moments requests)
  alarm : (panicking.run requests).2.alarm = (returning.run requests).2.alarm
  clock : (panicking.run requests).2.clock = (returning.run requests).2.clock
  fired : (panicking.run requests).2.fired = (returning.run requests).2.fired
  /-- What was started or disposed before a panic is so when the callback has ended. -/
  kept : ∀ before m after, panicking.moments requests = before ++ m :: after →
    m.deed = .act .panic →
    ∃ leave later, after = leave :: later ∧ leave.deed = .leave ∧ leave.instant = m.instant ∧
      leave.after.disposing = m.before.disposing ∧ leave.after.deadline? = m.before.deadline?
  /-- A deadline from before a panic is met, unless something else is decided before it. -/
  fate : ∀ before m after d, panicking.moments requests = before ++ m :: after →
    m.deed = .act .panic → m.before.deadline? = some d →
    (∃ quiet n later, after = quiet ++ n :: later ∧ (∀ n ∈ quiet, ¬ n.decides) ∧ InTime d n) ∨
      (∀ n ∈ after, ¬ n.decides) ∧ (panicking.run requests).2.clock.monotonic < d
  usable : (panicking.run requests).2.Usable

/-- Whatever the callbacks do: where some of them panic from some step on, everything is as if they
had returned at that step. -/
theorem returns_run (name : String) (clock : Clock) (scripts : List (List Action))
    (cuts : Nat → Option Nat) (requests : List Request) :
    ReturnsAtPanics (Session.initial name clock (cutShort [.panic] cuts scripts))
      (Session.initial name clock (cutShort [] cuts scripts)) requests := by
  have hmatches : (Session.initial name clock (cutShort [.panic] cuts scripts)).Matches
      (Session.initial name clock (cutShort [] cuts scripts)) :=
    .intro _ clock 0 (interchangeable_cutShort cuts scripts)
  obtain ⟨hanswers, hend, hmoments⟩ := hmatches.run requests
  refine ⟨hanswers, hmoments, hend.alarm, hend.clock, hend.fired, ?_, ?_, ?_⟩
  · intro before m after hlog hpanic
    obtain ⟨leave, later, rfl, hdeed, hinstant, hbefore⟩ :=
      (Session.endsAtPanics_moments ..).last before m after hlog hpanic
    refine ⟨leave, later, rfl, hdeed, hinstant, ?_⟩
    rw [Moment.after, hdeed, hbefore]
    exact ⟨rfl, rfl⟩
  · intro before m after d hlog hpanic hdue
    have hpending : m.after.deadline? = some d := by
      rw [Moment.after, hpanic]
      exact hdue
    exact fate_of_moment (drives_initial name clock _) hlog hpending
  · obtain ⟨a, -, hdrives⟩ := course_run (drives_initial name clock _) requests
    exact hdrives.usable

/-- A start before a panic counts, and so does a disposal; what stands behind the panic does not. -/
example :
    let nanos (n : Fin 1000) : Span := ⟨0, n, by decide, Nat.lt_trans n.isLt (by decide)⟩
    let scripts := [[.start (nanos 5), .dispose], [.dispose, .start (nanos 7)]]
    let s := Session.initial "t" ⟨⟨100⟩, 0⟩ (cutShort [.panic] (fun _ => some 1) scripts)
    let requests := [Request.start (nanos 10), .pass 50]
    (s.firings requests).map (·.instant.nanos) = [110, 115] ∧
      (s.run requests).2.alarm.map (·.phase) = some .disposed := by
  decide

end Courier.Alarm
