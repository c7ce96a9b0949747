import Courier.Proofs.Alarm.Reference
import Mathlib.Data.List.Induction

/-!
# Firings and their starts

A start that succeeds decides about the alarm until the next moment that does: a firing, another
start, or a disposal. So the firings can be traced back to the starts, and each start forward to
what becomes of it.

> `Course.cause`: where a deadline comes from.

> `Course.fate`: what becomes of it.

> `matched_run`: in every run the firings are those of the reference, each at the deadline of the
> start that caused it, and each start has one fate.
-/

namespace Courier.Alarm

open Session (Request)

/-- Whether the moment sets or clears the deadline. -/
def Moment.decides (m : Moment) : Bool := m.sets?.isSome || m.clears

/-- Whether the moment comes from outside the callback. -/
def Moment.isOutside (m : Moment) : Bool :=
  match m.deed with
  | .start _ | .dispose => true
  | _ => false

/-- What does not decide about a deadline leaves it. -/
theorem Moment.deadline?_after_of_not_decides {m : Moment} (h : ¬ m.decides) :
    m.after.deadline? = m.before.deadline? := by
  have hsets : m.sets? = none := by
    rcases hsets : m.sets? with _ | d
    · rfl
    · exact absurd (by rw [decides, hsets]; rfl) h
  have hclears : ¬ m.clears := fun hclears => h (by rw [decides, hclears, Bool.or_true])
  rw [m.deadline?_after, hsets, if_neg hclears, Option.none_or]

/-! ## Deadlines in the course of moments -/

section Course

variable {t u d : Instant} {a b : Alarm} {log : List Moment}

/-- A deadline that was not there at first has been set by a start, and nothing has been decided
since. -/
theorem Course.cause (h : Course t a log u b) (ha : a.deadline? = none)
    (hb : b.deadline? = some d) :
    ∃ earlier start quiet, log = earlier ++ start :: quiet ∧ start.sets? = some d ∧
      ∀ n ∈ quiet, ¬ n.decides := by
  induction log using List.reverseRecOn generalizing u b with
  | nil =>
    cases h with
    | rest => rw [ha] at hb; cases hb
  | append_singleton front m ih =>
    obtain ⟨v, c, hfront, hlast⟩ := h.split
    cases hlast with
    | next next hrest =>
    cases hrest with
    | rest =>
    by_cases hdecides : m.decides
    · -- A moment that clears the deadline would have left none.
      rw [m.deadline?_after] at hb
      rcases hsets : m.sets? with _ | e
      · have hclears : m.clears = true := by
          rwa [Moment.decides, hsets, Option.isSome_none, Bool.false_or] at hdecides
        rw [hsets, if_pos hclears] at hb
        cases hb
      · rw [hsets] at hb
        cases hb
        exact ⟨front, m, [], rfl, hsets, List.forall_mem_nil _⟩
    · rw [m.deadline?_after_of_not_decides hdecides, next.before] at hb
      obtain ⟨earlier, start, quiet, rfl, hsets, hquiet⟩ := ih hfront hb
      refine ⟨earlier, start, quiet ++ [m], by simp, hsets, fun n hn => ?_⟩
      rcases List.mem_append.1 hn with hn | hn
      · exact hquiet n hn
      · rw [List.mem_singleton.1 hn]
        exact hdecides

/-- What decides next about a deadline comes in time: a firing at the deadline itself, what comes
from outside before it. -/
structure InTime (d : Instant) (m : Moment) : Prop where
  decides : m.decides
  le : m.instant ≤ d
  firing : m.deed = .enter → m.instant = d
  outside : m.isOutside → m.instant < d

/-- Time does not pass a deadline about which the next moment decides. -/
theorem Moment.Next.inTime {m : Moment} (h : m.Next t a) (ha : a.deadline? = some d)
    (hdecides : m.decides) : InTime d m := by
  have hdue : m.before.deadline? = some d := h.before ▸ ha
  have htimely := h.timely
  refine ⟨hdecides, h.unpassed d ha, fun henter => ?_, fun houtside => ?_⟩
  · rw [Timely, henter] at htimely
    exact Option.some.inj (htimely.2.symm.trans hdue)
  · unfold Timely at htimely
    unfold isOutside at houtside
    split at htimely
    next => exact htimely.2 d hdue
    next => exact htimely.2 d hdue
    next hdeed => rw [hdeed] at houtside; cases houtside
    next hdeed => rw [hdeed] at houtside; cases houtside
    next hdeed => rw [hdeed] at houtside; cases houtside

/-- A deadline is decided about in time, or it is still there at the end. -/
theorem Course.fate (h : Course t a log u b) (ha : a.deadline? = some d) :
    (∃ quiet m later, log = quiet ++ m :: later ∧ (∀ n ∈ quiet, ¬ n.decides) ∧ InTime d m) ∨
      (∀ n ∈ log, ¬ n.decides) ∧ b.deadline? = some d := by
  induction h with
  | rest => exact .inr ⟨List.forall_mem_nil _, ha⟩
  | @next t u a b m log next _ ih =>
    by_cases hdecides : m.decides
    · exact .inl ⟨[], m, log, rfl, List.forall_mem_nil _, next.inTime ha hdecides⟩
    · have hafter : m.after.deadline? = some d := by
        rw [m.deadline?_after_of_not_decides hdecides, next.before]
        exact ha
      rcases ih hafter with ⟨quiet, n, later, rfl, hquiet, hn⟩ | ⟨hquiet, hb⟩
      · exact .inl ⟨m :: quiet, n, later, rfl, List.forall_mem_cons.2 ⟨hdecides, hquiet⟩, hn⟩
      · exact .inr ⟨List.forall_mem_cons.2 ⟨hdecides, hquiet⟩, hb⟩

/-- A callback that runs goes on, at one instant, until it ends. -/
theorem Course.returns (h : Course t a log u b) (ha : a.phase = .running)
    (hb : b.phase ≠ .running) :
    ∃ inside leave later, log = inside ++ leave :: later ∧
      (∀ n ∈ inside, n.instant = t ∧ ∃ action, n.deed = .act action) ∧
      leave.instant = t ∧ leave.deed = .leave := by
  induction h with
  | rest => exact absurd ha hb
  | @next t u a b m log next _ ih =>
    have hinstant := next.still ha
    have hphase : m.before.phase = .running := next.before ▸ ha
    have htimely := next.timely
    unfold Moment.Timely at htimely
    split at htimely
    next => exact absurd hphase htimely.1
    next => exact absurd hphase htimely.1
    next => exact absurd hphase htimely.1
    next action hdeed =>
      have hafter : m.after.phase = .running := by
        rw [Moment.after, hdeed]
        exact phase_act m.instant hphase action
      obtain ⟨inside, leave, later, rfl, hinside, hleave⟩ := ih hafter hb
      rw [hinstant] at hinside hleave
      exact ⟨m :: inside, leave, later, rfl,
        List.forall_mem_cons.2 ⟨⟨hinstant, action, hdeed⟩, hinside⟩, hleave⟩
    next hdeed => exact ⟨[], m, log, rfl, List.forall_mem_nil _, hinstant, hdeed⟩

/-- A deadline that is reached when the callback has ended is met at once. -/
theorem Course.directly (h : Course t a log u b) (ha : a.phase ≠ .running)
    (hdue : a.deadline? = some t) (hb : b.AtRest u) :
    ∃ m later, log = m :: later ∧ m.deed = .enter ∧ m.instant = t := by
  cases h with
  | rest later => exact absurd (hb.2 t hdue) (Nat.not_lt_of_le later)
  | @next _ _ _ _ m log next =>
    have hinstant : m.instant = t :=
      congrArg Instant.mk (Nat.le_antisymm (next.unpassed t hdue) next.later)
    have hdue' : m.before.deadline? = some m.instant := by
      rw [next.before, hinstant]
      exact hdue
    have hphase : m.before.phase ≠ .running := next.before ▸ ha
    have htimely := next.timely
    unfold Moment.Timely at htimely
    split at htimely
    next => exact absurd (htimely.2 _ hdue') (Nat.lt_irrefl _)
    next => exact absurd (htimely.2 _ hdue') (Nat.lt_irrefl _)
    next hdeed => exact ⟨m, log, rfl, hdeed, hinstant⟩
    next => exact absurd htimely hphase
    next => exact absurd htimely hphase

end Course

/-! ## The firings in the log -/

/-- The instants at which the callback begins to run. -/
def entries (log : List Moment) : List Instant := (log.filter (·.deed = .enter)).map (·.instant)

/-- The firings of a log can be told in two parts. -/
theorem entries_append (log log' : List Moment) :
    entries (log ++ log') = entries log ++ entries log' := by
  rw [entries, List.filter_append, List.map_append]
  rfl

/-- No firing begins within a callback. -/
theorem entries_performed (now : Instant) (script : List Action) (a : Alarm) :
    entries (performed now script a) = [] := by
  induction script generalizing a with
  | nil => rfl
  | cons action rest ih =>
    rw [performed]
    rcases act now a action with ⟨_ | seen, a'⟩
    · rfl
    · exact ih a'

/-- A firing begins once. -/
theorem entries_firing (now : Instant) (script : List Action) (a : Alarm) :
    entries (firing now script a) = [now] := by
  show now :: entries (performed now script a.enter ++ [_]) = [now]
  rw [entries_append, entries_performed]
  rfl

/-- Firings up to a limit begin at the instants that they show. -/
theorem entries_firingsUntil (limit : Instant) (scripts : List (List Action)) (fired : Nat)
    (clock : Clock) (a : Alarm) :
    entries (firingsUntil limit scripts clock a) =
      (fireUntil limit scripts fired clock a).1.map (·.instant) := by
  induction scripts generalizing fired clock a with
  | nil =>
    rw [firingsUntil, fireUntil]
    rcases clockAtNext? limit clock a with _ | clock'
    · rfl
    · exact entries_firing ..
  | cons script rest ih =>
    rw [firingsUntil, fireUntil]
    rcases clockAtNext? limit clock a with _ | clock'
    · rfl
    · show entries (firing _ script a ++ _) = _
      rw [entries_append, entries_firing, ih (fired + 1)]
      rfl

section Session

variable {s : Session}

theorem entries_momentsUntil (s : Session) (limit : Instant) :
    entries (s.momentsUntil limit) = (s.runUntil limit).1.map (·.instant) := by
  rw [Session.momentsUntil, Session.runUntil]
  rcases s.alarm with _ | a
  · rfl
  · exact entries_firingsUntil limit s.scripts s.fired s.clock a

theorem entries_momentsOfStart {a : Alarm} (halarm : s.alarm = some a) (interval : Span) :
    entries (s.momentsOfStart a interval) = (s.start a interval).2.1.map (·.instant) := by
  rw [start_eq_settle halarm]
  exact entries_momentsUntil ..

theorem entries_momentsOf (s : Session) (request : Request) :
    entries (s.momentsOf request) = (s.serve request).2.1.map (·.instant) := by
  rw [Session.momentsOf.eq_def, Session.serve.eq_def]
  rcases halarm : s.alarm with _ | a
  · cases request with
    | pass nanos => exact entries_momentsUntil ..
    | start | dispose | disposeDuringCallback | name | askThread | drop => rfl
  · cases request with
    | pass nanos => exact entries_momentsUntil ..
    | start interval => exact entries_momentsOfStart halarm interval
    | dispose => exact entries_momentsUntil ..
    | disposeDuringCallback =>
      dsimp only
      rw [entries_append, entries_momentsOfStart halarm]
      rcases (s.start a .zero).2.2.alarm with _ | b
      · exact List.append_nil _
      · exact List.append_nil _
    | name | askThread | drop => rfl

/-- So do the firings of a run. -/
theorem entries_moments (s : Session) (requests : List Request) :
    entries (s.moments requests) = (s.firings requests).map (·.instant) := by
  induction requests generalizing s with
  | nil => rfl
  | cons request rest ih =>
    show entries (s.momentsOf request ++ _) = (_ ++ _ : List Firing).map (·.instant)
    rw [entries_append, entries_momentsOf, ih, List.map_append]
    rfl

end Session

/-! ## Whole runs -/

/-- The firings of a run match its starts. -/
structure Matched (s : Session) (requests : List Request) : Prop where
  reference : s.firings requests =
    Reference.firings (Session.ending s.clock.monotonic requests)
      (Session.agenda s.clock.monotonic requests) s.scripts 0 (.live none)
  /-- It does not matter in how many steps time passes. -/
  split : ∀ (earlier : List Request) (parts : List Nat) (later : List Request),
    requests = earlier ++ .pass parts.sum :: later →
    s.firings (earlier ++ (parts.map .pass ++ later)) = s.firings requests
  /-- The firings are the moments at which the callback begins to run. -/
  entries : entries (s.moments requests) = (s.firings requests).map (·.instant)
  /-- A firing comes at the deadline of a start, if nothing has been decided since. -/
  cause : ∀ before m after, s.moments requests = before ++ m :: after → m.deed = .enter →
    ∃ earlier start quiet, before = earlier ++ start :: quiet ∧ start.sets? = some m.instant ∧
      ∀ n ∈ quiet, ¬ n.decides
  /-- Between two firings there is the start of the second one. -/
  once : ∀ before first between second after,
    s.moments requests = before ++ first :: (between ++ second :: after) → first.deed = .enter →
    second.deed = .enter → ∃ start ∈ between, start.sets? = some second.instant
  /-- After a start, the firing at its deadline comes next, or another start or a disposal before
  it; or the deadline is still to come at the end. -/
  fate : ∀ before start after d, s.moments requests = before ++ start :: after →
    start.sets? = some d →
    (∃ quiet m later, after = quiet ++ m :: later ∧ (∀ n ∈ quiet, ¬ n.decides) ∧ InTime d m) ∨
      (∀ n ∈ after, ¬ n.decides) ∧ (s.run requests).2.clock.monotonic < d
  /-- Nothing happens between the beginning and the end of a firing but its callback. -/
  apart : ∀ before m after, s.moments requests = before ++ m :: after → m.deed = .enter →
    ∃ inside leave later, after = inside ++ leave :: later ∧
      (∀ n ∈ inside, n.instant = m.instant ∧ ∃ action, n.deed = .act action) ∧
      leave.instant = m.instant ∧ leave.deed = .leave
  /-- If a deadline is reached when a callback ends, the next firing comes directly after it. -/
  directly : ∀ before leave after d, s.moments requests = before ++ leave :: after →
    leave.deed = .leave → leave.after.deadline? = some d → d ≤ leave.instant →
    ∃ m later, after = m :: later ∧ m.deed = .enter ∧ m.instant = d

section Drives

variable {s : Session} {a : Alarm} {requests : List Request} {before after : List Moment}
  {m : Moment}

/-- The course up to a moment of the log, and from there on. -/
theorem course_around (h : s.Drives a) (hlog : s.moments requests = before ++ m :: after) :
    ∃ t b c, Course s.clock.monotonic a before t b ∧ m.Next t b ∧
      Course m.instant m.after after (s.run requests).2.clock.monotonic c ∧
      c.AtRest (s.run requests).2.clock.monotonic := by
  obtain ⟨c, hcourse, hdrives⟩ := course_run h requests
  rw [hlog] at hcourse
  obtain ⟨t, b, hbefore, hrest⟩ := hcourse.split
  cases hrest with
  | next next hafter => exact ⟨t, b, c, hbefore, next, hafter, hdrives.rest⟩

/-- A deadline that a moment leaves is decided about in time, or at the end it is still to come. -/
theorem fate_of_moment (h : s.Drives a) (hlog : s.moments requests = before ++ m :: after)
    {d : Instant} (hdue : m.after.deadline? = some d) :
    (∃ quiet n later, after = quiet ++ n :: later ∧ (∀ n ∈ quiet, ¬ n.decides) ∧ InTime d n) ∨
      (∀ n ∈ after, ¬ n.decides) ∧ (s.run requests).2.clock.monotonic < d := by
  obtain ⟨t, b, c, -, -, hafter, hend⟩ := course_around h hlog
  rcases hafter.fate hdue with hdecided | ⟨hquiet, hpending⟩
  · exact .inl hdecided
  · exact .inr ⟨hquiet, hend.2 d hpending⟩

/-- A start that sets a deadline leaves it. -/
theorem Moment.deadline?_of_sets? {d : Instant} (h : m.sets? = some d) :
    m.after.deadline? = some d := by
  rw [m.deadline?_after, h]
  rfl

end Drives

/-- The firings of every run match its starts. -/
theorem matched_run (name : String) (clock : Clock) (scripts : List (List Action))
    (requests : List Request) :
    Matched (Session.initial name clock scripts) requests where
  reference := firings_initial name clock scripts requests
  split := by
    rintro earlier parts later rfl
    exact firings_split name clock scripts earlier later parts
  entries := entries_moments _ requests
  cause before m after hlog henter := by
    obtain ⟨t, b, c, hbefore, next, -, -⟩ := course_around (drives_initial name clock scripts) hlog
    have htimely := next.timely
    rw [Moment.Timely, henter, next.before] at htimely
    exact hbefore.cause rfl htimely.2
  once before first between second after hlog hfirst hsecond := by
    obtain ⟨t, b, c, -, -, hafter, -⟩ := course_around (drives_initial name clock scripts) hlog
    -- The first firing has taken its deadline away, so the second one has another.
    have hcleared : first.after.deadline? = none := by
      rw [Moment.after, hfirst]
      exact first.before.deadline?_enter
    obtain ⟨u, b', hbetween, hrest⟩ := hafter.split
    cases hrest with
    | next next _ =>
    have htimely := next.timely
    rw [Moment.Timely, hsecond, next.before] at htimely
    obtain ⟨earlier, start, quiet, rfl, hsets, -⟩ := hbetween.cause hcleared htimely.2
    exact ⟨start, List.mem_append_right _ List.mem_cons_self, hsets⟩
  fate before start after d hlog hsets := by
    obtain ⟨t, b, c, -, -, hafter, hend⟩ := course_around (drives_initial name clock scripts) hlog
    rcases hafter.fate (Moment.deadline?_of_sets? hsets) with hdecided | ⟨hquiet, hpending⟩
    · exact .inl hdecided
    · exact .inr ⟨hquiet, hend.2 d hpending⟩
  apart before m after hlog henter := by
    obtain ⟨t, b, c, -, -, hafter, hend⟩ := course_around (drives_initial name clock scripts) hlog
    have hphase : m.after.phase = .running := by
      rw [Moment.after, henter]
      rfl
    exact hafter.returns hphase hend.1
  directly before leave after d hlog hleave hdue hreached := by
    obtain ⟨t, b, c, -, next, hafter, hend⟩ :=
      course_around (drives_initial name clock scripts) hlog
    have hphase : leave.after.phase ≠ .running := by
      rw [Moment.after, hleave]
      exact phase_leave leave.before
    have hunpassed : leave.instant ≤ d := by
      have hbefore : leave.before.Unpassed leave.instant := next.before ▸ next.unpassed
      exact leave.unpassed_after hbefore d hdue
    -- The callback returns at the instant of the deadline, neither before nor after it.
    have hinstant : leave.instant = d := congrArg Instant.mk (Nat.le_antisymm hunpassed hreached)
    rw [hinstant] at hafter
    exact hafter.directly hphase hdue hend

/-- A callback that starts the alarm with a zero interval is followed by the next one at once, and
a start before a panic counts. -/
example :
    let nanos (n : Fin 1000) : Span :=
      ⟨0, n, by decide, Nat.lt_trans n.isLt (by decide)⟩
    let scripts := [[.start (nanos 0)], [.start (nanos 5), .panic, .dispose]]
    let s := Session.initial "t" ⟨⟨100⟩, 0⟩ scripts
    (s.firings [.start (nanos 30), .start (nanos 10), .pass 20]).map (·.instant.nanos) =
      [110, 110, 115] := by
  decide

end Courier.Alarm
