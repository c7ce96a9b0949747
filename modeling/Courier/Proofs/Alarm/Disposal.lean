import Courier.Proofs.Alarm.Firings

/-!
# The end of an alarm

After a disposal there is no deadline, and every start is refused. Only a callback that runs at that
moment goes on, with the alarm as the disposal has left it; when it has ended, the alarm is
disposed, and so it stays.

> `Course.shut`, `Course.finish`: what can still happen to a disposed alarm, at rest and while its
> callback runs.

> `final_run`: what every disposal in a run means for the rest of it, and for every request after
> it.
-/

namespace Courier.Alarm

open Session (Request)

/-! ## Disposed alarms -/

/-- A disposed alarm has no deadline, and its phase is the final one unless the callback runs.
A caller waits only for a callback that runs, and has disposed the alarm. -/
structure Sound (a : Alarm) : Prop where
  due : a.disposing = true → a.due = none
  phase : a.disposing = true → a.phase = .running ∨ a.phase = .disposed
  awaited : a.awaited = true → a.disposing = true ∧ a.phase = .running

section Alarm

variable {a : Alarm}

/-- A disposed alarm has no deadline. -/
theorem deadline?_of_disposing (h : a.disposing = true) : a.deadline? = none := if_pos h

/-- An alarm that is not disposed is sound if nobody waits for its callback. -/
theorem Sound.of_live (hlive : a.disposing = false) (hawaited : a.awaited = false) : a.Sound := by
  refine ⟨fun h => ?_, fun h => ?_, fun h => ?_⟩
  · rw [hlive] at h; cases h
  · rw [hlive] at h; cases h
  · rw [hawaited] at h; cases h

/-- Nobody waits for the callback of an alarm that is not disposed. -/
theorem Sound.awaited_of_live (h : a.Sound) (hlive : a.disposing = false) : a.awaited = false := by
  rcases hawaited : a.awaited with _ | _
  · rfl
  · rw [(h.awaited hawaited).1] at hlive
    cases hlive

/-- A disposal keeps an alarm sound. -/
theorem Sound.dispose (h : a.Sound) : a.dispose.Sound := by
  rcases hlive : a.disposing with _ | _
  · rw [dispose_of_live hlive]
    refine ⟨fun _ => rfl, fun _ => ?_, fun hawaited => ?_⟩
    · dsimp only
      split
      next => exact .inl rfl
      next => exact .inr rfl
    · rw [h.awaited_of_live hlive] at hawaited
      cases hawaited
  · rw [dispose_of_disposing hlive]
    exact h

theorem Sound.disposeAndWait (h : a.Sound) : a.disposeAndWait.Sound := by
  rcases hlive : a.disposing with _ | _
  · rw [disposeAndWait_of_live hlive]
    refine ⟨h.dispose.due, h.dispose.phase, fun hawaited => ⟨a.disposing_dispose, ?_⟩⟩
    exact a.phase_dispose_iff.2 (of_decide_eq_true hawaited)
  · rw [disposeAndWait_of_disposing hlive]
    exact h

/-- Only the end of the callback changes a disposed alarm. -/
theorem Moment.after_of_disposing {m : Moment} (h : m.before.disposing = true)
    (henter : m.deed ≠ .enter) (hleave : m.deed ≠ .leave) : m.after = m.before := by
  obtain ⟨now, deed, a⟩ := m
  have hstart (interval : Span) : (a.start now interval).toOption.getD a = a := by
    rw [start_of_disposing h]
    rfl
  cases deed with
  | start interval => exact hstart interval
  | dispose => exact disposeAndWait_of_disposing h
  | enter => exact absurd rfl henter
  | leave => exact absurd rfl hleave
  | act action =>
    cases action with
    | start interval => exact (act_start now a interval).trans (hstart interval)
    | dispose => exact dispose_of_disposing h
    | awaitDisposal => exact disposeAndWait_of_disposing h
    | lookAtPhase | askThread | panic => rfl

theorem Sound.start (h : a.Sound) (now : Instant) (interval : Span) :
    ((a.start now interval).toOption.getD a).Sound := by
  rcases started_cases a now interval with hsame | ⟨hlive, hset⟩
  · rw [hsame]
    exact h
  · rw [hset]
    exact .of_live hlive (h.awaited_of_live hlive)

/-- So does every moment that may come. -/
theorem Sound.after {m : Moment} (h : m.before.Sound) (htimely : m.Timely) : m.after.Sound := by
  obtain ⟨now, deed, a⟩ := m
  cases deed with
  | start interval => exact h.start now interval
  | dispose => exact h.disposeAndWait
  | enter =>
    have hlive : a.disposing = false := disposing_of_due htimely.2
    exact .of_live hlive (h.awaited_of_live hlive)
  | leave =>
    exact ⟨h.due, fun hdisposing => .inr (if_pos hdisposing), Bool.noConfusion⟩
  | act action =>
    cases action with
    | start interval =>
      show (act now a (.start interval)).2.Sound
      rw [act_start]
      exact h.start now interval
    | dispose => exact h.dispose
    | awaitDisposal => exact h.disposeAndWait
    | lookAtPhase | askThread | panic => exact h

/-- No moment undoes a disposal. -/
theorem Moment.disposing_after {m : Moment} (h : m.before.disposing = true) :
    m.after.disposing = true := by
  by_cases henter : m.deed = .enter
  · rw [Moment.after, henter]
    exact h
  · by_cases hleave : m.deed = .leave
    · rw [Moment.after, hleave]
      exact h
    · rw [m.after_of_disposing h henter hleave]
      exact h

/-- A disposal comes from outside, or is one of the two steps of a callback. -/
theorem Moment.disposes_cases {m : Moment} (h : m.disposes) :
    m.deed = .dispose ∨ m.deed = .act .dispose ∨ m.deed = .act .awaitDisposal := by
  unfold disposes at h
  split at h
  next hdeed => exact .inl hdeed
  next hdeed => exact .inr (.inl hdeed)
  next hdeed => exact .inr (.inr hdeed)
  next => cases h

/-- After a disposal the alarm is disposed. -/
theorem Moment.disposing_of_disposes {m : Moment} (h : m.disposes) : m.after.disposing = true := by
  unfold after
  rcases m.disposes_cases h with hdeed | hdeed | hdeed
  · rw [hdeed]
    exact m.before.disposing_disposeAndWait
  · rw [hdeed]
    exact m.before.disposing_dispose
  · rw [hdeed]
    exact m.before.disposing_disposeAndWait

/-- Who disposes an alarm from outside its callback waits for the callback; the callback cannot wait
for itself. -/
theorem Moment.awaited_of_disposes {m : Moment} (h : m.disposes) (hsound : m.before.Sound)
    (htimely : m.Timely) (hlive : m.before.disposing = false) :
    m.after.awaited = true ↔ m.deed = .act .awaitDisposal := by
  unfold Timely at htimely
  unfold after
  rcases m.disposes_cases h with hdeed | hdeed | hdeed
  · rw [hdeed] at htimely ⊢
    dsimp only
    rw [disposeAndWait_of_live hlive]
    exact ⟨fun hawaited => absurd (of_decide_eq_true hawaited) htimely.1, Deed.noConfusion⟩
  · rw [hdeed]
    have hawaited : m.before.dispose.awaited = false := by
      rw [dispose_of_live hlive]
      exact hsound.awaited_of_live hlive
    exact ⟨fun h => Bool.noConfusion (hawaited.symm.trans h),
      fun h => Action.noConfusion (Deed.act.inj h)⟩
  · rw [hdeed] at htimely ⊢
    refine ⟨fun _ => rfl, fun _ => ?_⟩
    show m.before.disposeAndWait.awaited = true
    rw [disposeAndWait_of_live hlive]
    exact decide_eq_true htimely

end Alarm

/-! ## The course after a disposal -/

section Course

variable {t u : Instant} {a b : Alarm} {log : List Moment}

/-- A course leads from a sound alarm to a sound one. -/
theorem Course.sound (h : Course t a log u b) (ha : a.Sound) : b.Sound := by
  induction h with
  | rest => exact ha
  | @next t u a b m log next _ ih =>
    have hbefore : m.before.Sound := next.before ▸ ha
    exact ih (hbefore.after next.timely)

/-- It leads from a disposed alarm to a disposed one. -/
theorem Course.disposing (h : Course t a log u b) (ha : a.disposing = true) :
    b.disposing = true := by
  induction h with
  | rest => exact ha
  | @next t u a b m log next _ ih =>
    have hbefore : m.before.disposing = true := next.before ▸ ha
    exact ih (m.disposing_after hbefore)

/-- What comes from outside finds the alarm as it is, and leaves it so. -/
structure Unheeded (a : Alarm) (m : Moment) : Prop where
  before : m.before = a
  after : m.after = a
  outside : m.isOutside

/-- The callback takes a step which leaves the alarm as it is. -/
structure Idle (a : Alarm) (now : Instant) (m : Moment) : Prop where
  before : m.before = a
  after : m.after = a
  instant : m.instant = now
  inside : ∃ action, m.deed = .act action

/-- A disposed alarm at rest stays as it is. -/
theorem Course.shut (h : Course t a log u b) (hdisposing : a.disposing = true)
    (hphase : a.phase ≠ .running) : (∀ n ∈ log, Unheeded a n) ∧ b = a := by
  induction h with
  | rest => exact ⟨List.forall_mem_nil _, rfl⟩
  | @next t u a b m log next _ ih =>
    obtain ⟨now, deed, before⟩ := m
    have hbefore : before = a := next.before
    subst hbefore
    cases deed with
    | start interval =>
      have hafter : (⟨now, .start interval, before⟩ : Moment).after = before :=
        Moment.after_of_disposing hdisposing Deed.noConfusion Deed.noConfusion
      rw [hafter] at ih
      obtain ⟨hlog, hb⟩ := ih hdisposing hphase
      exact ⟨List.forall_mem_cons.2 ⟨⟨rfl, hafter, rfl⟩, hlog⟩, hb⟩
    | dispose =>
      have hafter : (⟨now, .dispose, before⟩ : Moment).after = before :=
        Moment.after_of_disposing hdisposing Deed.noConfusion Deed.noConfusion
      rw [hafter] at ih
      obtain ⟨hlog, hb⟩ := ih hdisposing hphase
      exact ⟨List.forall_mem_cons.2 ⟨⟨rfl, hafter, rfl⟩, hlog⟩, hb⟩
    | enter =>
      have hdue : before.deadline? = some now := next.timely.2
      rw [deadline?_of_disposing hdisposing] at hdue
      cases hdue
    | act | leave => exact absurd next.timely hphase

/-- A callback that runs after the disposal comes to its end without any effect, and then the
alarm stays as it is. -/
theorem Course.finish (h : Course t a log u b) (hdisposing : a.disposing = true)
    (hphase : a.phase = .running) (hb : b.phase ≠ .running) :
    ∃ inside later, log = inside ++ ⟨t, .leave, a⟩ :: later ∧ (∀ n ∈ inside, Idle a t n) ∧
      (∀ n ∈ later, Unheeded a.leave n) ∧ b = a.leave := by
  induction h with
  | rest => exact absurd hphase hb
  | @next t u a b m log next hcourse ih =>
    obtain ⟨now, deed, before⟩ := m
    have hbefore : before = a := next.before
    have hinstant : now = t := next.still hphase
    subst hbefore hinstant
    -- While the callback runs, nothing can come but its steps and its end.
    cases deed with
    | start | dispose => exact absurd hphase next.timely.1
    | enter => exact absurd hphase next.timely.1
    | leave =>
      have hrest := hcourse.shut (a := before.leave) hdisposing (phase_leave before)
      exact ⟨[], log, rfl, List.forall_mem_nil _, hrest.1, hrest.2⟩
    | act action =>
      have hafter : (⟨now, .act action, before⟩ : Moment).after = before :=
        Moment.after_of_disposing hdisposing Deed.noConfusion Deed.noConfusion
      rw [hafter] at ih
      obtain ⟨inside, later, rfl, hinside, hlater⟩ := ih hdisposing hphase hb
      exact ⟨_ :: inside, later, rfl,
        List.forall_mem_cons.2 ⟨⟨rfl, hafter, rfl, action, rfl⟩, hinside⟩, hlater⟩

/-- After the disposal no firing begins, and there is no deadline. -/
theorem Course.silent (h : Course t a log u b) (hsound : a.Sound)
    (hdisposing : a.disposing = true) :
    ∀ n ∈ log, n.before.disposing = true ∧ n.deed ≠ .enter ∧ n.before.due = none ∧
      n.after.due = none := by
  induction h with
  | rest => exact List.forall_mem_nil _
  | @next t u a b m log next _ ih =>
    have htimely := next.timely
    have hbefore : m.before.Sound := next.before ▸ hsound
    have hafter := hbefore.after htimely
    have hoff : m.before.disposing = true := next.before ▸ hdisposing
    have hoff' := m.disposing_after hoff
    refine List.forall_mem_cons.2 ⟨⟨hoff, fun henter => ?_, hbefore.due hoff, hafter.due hoff'⟩,
      ih hafter hoff'⟩
    rw [Moment.Timely, henter, deadline?_of_disposing hoff] at htimely
    cases htimely.2

end Course

/-! ## Disposed sessions -/

section Session

variable {s : Session} {a : Alarm}

/-- A start from outside does nothing to a session with a disposed alarm. -/
theorem start_of_disposed (halarm : s.alarm = some a) (h : a.disposing = true) (interval : Span) :
    s.start a interval = (.error (refusal s.clock.monotonic interval), [], s) := by
  rw [Session.start, start_of_disposing h, Session.settle, runUntil_of_disposing halarm h]

/-- A disposed alarm does not fire any more, and only dropping it changes anything. -/
theorem serve_of_disposed (halarm : s.alarm = some a) (h : a.disposing = true)
    (request : Request) :
    (s.serve request).2.1 = [] ∧ (request ≠ .drop → (s.serve request).2.2.alarm = some a) := by
  have hsame : { s with alarm := some a } = s := by rw [← halarm]
  rw [Session.serve.eq_def, halarm]
  cases request with
  | pass nanos =>
    dsimp only
    rw [Session.pass, runUntil_of_disposing halarm h]
    exact ⟨rfl, fun _ => halarm⟩
  | start interval =>
    dsimp only
    rw [start_of_disposed halarm h]
    exact ⟨rfl, fun _ => halarm⟩
  | dispose =>
    dsimp only
    rw [disposeAndWait_of_disposing h, hsame, Session.settle, runUntil_of_disposing halarm h]
    exact ⟨rfl, fun _ => halarm⟩
  | disposeDuringCallback =>
    dsimp only
    rw [start_of_disposed halarm h]
    dsimp only
    rw [halarm, Option.map_some, disposeAndWait_of_disposing h]
    exact ⟨rfl, fun _ => rfl⟩
  | name | askThread => exact ⟨rfl, fun _ => halarm⟩
  | drop => exact ⟨rfl, fun hdrop => absurd rfl hdrop⟩

end Session

/-! ## Whole runs -/

/-- What the disposal `m` means for the moments after it, and for the session at the end. -/
structure Retired (m : Moment) (after : List Moment) (s : Session) : Prop where
  /-- The deadline is discarded. -/
  cleared : m.after.disposing = true ∧ m.after.due = none
  /-- No callback begins, and no deadline is set. -/
  silent : ∀ n ∈ after, n.deed ≠ .enter ∧ n.before.due = none ∧ n.after.due = none
  /-- Every start fails and changes nothing, from outside as from the callback. -/
  refused : ∀ n ∈ after, ∀ interval, n.interval? = some interval →
    n.before.start n.instant interval = .error (refusal n.instant interval) ∧ n.after = n.before
  /-- Another disposal changes nothing. -/
  again : ∀ n ∈ after, n.disposes → n.after = n.before
  /-- At rest, the alarm is disposed from now on. -/
  resting : m.before.phase ≠ .running → m.after.phase = .disposed ∧
    (∀ n ∈ after, Unheeded m.after n) ∧ ∀ a, s.alarm = some a → a = m.after
  /-- A callback that runs comes to its end, in which the phase stays as it is; from then on the
  alarm is disposed. -/
  running : m.before.phase = .running → m.after.phase = .running ∧
    m.after.leave.phase = .disposed ∧ m.after.leave.awaited = false ∧
    ∃ inside later, after = inside ++ ⟨m.instant, .leave, m.after⟩ :: later ∧
      (∀ n ∈ inside, Idle m.after m.instant n) ∧ (∀ n ∈ later, Unheeded m.after.leave n) ∧
      ∀ a, s.alarm = some a → a = m.after.leave
  /-- A caller outside the callback who has begun the disposal waits, and so until the callback has
  ended; the callback itself does not. -/
  waiting : m.before.disposing = false → (m.after.awaited = true ↔ m.deed = .act .awaitDisposal)

/-- No request can change the alarm any more, but it can be dropped. -/
structure Closed (s : Session) : Prop where
  phase : ∀ a, s.alarm = some a → a.phase = .disposed
  firings : ∀ request, (s.serve request).2.1 = []
  alarm : ∀ request, request ≠ .drop → (s.serve request).2.2.alarm = s.alarm
  refused : ∀ interval, s.alarm ≠ none →
    (s.serve (.start interval)).1 = .started (.error (refusal s.clock.monotonic interval))

/-- A disposal is final. -/
structure Final (s : Session) (requests : List Request) : Prop where
  retired : ∀ before m after, s.moments requests = before ++ m :: after → m.disposes →
    Retired m after (s.run requests).2
  closed : (∃ m ∈ s.moments requests, m.disposes) → Closed (s.run requests).2
  /-- When a disposal has returned to its caller, nobody waits for the callback any more. -/
  returned : ∀ request, request = .dispose ∨ request = .disposeDuringCallback →
    Closed ((s.run requests).2.serve request).2.2 ∧
      ∀ a, ((s.run requests).2.serve request).2.2.alarm = some a → a.awaited = false

section Final

variable {s : Session} {a : Alarm}

/-- What has an interval is a start, from outside or from the callback. -/
theorem Moment.isStart_of_interval? {m : Moment} {interval : Span}
    (h : m.interval? = some interval) :
    m.deed = .start interval ∨ m.deed = .act (.start interval) := by
  unfold interval? at h
  split at h
  next hdeed => cases h; exact .inl hdeed
  next hdeed => cases h; exact .inr hdeed
  next => cases h

/-- A disposal does not tell a callback that it has ended. -/
theorem Moment.phase_of_disposes {m : Moment} (h : m.disposes) :
    m.after.phase = .running ↔ m.before.phase = .running := by
  unfold after
  rcases m.disposes_cases h with hdeed | hdeed | hdeed
  · rw [hdeed]
    exact m.before.phase_disposeAndWait_iff
  · rw [hdeed]
    exact m.before.phase_dispose_iff
  · rw [hdeed]
    exact m.before.phase_disposeAndWait_iff

/-- A disposal and the course after it. -/
theorem retired_of_course {m : Moment} {after : List Moment} {u : Instant} {b : Alarm}
    (hsound : m.before.Sound) (htimely : m.Timely) (hdisposes : m.disposes)
    (hcourse : Course m.instant m.after after u b) (hrest : b.phase ≠ .running)
    (hend : ∀ a, s.alarm = some a → a = b) : Retired m after s := by
  have hdisposing := m.disposing_of_disposes hdisposes
  have hafter := hsound.after htimely
  have hphase := m.phase_of_disposes hdisposes
  have hsilent := hcourse.silent hafter hdisposing
  refine ⟨⟨hdisposing, hafter.due hdisposing⟩, fun n hn => (hsilent n hn).2, ?_, ?_, ?_, ?_,
    m.awaited_of_disposes hdisposes hsound htimely⟩
  · intro n hn interval hinterval
    have hoff := (hsilent n hn).1
    refine ⟨start_of_disposing hoff n.instant interval, ?_⟩
    rcases n.isStart_of_interval? hinterval with hdeed | hdeed
    · exact n.after_of_disposing hoff (by rw [hdeed]; exact Deed.noConfusion)
        (by rw [hdeed]; exact Deed.noConfusion)
    · exact n.after_of_disposing hoff (by rw [hdeed]; exact Deed.noConfusion)
        (by rw [hdeed]; exact Deed.noConfusion)
  · intro n hn hdisposes'
    have hoff := (hsilent n hn).1
    refine n.after_of_disposing hoff (hsilent n hn).2.1 fun hleave => ?_
    rw [Moment.disposes, hleave] at hdisposes'
    cases hdisposes'
  · intro hresting
    have hresting' := mt hphase.1 hresting
    obtain ⟨hunheeded, hb⟩ := hcourse.shut hdisposing hresting'
    exact ⟨(hafter.phase hdisposing).resolve_left hresting', hunheeded,
      fun a ha => (hend a ha).trans hb⟩
  · intro hrunning
    have hrunning' := hphase.2 hrunning
    obtain ⟨inside, later, hlog, hinside, hlater, hb⟩ :=
      hcourse.finish hdisposing hrunning' hrest
    exact ⟨hrunning', if_pos hdisposing, rfl, inside, later, hlog, hinside, hlater,
      fun a ha => (hend a ha).trans hb⟩

/-- Once the log holds a disposal, the alarm is disposed at the end of it. -/
theorem Course.disposing_of_mem {t u : Instant} {b : Alarm} {log : List Moment} {m : Moment}
    (h : Course t a log u b) (hm : m ∈ log) (hdisposes : m.disposes) : b.disposing = true := by
  obtain ⟨before, after, rfl⟩ := List.append_of_mem hm
  obtain ⟨v, c, -, hrest⟩ := h.split
  cases hrest with
  | next _ hcourse => exact hcourse.disposing (m.disposing_of_disposes hdisposes)

/-- A session that drives a disposed alarm is closed. -/
theorem closed_of_drives (h : s.Drives a) (hsound : a.Sound) (hdisposing : a.disposing = true) :
    Closed s := by
  rcases halarm : s.alarm with _ | b
  · have hserve (request : Request) : (s.serve request).2.1 = [] ∧
        (s.serve request).2.2.alarm = none := by
      by_cases hpass : ∃ nanos, request = .pass nanos
      · obtain ⟨nanos, rfl⟩ := hpass
        rw [Session.serve, Session.pass, runUntil_of_none halarm]
        exact ⟨rfl, halarm⟩
      · rw [serve_of_none halarm fun nanos heq => hpass ⟨nanos, heq⟩]
        exact ⟨rfl, halarm⟩
    refine ⟨fun b hb => ?_, fun request => (hserve request).1, fun request _ => ?_, ?_⟩
    · rw [halarm] at hb
      cases hb
    · rw [halarm]
      exact (hserve request).2
    · exact fun interval hsome => absurd halarm hsome
  · have hsame := h.eq halarm
    subst hsame
    have hserve := serve_of_disposed halarm hdisposing
    refine ⟨fun c hc => ?_, fun request => (hserve request).1, fun request hdrop => ?_, ?_⟩
    · rw [halarm] at hc
      cases hc
      exact (hsound.phase hdisposing).resolve_left h.rest.1
    · rw [halarm]
      exact (hserve request).2 hdrop
    · intro interval _
      rw [Session.serve.eq_def, halarm]
      dsimp only
      rw [start_of_disposed halarm hdisposing]

/-- A request for a disposal brings one, if there is an alarm. -/
theorem disposes_of_request (h : s.Drives a) {request : Request}
    (hrequest : request = .dispose ∨ request = .disposeDuringCallback) :
    s.alarm = none ∨ ∃ m ∈ s.momentsOf request, m.disposes := by
  rcases h.alarm with halarm | ⟨hnone, -⟩
  · right
    rw [Session.momentsOf.eq_def, halarm]
    rcases hrequest with rfl | rfl
    · exact ⟨_, List.mem_cons_self, rfl⟩
    · obtain ⟨b, halarm', -⟩ := course_start halarm h.rest .zero
      dsimp only
      rw [halarm']
      exact ⟨_, List.mem_append_right _ List.mem_cons_self, rfl⟩
  · exact .inl hnone

/-- After a disposal from outside the session is closed, and nobody waits any more. -/
theorem closed_of_request (h : s.Drives a) (hsound : a.Sound) {request : Request}
    (hrequest : request = .dispose ∨ request = .disposeDuringCallback) :
    Closed (s.serve request).2.2 ∧
      ∀ b, (s.serve request).2.2.alarm = some b → b.awaited = false := by
  obtain ⟨c, hcourse, hdrives⟩ := course_serve h request
  have hc := hcourse.sound hsound
  have hdisposing : c.disposing = true := by
    rcases disposes_of_request h hrequest with hnone | ⟨m, hm, hdisposes⟩
    · have hpass : ∀ nanos, request ≠ .pass nanos := by
        rcases hrequest with rfl | rfl
        · exact fun _ => Request.noConfusion
        · exact fun _ => Request.noConfusion
      rw [serve_of_none hnone hpass] at hdrives
      rcases hdrives.alarm with hsome | ⟨-, hdisposing⟩
      · rw [hnone] at hsome
        cases hsome
      · exact hdisposing
    · exact hcourse.disposing_of_mem hm hdisposes
  refine ⟨closed_of_drives hdrives hc hdisposing, fun b hb => ?_⟩
  have hsame := hdrives.eq hb
  subst hsame
  rcases hawaited : b.awaited with _ | _
  · rfl
  · exact absurd (hc.awaited hawaited).2 hdrives.rest.1

end Final

/-- In every run, a disposal is final. -/
theorem final_run (name : String) (clock : Clock) (scripts : List (List Action))
    (requests : List Request) : Final (Session.initial name clock scripts) requests := by
  have hstart := drives_initial name clock scripts
  have hsound : Sound { name } := .of_live rfl rfl
  obtain ⟨b, hcourse, hdrives⟩ := course_run hstart requests
  refine ⟨fun before m after hlog hdisposes => ?_, ?_, ?_⟩
  · rw [hlog] at hcourse
    obtain ⟨t, c, hbefore, hrest⟩ := hcourse.split
    cases hrest with
    | next next hafter =>
    have hsound' : m.before.Sound := next.before ▸ hbefore.sound hsound
    exact retired_of_course hsound' next.timely hdisposes hafter hdrives.rest.1
      fun _ ha => hdrives.eq ha
  · rintro ⟨m, hm, hdisposes⟩
    exact closed_of_drives hdrives (hcourse.sound hsound) (hcourse.disposing_of_mem hm hdisposes)
  · intro request hrequest
    exact closed_of_request hdrives (hcourse.sound hsound) hrequest

/-- The callback starts the alarm again before it is disposed from outside, and tries to once
more afterwards; it is the only one. -/
example :
    let s := Session.initial "t" ⟨⟨100⟩, 0⟩ [[.start .zero, .awaitDisposal, .start .zero]]
    let requests := [.disposeDuringCallback, .start .zero, .pass 10]
    (s.firings requests).map (·.instant.nanos) = [100] ∧
      (s.run requests).2.alarm.map (·.phase) = some .disposed := by
  decide

end Courier.Alarm
