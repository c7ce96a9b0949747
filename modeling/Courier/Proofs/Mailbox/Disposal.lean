import Courier.Proofs.Mailbox.Conservation
import Courier.Proofs.Mailbox.Kinds
import Courier.Proofs.Mailbox.Posting
import Courier.Proofs.Mailbox.Streaming

/-!
# What disposal leaves to a mailbox

A mailbox that is disposed refuses posts, and its loop does no more passes. That is all. So a run
with a disposal is compared with the run without it in which nothing is posted any more, of a
mailbox whose loop has stopped: step by step they give the same answers and leave the same events,
deadlines and counters.

> `Mailbox.bare`, `bare_serve`: all that the answers depend on, but for posts and passes.

> `Mute.serve`, `Mute.steps`: the two runs stay alike.

> `disposal_run`: what a disposal at any point of a run changes, and what can still be done with the
events that were accepted before it.
-/

namespace Courier

variable {α : Type}

/-- The mailbox but for its loop, and for whether it has been disposed. -/
def Mailbox.bare (m : Mailbox α) : Mailbox α := { m with disposed := false, loop := none }

namespace Mailbox

/-- Whether the request is a post. -/
def Request.isPost : Request α → Bool
  | .post .. => true
  | _ => false

/-- A request, its answer and the session after it. -/
structure Session.Step (α : Type) where
  request : Request α
  reply : Reply α
  after : Session α

namespace Session

/-- The steps of a run. -/
def steps (s : Session α) : List (Request α) → List (Step α)
  | [] => []
  | request :: rest =>
    ⟨request, (s.serve request).1, (s.serve request).2⟩ :: (s.serve request).2.steps rest

/-- The session but for the loop of its mailbox, and for whether the mailbox has been disposed. -/
def bare (s : Session α) : Session α := { s with mailbox := s.mailbox.bare }

/-- The session with a mailbox whose loop has stopped. -/
def halted (s : Session α) : Session α := { s with mailbox := { s.mailbox with loop := none } }

/-- A step with what can be seen of the session after it. -/
def Step.bare (step : Step α) : Step α := { step with after := step.after.bare }

theorem steps_append (s : Session α) (before after : List (Request α)) :
    s.steps (before ++ after) = s.steps before ++ (s.run before).2.steps after := by
  induction before generalizing s with
  | nil => rfl
  | cons request rest ih => exact congrArg (_ :: ·) (ih _)

theorem run_append (s : Session α) (before after : List (Request α)) :
    s.run (before ++ after) =
      ((s.run before).1 ++ ((s.run before).2.run after).1, ((s.run before).2.run after).2) := by
  induction before generalizing s with
  | nil => rfl
  | cons request rest ih =>
    rw [List.cons_append, run_cons, run_cons, ih]
    rfl

end Session

/-! ## One request -/

theorem takeAny_bare (m : Mailbox α) (now : Instant) :
    m.bare.takeAny now = ((m.takeAny now).1, (m.takeAny now).2.bare) := by
  obtain ⟨settings, _ | ⟨e, rest⟩⟩ := m
  · rfl
  · rfl

theorem take_bare (m : Mailbox α) (kind : Event.Kind) (now : Instant) :
    m.bare.take kind now = ((m.take kind now).1, (m.take kind now).2.bare) := by
  unfold take bare
  dsimp only
  cases m.available.find? (·.kind = kind) with
  | none => rfl
  | some e =>
    dsimp only
    cases e.ofKind? kind with
    | none => rfl
    | some typed => rfl

theorem acknowledge_bare (m : Mailbox α) (id : Event.Id) :
    m.bare.acknowledge id = ((m.acknowledge id).1, (m.acknowledge id).2.bare) := by
  unfold acknowledge bare
  dsimp only
  cases m.inFlight.lookup id with
  | none => rfl
  | some f => rfl

theorem bare_dispose (m : Mailbox α) : m.dispose.bare = m.bare := by
  unfold dispose
  split
  next => rfl
  next => rfl

theorem poll_bare (stream : Stream) (m : Mailbox α) (now : Instant) :
    stream.poll m.bare now =
      ((stream.poll m now).1, (stream.poll m now).2.1, (stream.poll m now).2.2.bare) := by
  unfold Stream.poll
  rw [takeAny_bare]
  by_cases hcancelled : stream.cancelled = true
  · rw [if_pos hcancelled, if_pos hcancelled]
  · rw [if_neg hcancelled, if_neg hcancelled]
    by_cases hsleeps : stream.sleeps now = true
    · rw [if_pos hsleeps, if_pos hsleeps]
    · rw [if_neg hsleeps, if_neg hsleeps]
      rcases m.takeAny now with ⟨_ | e, m'⟩
      · rfl
      · rfl

/-- The answer to a request that is no post, and what it does, depend on nothing but the bare
session, as long as there is no pass. -/
theorem bare_serve {s : Session α} (hsilent : s.mailbox.nextPass? = none) {request : Request α}
    (hrequest : request.isPost = false) :
    (s.bare.serve request).1 = (s.serve request).1 ∧
      (s.bare.serve request).2.bare = (s.serve request).2.bare := by
  cases request with
  | post => cases hrequest
  | take kind =>
    simp only [Session.serve, Session.bare, take_bare]
    exact ⟨trivial, rfl⟩
  | takeAny =>
    simp only [Session.serve, Session.bare, takeAny_bare]
    exact ⟨trivial, rfl⟩
  | acknowledge id =>
    simp only [Session.serve, Session.bare, acknowledge_bare]
    exact ⟨trivial, rfl⟩
  | dispose =>
    refine ⟨rfl, ?_⟩
    simp only [Session.serve, Session.bare, bare_dispose]
    rfl
  | pass nanos =>
    have hpass := (pass_of_silent hsilent nanos).2
    have hpass' := (pass_of_silent (s := s.bare) rfl nanos).2
    refine ⟨rfl, ?_⟩
    show { s.bare.pass nanos with mailbox := (s.bare.pass nanos).mailbox.bare } =
      { s.pass nanos with mailbox := (s.pass nanos).mailbox.bare }
    rw [hpass, hpass']
    rfl
  | pollStream =>
    rcases hstream : s.stream with _ | stream
    · rw [poll_of_none hstream, poll_of_none (s := s.bare) hstream]
      exact ⟨rfl, rfl⟩
    · rw [poll_of_some hstream, poll_of_some (s := s.bare) hstream]
      simp only [Session.bare, poll_bare]
      exact ⟨trivial, rfl⟩
  | returnOverdue | deadline | settings | openStream | cancelStream => exact ⟨rfl, rfl⟩

/-- Without a next pass there is none after any request. -/
theorem silent_after {s : Session α} (h : s.mailbox.nextPass? = none) (request : Request α) :
    (s.serve request).2.mailbox.nextPass? = none := by
  rcases loop_cases s request with ⟨-, hsame, -⟩ | ⟨nanos, rfl⟩ | rfl
  · rw [nextPass?_of_sameLoop hsame]
    exact h
  · show (s.pass nanos).mailbox.nextPass? = none
    rw [(pass_of_silent h nanos).2]
    exact h
  · exact (Silenced.dispose fun _ => h).2

/-- A disposed mailbox refuses every post, and is not changed by it. -/
theorem refused_of_disposed {s : Session α} (h : s.mailbox.disposed = true) {request : Request α}
    (hrequest : request.isPost = true) :
    s.serve request = (.posted (.error (.disposed .mailbox)), s) := by
  cases request with
  | post fresh kind data supplied =>
    simp only [Session.serve, post, h, if_true]
  | _ => cases hrequest

/-! ## Two runs in step -/

/-- `d` is disposed and `r` has no passes; otherwise they are alike. -/
structure Mute (d r : Session α) : Prop where
  disposed : d.mailbox.disposed = true
  silent : d.mailbox.nextPass? = none
  silent' : r.mailbox.nextPass? = none
  bare : d.bare = r.bare

section Mute

variable {d r : Session α}

/-- A request that is no post gets the same answer from both, and leaves them alike. -/
theorem Mute.serve (h : Mute d r) {request : Request α} (hrequest : request.isPost = false) :
    (d.serve request).1 = (r.serve request).1 ∧ Mute (d.serve request).2 (r.serve request).2 := by
  obtain ⟨hreply, hbare⟩ := bare_serve h.silent hrequest
  obtain ⟨hreply', hbare'⟩ := bare_serve h.silent' hrequest
  rw [h.bare] at hreply hbare
  refine ⟨hreply.symm.trans hreply', ?_, ?_, ?_, hbare.symm.trans hbare'⟩
  · exact (disposed_serve d request).2 (.inl h.disposed)
  · exact silent_after h.silent request
  · exact silent_after h.silent' request

/-- The requests that are no posts are answered alike, whether the others come in between or not. -/
theorem Mute.steps (h : Mute d r) (requests : List (Request α)) :
    ((d.steps requests).filter (! ·.request.isPost)).map (·.bare) =
      (r.steps (requests.filter (! ·.isPost))).map (·.bare) := by
  induction requests generalizing d r with
  | nil => rfl
  | cons request rest ih =>
    rw [Session.steps]
    by_cases hpost : request.isPost = true
    · -- The disposed mailbox refuses the post, and the other one does not see it.
      rw [List.filter_cons_of_neg (by simpa using hpost),
        List.filter_cons_of_neg (by simpa using hpost), refused_of_disposed h.disposed hpost]
      exact ih h
    · rw [Bool.not_eq_true] at hpost
      obtain ⟨hreply, hmute⟩ := h.serve hpost
      rw [List.filter_cons_of_pos (by simpa using hpost),
        List.filter_cons_of_pos (by simpa using hpost), Session.steps, List.map_cons, List.map_cons,
        ih hmute, Session.Step.bare, Session.Step.bare]
      dsimp only
      rw [hreply, hmute.bare]

theorem Mute.run (h : Mute d r) (requests : List (Request α)) :
    (d.run requests).2.mailbox.disposed = true ∧ (d.run requests).2.mailbox.nextPass? = none := by
  induction requests generalizing d r with
  | nil => exact ⟨h.disposed, h.silent⟩
  | cons request rest ih =>
    rw [Session.run_cons]
    by_cases hpost : request.isPost = true
    · rw [refused_of_disposed h.disposed hpost]
      exact ih h
    · exact ih (h.serve (by simpa using hpost)).2

end Mute

/-! ## What can still be done -/

section Served

variable {s : Session α} {front back : List (Event α)} {e : Event α}

theorem available_takeAny {rest : List (Event α)} (h : s.mailbox.available = e :: rest) :
    (s.serve .takeAny).1 = .taken (some e) ∧
      (s.serve .takeAny).2.mailbox.available = rest := by
  have htake : s.mailbox.takeAny s.clock.monotonic =
      (some e, { s.mailbox with available := rest }.track e s.clock.monotonic) := by
    unfold takeAny
    rw [h]
  rw [Session.serve, htake]
  exact ⟨rfl, rfl⟩

/-- Every available event is handed out, after those in front of it. -/
theorem taken_in_turn (h : s.mailbox.available = front ++ e :: back) :
    ((s.run (List.replicate front.length .takeAny)).2.serve .takeAny).1 = .taken (some e) := by
  induction front generalizing s with
  | nil => exact (available_takeAny h).1
  | cons first rest ih =>
    rw [List.length_cons, List.replicate_succ, Session.run_cons]
    exact ih (available_takeAny h).2

/-- It is also handed out by its kind, after those of its kind in front of it. -/
theorem taken_by_kind (h : s.mailbox.available = front ++ e :: back) :
    ((s.run (List.replicate (front.countP (·.kind = e.kind)) (.take e.kind))).2.serve
      (.take e.kind)).1 = .taken (some e) := by
  have htake {s : Session α} {f b : List (Event α)} {x : Event α} (hx : x.kind = e.kind)
      (hf : ∀ y ∈ f, decide (y.kind = e.kind) = false) (h : s.mailbox.available = f ++ x :: b) :
      (s.serve (.take e.kind)).1 = .taken (some x) ∧
        (s.serve (.take e.kind)).2.mailbox.available = f ++ b := by
    obtain ⟨hfind, herase⟩ := find?_and_eraseP_append hf (decide_eq_true hx) b
    rw [← h] at hfind herase
    rw [Session.serve, take_eq_some hx hfind, herase]
    exact ⟨rfl, rfl⟩
  generalize hn : front.countP (·.kind = e.kind) = n
  induction n generalizing s front with
  | zero =>
    have hnone := List.countP_eq_zero.1 hn
    exact (htake rfl (fun y hy => by simpa using hnone y hy) h).1
  | succ n ih =>
    -- The first event of the kind is taken, and one less stands in front of `e`.
    obtain ⟨x, hx⟩ : ∃ x, front.find? (·.kind = e.kind) = some x := by
      apply Option.isSome_iff_exists.1
      rw [List.find?_isSome]
      exact List.countP_pos_iff.1 (by omega)
    obtain ⟨hkind, f, b, rfl, hf⟩ := List.find?_eq_some_iff_append.1 hx
    rw [List.append_assoc, List.cons_append] at h
    have hnext := (htake (of_decide_eq_true hkind) (by simpa using hf) h).2
    have hcount : (f ++ b).countP (·.kind = e.kind) = n := by
      rw [List.countP_append, List.countP_cons, if_pos hkind] at hn
      rw [List.countP_append]
      omega
    rw [List.replicate_succ, Session.run_cons]
    rw [← List.append_assoc] at hnext
    exact ih hnext hcount

theorem available_poll {rest : List (Event α)} (hstream : s.stream = some {})
    (h : s.mailbox.available = e :: rest) :
    (s.serve .pollStream).1 = .polled (.event e) ∧ (s.serve .pollStream).2.stream = some {} ∧
      (s.serve .pollStream).2.mailbox.available = rest := by
  have hawake : ({} : Stream) = Listener.stream {} := rfl
  have hpoll : (Listener.stream {}).poll s.mailbox s.clock.monotonic =
      (.event e, some (Listener.stream {}), (s.mailbox.takeAny s.clock.monotonic).2) :=
    poll_of_available rfl rfl h
  have htake := (available_takeAny h).2
  rw [hawake] at hstream
  rw [poll_of_some hstream, hpoll]
  exact ⟨rfl, rfl, htake⟩

/-- A new stream brings it, too. -/
theorem streamed_in_turn (h : s.mailbox.available = front ++ e :: back) :
    ((s.run (.openStream :: List.replicate front.length .pollStream)).2.serve .pollStream).1 =
      .polled (.event e) := by
  rw [Session.run_cons]
  have hopen : (s.serve .openStream).2.stream = some {} := rfl
  have havailable : (s.serve .openStream).2.mailbox.available = front ++ e :: back := h
  clear h
  generalize (s.serve .openStream).2 = s at hopen havailable ⊢
  induction front generalizing s with
  | nil => exact (available_poll hopen havailable).1
  | cons first rest ih =>
    obtain ⟨-, hstream, hrest⟩ := available_poll hopen havailable
    rw [List.length_cons, List.replicate_succ, Session.run_cons]
    exact ih _ hstream hrest

/-- An event in flight can be acknowledged. -/
theorem acknowledged_of_inFlight (hc : Coherent s.mailbox)
    (h : e ∈ s.mailbox.inFlight.map (·.2.event)) :
    (s.serve (.acknowledge e.id)).1 = .acknowledged true := by
  obtain ⟨entry, hentry, rfl⟩ := List.mem_map.1 h
  rcases acknowledge_eq s.mailbox entry.2.event.id with ⟨hmiss, -⟩ | ⟨-, hack⟩
  · rw [← hc.keyed entry hentry] at hmiss
    exact absurd (List.mem_map_of_mem hentry) hmiss
  · rw [Session.serve, hack]

/-- When its deadline has come, it can be returned, also where no pass does so. -/
theorem available_of_overdue (hsilent : s.mailbox.nextPass? = none)
    {entry : Event.Id × InFlight α} (hentry : entry ∈ s.mailbox.inFlight) {nanos : Nat}
    (hdue : entry.2.deadline.nanos ≤ s.clock.monotonic.nanos + nanos) :
    entry.2.event ∈ (s.run [.pass nanos, .returnOverdue]).2.mailbox.available := by
  show entry.2.event ∈
    ((s.pass nanos).mailbox.returnOverdue (s.pass nanos).clock.monotonic).2.available
  rw [(pass_of_silent hsilent nanos).2]
  apply List.mem_append_right
  apply List.mem_map_of_mem (f := fun entry : Event.Id × InFlight α => entry.2.event)
  rw [List.mem_mergeSort]
  exact List.mem_filter.2 ⟨hentry, decide_eq_true hdue⟩

end Served

/-- All that a session can do with the events that it holds, by requests alone. -/
structure Serviceable (s : Session α) : Prop where
  dequeued : ∀ front e back, s.mailbox.available = front ++ e :: back →
    ((s.run (List.replicate front.length .takeAny)).2.serve .takeAny).1 = .taken (some e)
  dequeuedByKind : ∀ front e back, s.mailbox.available = front ++ e :: back →
    ((s.run (List.replicate (front.countP (·.kind = e.kind)) (.take e.kind))).2.serve
      (.take e.kind)).1 = .taken (some e)
  streamed : ∀ front e back, s.mailbox.available = front ++ e :: back →
    ((s.run (.openStream :: List.replicate front.length .pollStream)).2.serve .pollStream).1 =
      .polled (.event e)
  acknowledged : ∀ e ∈ s.mailbox.inFlight.map (·.2.event),
    (s.serve (.acknowledge e.id)).1 = .acknowledged true
  requeued : ∀ entry ∈ s.mailbox.inFlight, ∀ nanos,
    entry.2.deadline.nanos ≤ s.clock.monotonic.nanos + nanos →
    entry.2.event ∈ (s.run [.pass nanos, .returnOverdue]).2.mailbox.available

/-! ## Runs with a disposal -/

/-- What the disposal of the session `t` does to the run of `s` in which it comes after `before` and
is followed by `after`. The session goes on as `d`. -/
structure OnlyEnds (settings : QueueSettings) (s : Session α) (before after : List (Request α))
    (t d : Session α) : Prop where
  steps : s.steps (before ++ .dispose :: after) =
    s.steps before ++ ⟨.dispose, .done, d⟩ :: d.steps after
  bare : d.bare = t.bare
  /-- Where the mailbox does not requeue on its own, it is as if the disposal and the later posts
  had not been requested. -/
  unnoticed : settings.autoRequeue = false →
    (s.steps before ++ (d.steps after).filter (! ·.request.isPost)).map (·.bare) =
      (s.steps (before ++ after.filter (! ·.isPost))).map (·.bare)
  /-- In general it is as if the loop had stopped instead. -/
  silenced : (s.steps before ++ (d.steps after).filter (! ·.request.isPost)).map (·.bare) =
    (s.steps before ++ t.halted.steps (after.filter (! ·.isPost))).map (·.bare)
  /-- Every later post is refused, and does nothing. -/
  refused : ∀ front post back, after = front ++ post :: back → post.isPost = true →
    (d.run front).2.serve post = (.posted (.error (.disposed .mailbox)), (d.run front).2)
  /-- An event that was accepted before is still held, unless it has been acknowledged. -/
  kept : ∀ front x back e, (s.run before).1 = front ++ x :: back → x.happening = .accepted e →
    e ∈ (d.run after).2.mailbox.held ∨
      acknowledgements e.id (back ++ ⟨t.clock, .dispose, .done⟩ :: (d.run after).1) = 1
  serviceable : Serviceable (d.run after).2

/-- Without requeueing there is never a loop. -/
theorem loop_run {s : Session α} (h : s.mailbox.loop = none) (requests : List (Request α)) :
    (s.run requests).2.mailbox.loop = none := by
  induction requests generalizing s with
  | nil => exact h
  | cons request rest ih =>
    rw [Session.run_cons]
    apply ih
    rcases loop_cases s request with ⟨-, hsame, -⟩ | ⟨nanos, rfl⟩ | rfl
    · rw [hsame.loop, h]
    · have hsilent : s.mailbox.nextPass? = none := by
        rw [nextPass?, h]
      show (s.pass nanos).mailbox.loop = none
      rw [(pass_of_silent hsilent nanos).2, h]
    · show s.mailbox.dispose.loop = none
      unfold dispose
      split
      next => exact h
      next =>
        dsimp only
        rw [h]
        rfl

/-- An event that lies in one of the places is held, unless it has been acknowledged. -/
theorem held_or_acknowledged {m : Mailbox α} {later : List (Exchange α)} {e : Event α}
    (h : ∃ place, Lies m later e place) : e ∈ m.held ∨ acknowledgements e.id later = 1 := by
  obtain ⟨place, hlies⟩ := h
  cases place with
  | available =>
    have hmem : e ∈ m.available.filter (·.id = e.id) := by
      rw [hlies.2]
      exact List.mem_singleton_self e
    exact .inl (List.mem_append_left _ (List.mem_of_mem_filter hmem))
  | inFlight =>
    have hmem : e ∈ (m.inFlight.filter (·.1 = e.id)).map (·.2.event) := by
      rw [hlies.2]
      exact List.mem_singleton_self e
    obtain ⟨entry, hentry, rfl⟩ := List.mem_map.1 hmem
    exact .inl (List.mem_append_right _ (List.mem_map_of_mem (List.mem_of_mem_filter hentry)))
  | acknowledged => exact .inr hlies

theorem loop_of_create {settings : QueueSettings} {clock : Clock} {s : Session α}
    (h : Session.create settings clock = .ok s) (hauto : settings.autoRequeue = false) :
    s.mailbox.loop = none := by
  rw [Session.create, Mailbox.create] at h
  split at h
  next => cases h
  next =>
    rw [dif_neg (by rw [hauto]; exact Bool.false_ne_true)] at h
    cases h
    rfl

/-- A disposal, and a loop that stops. -/
theorem mute_dispose {t : Session α} (h : Silenced t.mailbox) :
    (t.serve .dispose).2.bare = t.bare ∧ Mute (t.serve .dispose).2 t.halted := by
  have hbare : (t.serve .dispose).2.bare = t.bare := by
    show { t with mailbox := t.mailbox.dispose.bare } = t.bare
    rw [bare_dispose]
    rfl
  exact ⟨hbare, h.dispose.1, h.dispose.2, rfl, hbare⟩

/-- In every run a disposal ends no more than the posts and the passes of the loop. -/
theorem disposal_run {settings : QueueSettings} {clock : Clock} {s : Session α}
    (h : Session.create settings clock = .ok s) (before after : List (Request α)) :
    OnlyEnds settings s before after (s.run before).2 ((s.run before).2.serve .dispose).2 := by
  have hsilenced : Silenced (s.run before).2.mailbox := by
    apply silenced_run
    obtain ⟨loop, rfl⟩ := eq_of_sessionCreate h
    exact fun hdisposed => absurd hdisposed Bool.false_ne_true
  -- From the disposal on the two sessions differ in the loop and in what is refused.
  obtain ⟨hbare, hmute⟩ := mute_dispose hsilenced
  have hsteps := hmute.steps after
  have hcoherent := coherent_run (coherent_of_create h) (before ++ .dispose :: after)
  rw [Session.run_append, Session.run_cons] at hcoherent
  refine ⟨Session.steps_append .., hbare, ?_, ?_, ?_, ?_, ?_⟩
  · intro hauto
    have hhalted : (s.run before).2.halted = (s.run before).2 := by
      have hloop := loop_run (loop_of_create h hauto) before
      rw [Session.halted, ← hloop]
    rw [hhalted] at hsteps
    rw [List.map_append, hsteps, Session.steps_append, List.map_append]
  · rw [List.map_append, hsteps, List.map_append]
  · intro front post back _ hpost
    exact refused_of_disposed (hmute.run front).1 hpost
  · intro front x back e hsplit hx
    have hrun : (s.run (before ++ .dispose :: after)).1 = front ++ x :: (back ++
        ⟨(s.run before).2.clock, .dispose, .done⟩ ::
          (((s.run before).2.serve .dispose).2.run after).1) := by
      rw [Session.run_append, Session.run_cons, hsplit, List.append_assoc]
      rfl
    have hplace := place_run (coherent_of_create h) _ hrun hx
    rw [Session.run_append, Session.run_cons] at hplace
    exact held_or_acknowledged hplace.exists
  · refine ⟨fun _ _ _ => taken_in_turn, fun _ _ _ => taken_by_kind, fun _ _ _ => streamed_in_turn,
      ?_, ?_⟩
    · intro e he
      exact acknowledged_of_inFlight hcoherent he
    · intro entry hentry nanos hdue
      exact available_of_overdue (hmute.run after).2 hentry hdue

/-- Two events are accepted and one of them is taken before the disposal. Afterwards the other one
is streamed and acknowledged, and the first one returns; a post in between is refused. -/
theorem disposal_run_plain :
    ∃ s : Session Nat, Session.create {} ⟨⟨0⟩, 0⟩ = .ok s ∧
      let before := [.post (.ofNat 7) ⟨"Order"⟩ 1 none, .post (.ofNat 8) ⟨"Refund"⟩ 2 none,
        .takeAny]
      let after := [.openStream, .post (.ofNat 9) ⟨"Order"⟩ 3 none, .pollStream,
        .acknowledge (.ofNat 8), .pass 60000000000, .returnOverdue]
      let m := (s.run (before ++ .dispose :: after)).2.mailbox
      (m.accepted = 2 ∧ m.acknowledged = 1 ∧ m.returned = 1 ∧ m.inFlight.length = 0) ∧
        OnlyEnds {} s before after (s.run before).2 ((s.run before).2.serve .dispose).2 :=
  ⟨_, rfl, by decide +kernel, @disposal_run Nat {} ⟨⟨0⟩, 0⟩ _ rfl _ _⟩

end Mailbox
end Courier
