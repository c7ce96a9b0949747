import Courier.Proofs.Mailbox.History

/-!
# Streams over a mailbox

A stream takes the oldest available event whenever it looks for one. When it looks, and when it
ends, follows from the history alone: from when it was opened and cancelled, and from the polls that
were in vain. What else happens to the mailbox, its disposal included, has no bearing on it.

> `stream_serve`, `stream_run`: the stream of a session is the one that its history tells of.

> `silent_run`: a stream that was cancelled takes nothing any more.

> `streamed_run`: what a poll does after any run.
-/

namespace Courier.Mailbox

variable {α : Type}

/-! ## What the history tells -/

/-- What the history tells of a stream that is open. -/
structure Listener where
  cancelled : Bool := false
  /-- When the stream looked for an event in vain, unless it has brought one since. -/
  lastMiss : Option Instant := none

namespace Listener

/-- Whether less than the poll interval has passed since the last look in vain. -/
def rests (l : Listener) (now : Instant) : Bool :=
  match l.lastMiss with
  | none => false
  | some missed => now < missed.after Stream.pollInterval

/-- The stream that is open after an exchange. A poll without a result is a look in vain, unless the
stream is at rest. -/
def next (open? : Option Listener) (x : Exchange α) : Option Listener :=
  match x.request, x.reply with
  | .openStream, _ => some {}
  | .cancelStream, _ => open?.map fun l => { l with cancelled := true }
  | .pollStream, .polled (.event _) => open?.map fun l => { l with lastMiss := none }
  | .pollStream, .polled .pending =>
    open?.map fun l =>
      if l.rests x.clock.monotonic then l else { l with lastMiss := some x.clock.monotonic }
  | .pollStream, .polled .ended => none
  | _, _ => open?

/-- The state of the stream. -/
def stream (l : Listener) : Stream where
  cancelled := l.cancelled
  asleepUntil := l.lastMiss.map fun missed => missed.after Stream.pollInterval

theorem sleeps_stream (l : Listener) (now : Instant) : l.stream.sleeps now = l.rests now := by
  unfold Stream.sleeps stream rests
  cases l.lastMiss <;> rfl

end Listener

/-- The stream that is open after a history, if none was open before it. -/
def listening (history : List (Exchange α)) : Option Listener := history.foldl Listener.next none

/-! ## One poll -/

section Poll

variable {l : Listener} {m : Mailbox α} {now : Instant}

theorem poll_of_cancelled (h : l.cancelled = true) : l.stream.poll m now = (.ended, none, m) :=
  if_pos h

theorem poll_of_rests (h : l.cancelled = false) (hrests : l.rests now = true) :
    l.stream.poll m now = (.pending, some l.stream, m) := by
  obtain ⟨cancelled, missed⟩ := l
  obtain rfl : cancelled = false := h
  unfold Stream.poll
  rw [Listener.sleeps_stream, hrests]
  rfl

theorem poll_of_empty (h : l.cancelled = false) (hawake : l.rests now = false)
    (hempty : m.available = []) :
    l.stream.poll m now = (.pending, some { l with lastMiss := some now }.stream, m) := by
  obtain ⟨cancelled, missed⟩ := l
  obtain rfl : cancelled = false := h
  unfold Stream.poll takeAny
  rw [Listener.sleeps_stream, hawake, hempty]
  rfl

/-- A poll that looks, and finds something, takes the oldest event. -/
theorem poll_of_available (h : l.cancelled = false) (hawake : l.rests now = false) {e : Event α}
    {rest : List (Event α)} (havailable : m.available = e :: rest) :
    l.stream.poll m now =
      (.event e, some { l with lastMiss := none }.stream, (m.takeAny now).2) := by
  obtain ⟨cancelled, missed⟩ := l
  obtain rfl : cancelled = false := h
  unfold Stream.poll takeAny
  rw [Listener.sleeps_stream, hawake, havailable]
  rfl

/-- What a poll comes to. -/
theorem poll_listener (l : Listener) (m : Mailbox α) (now : Instant) :
    (l.cancelled = true ∧ l.stream.poll m now = (.ended, none, m)) ∨
    (l.cancelled = false ∧ l.rests now = true ∧
      l.stream.poll m now = (.pending, some l.stream, m)) ∨
    (l.cancelled = false ∧ l.rests now = false ∧ m.available = [] ∧
      l.stream.poll m now = (.pending, some { l with lastMiss := some now }.stream, m)) ∨
    ∃ e rest, l.cancelled = false ∧ l.rests now = false ∧ m.available = e :: rest ∧
      l.stream.poll m now =
        (.event e, some { l with lastMiss := none }.stream, (m.takeAny now).2) := by
  by_cases hcancelled : l.cancelled = true
  · exact .inl ⟨hcancelled, poll_of_cancelled hcancelled⟩
  · rw [Bool.not_eq_true] at hcancelled
    by_cases hrests : l.rests now = true
    · exact .inr (.inl ⟨hcancelled, hrests, poll_of_rests hcancelled hrests⟩)
    · rw [Bool.not_eq_true] at hrests
      cases havailable : m.available with
      | nil =>
        have hpoll := poll_of_empty hcancelled hrests havailable
        exact .inr (.inr (.inl ⟨hcancelled, hrests, rfl, hpoll⟩))
      | cons e rest =>
        have hpoll := poll_of_available hcancelled hrests havailable
        exact .inr (.inr (.inr ⟨e, rest, hcancelled, hrests, rfl, hpoll⟩))

end Poll

/-! ## The stream of a session -/

theorem poll_of_none {s : Session α} (h : s.stream = none) :
    s.serve .pollStream = (.noStream, s) := by
  simp only [Session.serve, h]

theorem poll_of_some {s : Session α} {stream : Stream} (h : s.stream = some stream) :
    s.serve .pollStream =
      (.polled (stream.poll s.mailbox s.clock.monotonic).1,
        { s with
          mailbox := (stream.poll s.mailbox s.clock.monotonic).2.2
          stream := (stream.poll s.mailbox s.clock.monotonic).2.1 }) := by
  simp only [Session.serve, h]

/-- Every request leaves the stream of which its exchange tells. -/
theorem stream_serve {s : Session α} {open? : Option Listener}
    (h : s.stream = open?.map Listener.stream) (request : Request α) :
    (s.serve request).2.stream =
      (Listener.next open? ⟨s.clock, request, (s.serve request).1⟩).map Listener.stream := by
  cases request with
  | openStream => rfl
  | cancelStream =>
    show s.stream.map _ = (open?.map _).map Listener.stream
    rw [h]
    cases open? <;> rfl
  | pollStream =>
    cases open? with
    | none =>
      rw [poll_of_none h]
      exact h
    | some l =>
      rw [poll_of_some h]
      dsimp only
      rcases poll_listener l s.mailbox s.clock.monotonic with
        ⟨-, hpoll⟩ | ⟨-, hrests, hpoll⟩ | ⟨-, hawake, -, hpoll⟩ | ⟨e, rest, -, -, -, hpoll⟩
      · rw [hpoll]
        rfl
      · rw [hpoll]
        simp [Listener.next, hrests]
      · rw [hpoll]
        simp [Listener.next, hawake]
      · rw [hpoll]
        rfl
  | post fresh kind data supplied => exact h
  | take kind => exact h
  | takeAny => exact h
  | acknowledge id => exact h
  | returnOverdue => exact h
  | deadline id => exact h
  | dispose => exact h
  | pass nanos => exact h
  | settings => exact h

/-- The stream after a run is the one of which the history tells. -/
theorem stream_run {s : Session α} {open? : Option Listener}
    (h : s.stream = open?.map Listener.stream) (requests : List (Request α)) :
    (s.run requests).2.stream =
      ((s.run requests).1.foldl Listener.next open?).map Listener.stream := by
  induction requests generalizing s open? with
  | nil => exact h
  | cons request rest ih =>
    rw [Session.run_cons]
    exact ih (stream_serve h request)

/-- No stream is open but one that was cancelled. -/
def Session.Silent (s : Session α) : Prop :=
  ∀ stream, s.stream = some stream → stream.cancelled = true

theorem silent_serve {s : Session α} (h : s.Silent) {request : Request α}
    (hrequest : request ≠ .openStream) : (s.serve request).2.Silent := by
  cases request with
  | openStream => exact absurd rfl hrequest
  | cancelStream =>
    intro stream hstream
    obtain ⟨_, -, rfl⟩ := Option.map_eq_some_iff.1 hstream
    rfl
  | pollStream =>
    cases hstream : s.stream with
    | none =>
      rw [poll_of_none hstream]
      exact h
    | some stream =>
      rw [poll_of_some hstream, Stream.poll, if_pos (h stream hstream)]
      exact nofun
  | post fresh kind data supplied => exact h
  | take kind => exact h
  | takeAny => exact h
  | acknowledge id => exact h
  | returnOverdue => exact h
  | deadline id => exact h
  | dispose => exact h
  | pass nanos => exact h
  | settings => exact h

/-- As long as no stream is opened anew, polls of a stream that was cancelled take no event. -/
theorem silent_run {s : Session α} (h : s.Silent) {requests : List (Request α)}
    (hrequests : .openStream ∉ requests) :
    ∀ x ∈ (s.run requests).1, x.request = .pollStream →
      x.reply = .polled .ended ∨ x.reply = .noStream := by
  induction requests generalizing s with
  | nil => exact List.forall_mem_nil _
  | cons request rest ih =>
    rw [List.mem_cons, not_or] at hrequests
    intro x hx hpoll
    rw [Session.run_cons] at hx
    rcases List.mem_cons.1 hx with rfl | hx
    · obtain rfl : request = .pollStream := hpoll
      dsimp only
      cases hstream : s.stream with
      | none =>
        rw [poll_of_none hstream]
        exact .inr rfl
      | some stream =>
        rw [poll_of_some hstream, Stream.poll, if_pos (h stream hstream)]
        exact .inl rfl
    · exact ih (silent_serve h (Ne.symm hrequests.1)) hrequests.2 x hx hpoll

/-! ## Polls -/

/-- What a poll does next, after a history, in a session. -/
structure Streamed (history : List (Exchange α)) (s : Session α) : Prop where
  /-- A poll that brings an event has taken the oldest one, as any other taker would have at that
  instant, and the event is in flight from now on. -/
  event : ∀ e, (s.serve .pollStream).1 = .polled (.event e) →
    (s.serve .takeAny).1 = .taken (some e) ∧
      (s.serve .pollStream).2.mailbox = (s.serve .takeAny).2.mailbox ∧
      s.mailbox.available = e :: (s.serve .pollStream).2.mailbox.available ∧
      (s.serve .pollStream).2.mailbox.inFlight.lookup e.id =
        some ⟨e, s.clock.monotonic, s.clock.monotonic.after s.mailbox.settings.ackTimeout⟩
  /-- Any other poll leaves the mailbox as it is. -/
  quiet : (∀ e, (s.serve .pollStream).1 ≠ .polled (.event e)) →
    (s.serve .pollStream).2.mailbox = s.mailbox
  /-- A stream that is open and not at rest brings an event if there is one. -/
  prompt : ∀ l, listening history = some l → l.cancelled = false →
    l.rests s.clock.monotonic = false → s.mailbox.available ≠ [] →
      ∃ e, (s.serve .pollStream).1 = .polled (.event e)
  /-- A poll ends the stream exactly if it was cancelled. -/
  ended : (s.serve .pollStream).1 = .polled .ended ↔
    ∃ l, listening history = some l ∧ l.cancelled = true
  /-- From then on no poll brings an event, unless a stream is opened anew. -/
  silent : ∀ l, listening history = some l → l.cancelled = true →
    ∀ requests, .openStream ∉ requests →
      ∀ x ∈ (s.run requests).1, x.request = .pollStream →
        x.reply = .polled .ended ∨ x.reply = .noStream
  /-- The disposal of the mailbox makes no difference to the next poll. -/
  disposed : ((s.serve .dispose).2.serve .pollStream).1 = (s.serve .pollStream).1 ∧
    (s.serve .dispose).2.stream = s.stream

/-- What a poll brings does not depend on whether the mailbox was disposed. -/
theorem poll_dispose (stream : Stream) (m : Mailbox α) (now : Instant) :
    (stream.poll m.dispose now).1 = (stream.poll m now).1 := by
  have hsame : m.dispose.available = m.available := by
    unfold dispose
    split <;> rfl
  unfold Stream.poll takeAny
  rw [hsame]
  split
  next => rfl
  next =>
    split
    next => rfl
    next => cases m.available <;> rfl

/-- A poll takes the oldest event and brings it, or it leaves the mailbox as it is. -/
theorem takes_or_quiet {s : Session α} {open? : Option Listener}
    (h : s.stream = open?.map Listener.stream) :
    (∃ e rest, s.mailbox.available = e :: rest ∧ (s.serve .pollStream).1 = .polled (.event e) ∧
      (s.serve .pollStream).2.mailbox = (s.serve .takeAny).2.mailbox) ∨
    (∀ e, (s.serve .pollStream).1 ≠ .polled (.event e)) ∧
      (s.serve .pollStream).2.mailbox = s.mailbox := by
  cases open? with
  | none =>
    rw [poll_of_none h]
    exact .inr ⟨nofun, rfl⟩
  | some l =>
    rw [poll_of_some h]
    rcases poll_listener l s.mailbox s.clock.monotonic with ⟨-, hpoll⟩ | ⟨-, -, hpoll⟩ |
      ⟨-, -, -, hpoll⟩ | ⟨e, rest, -, -, havailable, hpoll⟩
    · rw [hpoll]
      exact .inr ⟨nofun, rfl⟩
    · rw [hpoll]
      exact .inr ⟨nofun, rfl⟩
    · rw [hpoll]
      exact .inr ⟨nofun, rfl⟩
    · rw [hpoll]
      exact .inl ⟨e, rest, havailable, rfl, rfl⟩

/-- A stream that was cancelled ends, and one that is awake finds what is there. -/
theorem polled_of_stream {s : Session α} {l : Listener} (h : s.stream = some l.stream) :
    ((s.serve .pollStream).1 = .polled .ended ↔ l.cancelled = true) ∧
      (l.cancelled = false → l.rests s.clock.monotonic = false → s.mailbox.available ≠ [] →
        ∃ e, (s.serve .pollStream).1 = .polled (.event e)) := by
  rw [poll_of_some h]
  rcases poll_listener l s.mailbox s.clock.monotonic with ⟨hcancelled, hpoll⟩ |
    ⟨hopen, hrests, hpoll⟩ | ⟨hopen, -, hempty, hpoll⟩ | ⟨e, rest, hopen, -, -, hpoll⟩
  · rw [hpoll, hcancelled]
    exact ⟨iff_of_true rfl rfl, nofun⟩
  · rw [hpoll, hopen, hrests]
    exact ⟨iff_of_false nofun nofun, fun _ => nofun⟩
  · rw [hpoll, hopen]
    exact ⟨iff_of_false nofun nofun, fun _ _ hne => absurd hempty hne⟩
  · rw [hpoll, hopen]
    exact ⟨iff_of_false nofun nofun, fun _ _ _ => ⟨e, rfl⟩⟩

/-- Whoever takes the oldest event gets it, and it is in flight. -/
theorem takeAny_of_available {s : Session α} {e : Event α} {rest : List (Event α)}
    (h : s.mailbox.available = e :: rest) :
    (s.serve .takeAny).1 = .taken (some e) ∧ (s.serve .takeAny).2.mailbox.available = rest ∧
      (s.serve .takeAny).2.mailbox.inFlight.lookup e.id =
        some ⟨e, s.clock.monotonic, s.clock.monotonic.after s.mailbox.settings.ackTimeout⟩ := by
  have htake : s.mailbox.takeAny s.clock.monotonic =
      (some e, { s.mailbox with available := rest }.track e s.clock.monotonic) := by
    unfold takeAny
    rw [h]
  have hserve : s.serve .takeAny = (.taken (some e), { s with
      mailbox := { s.mailbox with available := rest }.track e s.clock.monotonic }) := by
    simp only [Session.serve, htake]
  rw [hserve]
  exact ⟨rfl, rfl, List.lookup_cons_self⟩

/-- A session that has no stream open, or the one that the history tells of, polls as described. -/
theorem streamed_of_stream {history : List (Exchange α)} {s : Session α}
    (h : s.stream = (listening history).map Listener.stream) : Streamed history s := by
  have hstream {l : Listener} (hopen : listening history = some l) : s.stream = some l.stream := by
    rw [h, hopen]
    rfl
  have hdisposed : ((s.serve .dispose).2.serve .pollStream).1 = (s.serve .pollStream).1 := by
    cases hstream : s.stream with
    | none =>
      rw [poll_of_none hstream, poll_of_none (s := (s.serve .dispose).2) hstream]
    | some stream =>
      rw [poll_of_some hstream, poll_of_some (s := (s.serve .dispose).2) hstream]
      exact congrArg Reply.polled (poll_dispose stream s.mailbox s.clock.monotonic)
  refine ⟨?_, ?_, fun l hopen => (polled_of_stream (hstream hopen)).2, ?_, ?_, hdisposed, rfl⟩
  · intro e hevent
    rcases takes_or_quiet h with ⟨e', rest, havailable, hreply, hbox⟩ | ⟨hnone, -⟩
    · rw [hreply] at hevent
      cases hevent
      obtain ⟨htaken, hrest, hflight⟩ := takeAny_of_available havailable
      rw [hbox, hrest]
      exact ⟨htaken, rfl, havailable, hflight⟩
    · exact absurd hevent (hnone e)
  · intro hnone
    rcases takes_or_quiet h with ⟨e, rest, -, hreply, -⟩ | ⟨-, hbox⟩
    · exact absurd hreply (hnone e)
    · exact hbox
  · constructor
    · intro hended
      cases hopen : listening history with
      | none =>
        rw [hopen] at h
        rw [poll_of_none h] at hended
        cases hended
      | some l => exact ⟨l, rfl, (polled_of_stream (hstream hopen)).1.1 hended⟩
    · rintro ⟨l, hopen, hcancelled⟩
      exact (polled_of_stream (hstream hopen)).1.2 hcancelled
  · intro l hopen hcancelled requests hrequests
    refine silent_run ?_ hrequests
    intro stream hsome
    rw [hstream hopen] at hsome
    cases hsome
    exact hcancelled

end Courier.Mailbox
