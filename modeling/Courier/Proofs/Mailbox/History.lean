import Courier.Proofs.Mailbox.Holdings

/-!
# The history of a mailbox

A run answers requests one after the other. Its history notes each request with the answer and
with the clock at which it was made; `Exchange.happening` reads off what happened to an event.

> `served_serve`: what every request does to the mailbox, by what happened.

> `effect_serve`: what a request does to the events held and to the counters follows from what
> happened, whatever the request was.
-/

namespace Courier.Mailbox

variable {α : Type}

/-- A request, the clock at which it was made, and its answer. -/
structure Exchange (α : Type) where
  clock : Clock
  request : Request α
  reply : Reply α

/-- What happens to an event in an exchange. -/
inductive Happening (α : Type) where
  /-- The event is taken on. -/
  | accepted (e : Event α)
  /-- An event is turned away for want of room. -/
  | turnedAway
  /-- The event with the identifier is acknowledged. -/
  | acknowledged (id : Event.Id)
  /-- The event is handed out. -/
  | delivered (e : Event α)
  /-- No event is taken on, turned away, acknowledged or handed out. -/
  | other

/-- What has happened in an exchange. -/
def Exchange.happening (x : Exchange α) : Happening α :=
  match x.request, x.reply with
  | .post fresh kind data supplied, .posted (.ok (some _)) =>
    .accepted (posted x.clock fresh kind data supplied)
  | _, .posted (.ok none) => .turnedAway
  | .acknowledge id, .acknowledged true => .acknowledged id
  | _, .taken (some e) => .delivered e
  | _, .polled (.event e) => .delivered e
  | _, _ => .other

/-- Whether an event is taken on. -/
def Happening.isAcceptance : Happening α → Bool
  | .accepted _ => true
  | _ => false

/-- Whether an event is turned away. -/
def Happening.isTurningAway : Happening α → Bool
  | .turnedAway => true
  | _ => false

/-- Whether an event is acknowledged. -/
def Happening.isAcknowledgement : Happening α → Bool
  | .acknowledged _ => true
  | _ => false

/-- Whether an event with the identifier is taken on. -/
def Happening.accepts (id : Event.Id) : Happening α → Bool
  | .accepted e => e.id = id
  | _ => false

/-- Whether the event with the identifier is acknowledged. -/
def Happening.acknowledges (id : Event.Id) : Happening α → Bool
  | .acknowledged acked => acked = id
  | _ => false

/-- Answers requests one after the other. -/
def Session.run (s : Session α) : List (Request α) → List (Exchange α) × Session α
  | [] => ([], s)
  | request :: rest =>
    let (reply, s') := s.serve request
    let (history, s'') := run s' rest
    (⟨s.clock, request, reply⟩ :: history, s'')

theorem Session.run_cons (s : Session α) (request : Request α) (rest : List (Request α)) :
    s.run (request :: rest) =
      (⟨s.clock, request, (s.serve request).1⟩ :: ((s.serve request).2.run rest).1,
        ((s.serve request).2.run rest).2) := rfl

/-- A session with a new mailbox. -/
def Session.create (settings : QueueSettings) (clock : Clock) : Except Failure (Session α) :=
  (Mailbox.create settings clock.monotonic).map fun mailbox => { mailbox, clock }

/-- A session begins with an empty mailbox. -/
theorem eq_of_sessionCreate {settings : QueueSettings} {clock : Clock} {s : Session α}
    (h : Session.create settings clock = .ok s) :
    ∃ loop, s = { mailbox := { settings, loop }, clock } := by
  rw [Session.create] at h
  cases hm : (Mailbox.create settings clock.monotonic : Except Failure (Mailbox α)) with
  | error e => rw [hm] at h; cases h
  | ok m =>
    obtain ⟨loop, rfl⟩ := eq_of_create hm
    rw [hm] at h
    cases h
    exact ⟨loop, rfl⟩

theorem coherent_of_create {settings : QueueSettings} {clock : Clock} {s : Session α}
    (h : Session.create settings clock = .ok s) : Coherent s.mailbox := by
  obtain ⟨loop, rfl⟩ := eq_of_sessionCreate h
  exact coherent_empty settings loop

/-- What is accepted has found room. -/
theorem room_of_post {m m' : Mailbox α} {clock : Clock} {fresh : Event.Id} {kind : Event.Kind}
    {data : α} {supplied : Option Event.Properties} {id : Event.Id}
    (h : m.post clock fresh kind data supplied = (.ok (some id), m')) : m.isFull = false := by
  unfold post at h
  split at h
  next => cases h
  next =>
    dsimp only at h
    split at h
    next => cases h
    next =>
      split at h
      next => cases h
      next hroom => simpa using hroom

/-! ## What a request does -/

/-- What a request does to the mailbox of a session, by what happens. -/
inductive Served (s : Session α) (request : Request α) (m' : Mailbox α) : Happening α → Prop where
  | accepted (e : Event α) (room : s.mailbox.isFull = false) (free : e.id ∉ s.mailbox.tracked)
      (mailbox : m' = { s.mailbox with
        available := s.mailbox.available ++ [e]
        tracked := e.id :: s.mailbox.tracked
        accepted := s.mailbox.accepted + 1 }) : Served s request m' (.accepted e)
  | turnedAway (mailbox : m' = { s.mailbox with dropped := s.mailbox.dropped + 1 }) :
      Served s request m' .turnedAway
  | delivered (e : Event α) (out : HandedOut s.mailbox s.clock.monotonic e m') :
      Served s request m' (.delivered e)
  | acknowledged (id : Event.Id) (key : id ∈ s.mailbox.inFlight.map (·.1))
      (mailbox : m' = { s.mailbox with
        inFlight := s.mailbox.inFlight.filter (·.1 ≠ id)
        tracked := s.mailbox.tracked.erase id
        acknowledged := s.mailbox.acknowledged + 1 }) : Served s request m' (.acknowledged id)
  -- What the answer does not tell is told by the request.
  | swept (made : request = .returnOverdue)
      (mailbox : m' = (s.mailbox.returnOverdue s.clock.monotonic).2) : Served s request m' .other
  | disposed (made : request = .dispose) (mailbox : m' = s.mailbox.dispose) :
      Served s request m' .other
  | passed (nanos : Nat) (made : request = .pass nanos) (mailbox : m' = (s.pass nanos).mailbox) :
      Served s request m' .other
  | nothing (mailbox : m' = s.mailbox) : Served s request m' .other

/-- Every request does one of these. -/
theorem served_serve (s : Session α) (request : Request α) :
    Served s request (s.serve request).2.mailbox
      (Exchange.happening ⟨s.clock, request, (s.serve request).1⟩) := by
  cases request with
  | post fresh kind data supplied =>
    rcases hpost : s.mailbox.post s.clock fresh kind data supplied with ⟨result, m'⟩
    simp only [Session.serve, hpost]
    rcases result with e | _ | id
    · exact .nothing (post_refused hpost)
    · exact .turnedAway (post_turnedAway hpost)
    · obtain ⟨hfree, hmailbox⟩ := post_accepted hpost
      exact .accepted _ (room_of_post hpost) hfree hmailbox
  | take kind =>
    rcases take_cases s.mailbox kind s.clock.monotonic with ⟨-, h⟩ | ⟨e, m', h, hout⟩
    · simp only [Session.serve, h]
      exact .nothing rfl
    · simp only [Session.serve, h]
      exact .delivered _ hout
  | takeAny =>
    rcases takeAny_cases s.mailbox s.clock.monotonic with ⟨-, h⟩ | ⟨e, m', h, hout⟩
    · simp only [Session.serve, h]
      exact .nothing rfl
    · simp only [Session.serve, h]
      exact .delivered _ hout
  | acknowledge id =>
    rcases acknowledge_eq s.mailbox id with ⟨-, h⟩ | ⟨hkey, h⟩
    · simp only [Session.serve, h]
      exact .nothing rfl
    · simp only [Session.serve, h]
      exact .acknowledged id hkey rfl
  | returnOverdue => exact .swept rfl rfl
  | deadline id => exact .nothing rfl
  | dispose => exact .disposed rfl rfl
  | pass nanos => exact .passed nanos rfl rfl
  | settings => exact .nothing rfl
  | openStream => exact .nothing rfl
  | cancelStream => exact .nothing rfl
  | pollStream =>
    rcases hstream : s.stream with _ | stream
    · simp only [Session.serve, hstream]
      exact .nothing rfl
    · simp only [Session.serve, hstream]
      rcases poll_cases stream s.mailbox s.clock.monotonic with ⟨hm, hnone⟩ | ⟨e, he, hout⟩
      · rcases hpolled : (stream.poll s.mailbox s.clock.monotonic).1 with e | _ | _
        · exact absurd hpolled (hnone e)
        · exact .nothing hm
        · exact .nothing hm
      · rw [he]
        exact .delivered e hout

/-! ## What becomes of the events held -/

/-- What becomes of the events held and of the counters, by what happened. -/
inductive Effect (m m' : Mailbox α) : Happening α → Prop where
  | accepted (e : Event α) (free : e.id ∉ m.heldIds) (held : m'.held.Perm (e :: m.held))
      (accepted : m'.accepted = m.accepted + 1) (dropped : m'.dropped = m.dropped)
      (acknowledged : m'.acknowledged = m.acknowledged) : Effect m m' (.accepted e)
  | turnedAway (held : m'.held.Perm m.held) (accepted : m'.accepted = m.accepted)
      (dropped : m'.dropped = m.dropped + 1)
      (acknowledged : m'.acknowledged = m.acknowledged) : Effect m m' .turnedAway
  | acknowledged (e : Event α) (held : m.held.Perm (e :: m'.held))
      (accepted : m'.accepted = m.accepted) (dropped : m'.dropped = m.dropped)
      (acknowledged : m'.acknowledged = m.acknowledged + 1) : Effect m m' (.acknowledged e.id)
  | delivered (e : Event α) (mem : e ∈ m.held) (rearranged : Rearranged m m') :
      Effect m m' (.delivered e)
  | other (rearranged : Rearranged m m') : Effect m m' .other

/-- What a request does keeps a mailbox coherent, and has an effect. -/
theorem Served.effect {s : Session α} (hc : Coherent s.mailbox) {request : Request α}
    {m' : Mailbox α} {h : Happening α} (hserved : Served s request m' h) :
    Coherent m' ∧ Effect s.mailbox m' h := by
  cases hserved with
  | accepted e room free mailbox =>
    obtain rfl := mailbox
    refine ⟨hc.append free _, .accepted e ?_ (held_append ..) rfl rfl rfl⟩
    exact fun hmem => free (hc.tracked.mem_iff.2 hmem)
  | turnedAway mailbox =>
    obtain rfl := mailbox
    exact ⟨⟨hc.distinct, hc.keyed, hc.tracked⟩, .turnedAway (.refl _) rfl rfl rfl⟩
  | delivered e out => exact ⟨hc.handOut out, .delivered e out.mem_held (out.rearranged hc)⟩
  | acknowledged id key mailbox =>
    obtain ⟨hc', e, rfl, hheld⟩ := hc.acknowledge key mailbox
    obtain rfl := mailbox
    exact ⟨hc', .acknowledged e hheld rfl rfl rfl⟩
  | swept made mailbox =>
    obtain rfl := mailbox
    exact ⟨hc.returnOverdue _, .other (rearranged_returnOverdue ..)⟩
  | disposed made mailbox =>
    obtain rfl := mailbox
    exact ⟨(rearranged_dispose hc).1, .other (rearranged_dispose hc).2⟩
  | passed nanos made mailbox =>
    obtain rfl := mailbox
    have hpasses := rearranged_passes hc (s.clock.advance nanos).monotonic s.clock.monotonic
    exact ⟨hpasses.1, .other hpasses.2⟩
  | nothing mailbox =>
    obtain rfl := mailbox
    exact ⟨hc, .other (.refl _)⟩

/-- Every request keeps the mailbox coherent, and has the effect that its answer tells. -/
theorem effect_serve {s : Session α} (hc : Coherent s.mailbox) (request : Request α) :
    Coherent (s.serve request).2.mailbox ∧
      Effect s.mailbox (s.serve request).2.mailbox
        (Exchange.happening ⟨s.clock, request, (s.serve request).1⟩) :=
  (served_serve s request).effect hc

end Courier.Mailbox
