import Courier.Proofs.Mailbox.Records

/-!
# The limit of a mailbox

A post is turned away while the mailbox is full, but an event that returns is not: it joins the
available events whether there is room or not. So the limit bounds the available events that wait to
be handed out for the first time, and those that have come back are on top of it.

> `bounded_run`: after any run at most as many available events as the limit says have not been
> handed out yet, and all of them are no more than the limit and the returns together.

> `overfull_run`: a run that ends with more available events than the limit says.
-/

namespace Courier.Mailbox

variable {α : Type}

/-- Whether the event with the identifier has been handed out since it was accepted. -/
def handedOut (id : Event.Id) (history : List (Exchange α)) : Bool :=
  match latest? (fun h => h.accepts id || h.delivers id) history with
  | some x => x.happening.delivers id
  | none => false

theorem handedOut_concat (id : Event.Id) (past : List (Exchange α)) (x : Exchange α) :
    handedOut id (past ++ [x]) =
      (x.happening.delivers id || (!x.happening.accepts id && handedOut id past)) := by
  unfold handedOut
  rw [latest?_concat]
  cases hdelivers : x.happening.delivers id with
  | true => simp [hdelivers]
  | false => cases x.happening.accepts id <;> simp [hdelivers]

theorem handedOut_of_not_accepts {id : Event.Id} {past : List (Exchange α)} {x : Exchange α}
    (hx : x.happening.accepts id = false) (h : handedOut id past = true) :
    handedOut id (past ++ [x]) = true := by
  rw [handedOut_concat, hx, h]
  exact Bool.or_true _

/-- How many of the events have not been handed out since they were accepted. -/
def newCount (history : List (Exchange α)) (events : List (Event α)) : Nat :=
  events.countP fun e => !handedOut e.id history

theorem newCount_le {past : List (Exchange α)} {x : Exchange α}
    (hx : ∀ id, x.happening.accepts id = false) (events : List (Event α)) :
    newCount (past ++ [x]) events ≤ newCount past events := by
  refine List.countP_mono_left fun e _ hnew => ?_
  cases hout : handedOut e.id past with
  | false => rfl
  | true =>
    rw [handedOut_of_not_accepts (hx e.id) hout] at hnew
    cases hnew

/-- A mailbox with a limit, and a history that tells which of its events have been handed out. -/
structure Limited (limit : UInt64) (past : List (Exchange α)) (m : Mailbox α) : Prop where
  coherent : Coherent m
  limit_eq : m.settings.queueLimit = some limit
  inFlight : ∀ entry ∈ m.inFlight, handedOut entry.1 past = true
  new : newCount past m.available ≤ limit.toNat
  total : m.available.length ≤ limit.toNat + m.returned

section Limited

variable {limit : UInt64} {past : List (Exchange α)} {m m' : Mailbox α} {s : Session α}

theorem Limited.lt_of_room (h : Limited limit past m) (room : m.isFull = false) :
    m.available.length < limit.toNat := by
  unfold isFull at room
  rw [h.limit_eq] at room
  exact Nat.lt_of_not_le (of_decide_eq_false room)

/-- A record of an event in flight has its identifier among those tracked. -/
theorem Coherent.mem_tracked (hc : Coherent m) {entry : Event.Id × InFlight α}
    (hentry : entry ∈ m.inFlight) : entry.1 ∈ m.tracked := by
  rw [hc.tracked.mem_iff, hc.heldIds_eq]
  exact List.mem_append_right _ (List.mem_map_of_mem hentry)

/-- An event that is accepted finds room. -/
theorem Limited.accept {x : Exchange α} {e : Event α} (h : Limited limit past m)
    (hc : Coherent m') (hx : x.happening = .accepted e) (room : m.isFull = false)
    (free : e.id ∉ m.tracked) (settings : m'.settings = m.settings)
    (available : m'.available = m.available ++ [e]) (inFlight : m'.inFlight = m.inFlight)
    (returned : m'.returned = m.returned) : Limited limit (past ++ [x]) m' := by
  have hlt := h.lt_of_room room
  have hlength : m'.available.length = m.available.length + 1 := by
    rw [available, List.length_append, List.length_singleton]
  refine ⟨hc, settings ▸ h.limit_eq, ?_, ?_, ?_⟩
  · rw [inFlight]
    intro entry hentry
    refine handedOut_of_not_accepts ?_ (h.inFlight entry hentry)
    rw [hx]
    refine decide_eq_false fun hid => free ?_
    rw [show e.id = entry.1 from hid]
    exact h.coherent.mem_tracked hentry
  · have hle : newCount (past ++ [x]) m'.available ≤ m'.available.length := List.countP_le_length
    omega
  · rw [hlength, returned]
    omega

/-- What accepts no event brings no new one, and what becomes available besides has returned. -/
theorem Limited.quiet {x : Exchange α} (h : Limited limit past m) (hc : Coherent m')
    (hx : ∀ id, x.happening.accepts id = false) (settings : m'.settings = m.settings)
    (inFlight : ∀ entry ∈ m'.inFlight, entry ∈ m.inFlight ∨ x.happening.delivers entry.1 = true)
    (new : newCount past m'.available ≤ newCount past m.available)
    (total : m'.available.length + m.returned ≤ m.available.length + m'.returned) :
    Limited limit (past ++ [x]) m' := by
  refine ⟨hc, settings ▸ h.limit_eq, ?_, ?_, ?_⟩
  · intro entry hentry
    rcases inFlight entry hentry with hold | hdelivered
    · exact handedOut_of_not_accepts (hx entry.1) (h.inFlight entry hold)
    · rw [handedOut_concat, hdelivered]
      rfl
  · exact Nat.le_trans (newCount_le hx _) (Nat.le_trans new h.new)
  · have htotal := h.total
    omega

/-- What has returned had been handed out. -/
theorem Limited.newCount_returned (h : Limited limit past m) {back : List (Event α)}
    (hreturned : Returned m m' back) :
    newCount past m'.available = newCount past m.available := by
  have hback : newCount past back = 0 := by
    unfold newCount
    rw [List.countP_eq_zero]
    intro e he
    obtain ⟨entry, hentry, rfl⟩ := List.mem_map.1 (hreturned.source he)
    rw [← h.coherent.keyed entry hentry, h.inFlight entry hentry]
    exact Bool.false_ne_true
  unfold newCount at hback ⊢
  rw [hreturned.available, List.countP_append, hback]
  rfl

theorem Limited.motion {now : Instant} {x : Exchange α} (h : Limited limit past m)
    (hc : Coherent m') (hmotion : Motion now m m' x.happening) :
    Limited limit (past ++ [x]) m' := by
  generalize hx : x.happening = happening at hmotion
  cases hmotion with
  | accepted e room free settings available inFlight returned =>
    exact h.accept hc hx room free settings available inFlight returned
  | turnedAway settings available inFlight returned =>
    refine h.quiet hc (by rw [hx]; exact fun _ => rfl) settings ?_ ?_ ?_
    · rw [inFlight]
      exact fun _ hentry => .inl hentry
    · exact Nat.le_of_eq (by rw [available])
    · exact Nat.le_of_eq (by rw [available, returned])
  | acknowledged id settings available inFlight returned =>
    refine h.quiet hc (by rw [hx]; exact fun _ => rfl) settings ?_ ?_ ?_
    · exact fun _ hentry => .inl (inFlight hentry)
    · exact Nat.le_of_eq (by rw [available])
    · exact Nat.le_of_eq (by rw [available, returned])
  | returned back hreturned =>
    refine h.quiet hc (by rw [hx]; exact fun _ => rfl) hreturned.settings ?_ ?_ ?_
    · exact fun _ hentry => .inl (hreturned.inFlight hentry)
    · exact Nat.le_of_eq (h.newCount_returned hreturned)
    · rw [hreturned.available, hreturned.returned, List.length_append]
      omega
  | delivered e out =>
    have hflight := out.inFlight_eq h.coherent
    obtain ⟨front, back, hsplit, rfl⟩ := out
    have hsub : (front ++ back).Sublist m.available := by
      rw [hsplit]
      exact (List.sublist_cons_self e back).append_left front
    refine h.quiet hc (by rw [hx]; exact fun _ => rfl) rfl ?_ hsub.countP_le ?_
    · rw [hflight, hx]
      intro entry hentry
      rcases List.mem_cons.1 hentry with rfl | hentry
      · exact .inr (decide_eq_true rfl)
      · exact .inl hentry
    · exact Nat.add_le_add_right hsub.length_le _

theorem Limited.run (h : Limited limit past s.mailbox) (requests : List (Request α)) :
    Limited limit (past ++ (s.run requests).1) (s.run requests).2.mailbox := by
  induction requests generalizing past s with
  | nil =>
    rw [Session.run, List.append_nil]
    exact h
  | cons request rest ih =>
    have hserve := h.motion (effect_serve h.coherent request).1
      (x := ⟨s.clock, request, (s.serve request).1⟩) (motion_serve s request)
    have hrest := ih hserve
    rw [List.append_assoc] at hrest
    rw [Session.run_cons]
    exact hrest

end Limited

/-- How far the limit bounds the available events. -/
structure Bounded (limit : UInt64) (history : List (Exchange α)) (s : Session α) : Prop where
  /-- The events that have not been handed out since they were accepted are within the limit. -/
  new : newCount history s.mailbox.available ≤ limit.toNat
  total : s.mailbox.stats.available ≤ limit.toNat + s.mailbox.stats.returned
  /-- A request has an event accepted only where there is room. -/
  next : ∀ request e,
    Exchange.happening ⟨s.clock, request, (s.serve request).1⟩ = .accepted e →
      s.mailbox.stats.available < limit.toNat

/-- In every run of a mailbox with a limit, only events that have come back exceed it. -/
theorem bounded_run {settings : QueueSettings} {clock : Clock} {limit : UInt64} {s : Session α}
    (h : Session.create settings clock = .ok s) (hlimit : settings.queueLimit = some limit)
    (requests : List (Request α)) : Bounded limit (s.run requests).1 (s.run requests).2 := by
  have hstart : Limited limit [] s.mailbox := by
    obtain ⟨loop, rfl⟩ := eq_of_sessionCreate h
    exact ⟨coherent_empty settings loop, hlimit, List.forall_mem_nil _, Nat.zero_le _,
      Nat.zero_le _⟩
  have hlimited := hstart.run requests
  rw [List.nil_append] at hlimited
  refine ⟨hlimited.new, hlimited.total, ?_⟩
  intro request e haccepted
  have hmotion := motion_serve (s.run requests).2 request
  rw [haccepted] at hmotion
  cases hmotion with
  | accepted _ room => exact hlimited.lt_of_room room

/-- Settings with room for one event. -/
def single : QueueSettings := { ackTimeoutMs := 1000, queueLimit := some 1 }

/-- One event is in flight and a second one takes its place; a third one is turned away. -/
theorem bounded_run_single :
    ∃ (s : Session Nat) (r : List (Exchange Nat) × Session Nat),
      Session.create single ⟨⟨0⟩, 0⟩ = .ok s ∧ single.queueLimit = some 1 ∧
        s.run [.post (.ofNat 7) ⟨"Order"⟩ 1 none, .takeAny, .post (.ofNat 8) ⟨"Order"⟩ 2 none,
          .post (.ofNat 9) ⟨"Order"⟩ 3 none] = r ∧
        (r.2.mailbox.stats.available, r.2.mailbox.stats.dropped) = (1, 1) ∧ Bounded 1 r.1 r.2 := by
  refine ⟨_, _, rfl, rfl, rfl, ?_, @bounded_run Nat single ⟨⟨0⟩, 0⟩ 1 _ rfl rfl _⟩
  decide +kernel

/-- The limit does not bound the available events: when the first event is overdue, it returns
though another one has taken its place. -/
theorem overfull_run :
    ∃ s : Session Nat, Session.create single ⟨⟨0⟩, 0⟩ = .ok s ∧ single.queueLimit = some 1 ∧
      (s.run [.post (.ofNat 7) ⟨"Order"⟩ 1 none, .takeAny, .post (.ofNat 8) ⟨"Order"⟩ 2 none,
        .pass 1000000000, .returnOverdue]).2.mailbox.stats.available = 2 := by
  refine ⟨_, rfl, rfl, ?_⟩
  decide +kernel

end Courier.Mailbox
