import Courier.Proofs.Broker.Dispatch
import Courier.Proofs.Mailbox.Kinds

/-!
# Two ways to the handlers

An event can be published, or posted to the mailbox, taken from there and dispatched. Both ways
complete the properties of the event, the second one erases the kind of the payload and recovers it,
and in the end the same handlers do the same.

> `post_of_receptive`, `take_of_receptive`: what a receptive mailbox accepts can be taken from it at
> once, and comes out as it went in.

> `dispatchNext_unacknowledged`: a dispatch leaves the event in flight, whatever the handlers do.

> `two_ways`: publishing and the way through the mailbox bring the same calls.
-/

namespace Courier

variable {α ι : Type}

/-! ## Completed properties -/

/-- The properties `q` are those of `p`, completed for an event of a kind: what is there stays, and
only a missing time and a missing name of the kind are filled in. -/
structure Event.Properties.Completed (kind : Event.Kind) (nowMs : Nat) (p q : Event.Properties) :
    Prop where
  id : q.id = p.id
  undated : p.createdAtMs = 0 → q.createdAtMs = nowMs
  dated : p.createdAtMs ≠ 0 → q.createdAtMs = p.createdAtMs
  traceId : q.traceId = p.traceId
  source : q.source = p.source
  unnamed : p.kindName = none → q.kindName = some kind.name
  named : ∀ name, p.kindName = some name → q.kindName = some name
  headers : q.headers = p.headers

theorem Event.Properties.completed_complete (p : Event.Properties) (kind : Event.Kind)
    (nowMs : Nat) : Completed kind nowMs p (p.complete kind nowMs) where
  id := rfl
  undated h := if_pos h
  dated h := if_neg h
  traceId := rfl
  source := rfl
  unnamed h := by rw [complete, h]; rfl
  named name h := by rw [complete, h]; rfl
  headers := rfl

/-! ## Through the mailbox -/

namespace Mailbox

/-- The mailbox accepts an event with this identifier, and no available event of this kind stands
before it. -/
structure Receptive (m : Mailbox α) (id : Event.Id) (kind : Event.Kind) : Prop where
  running : m.disposed = false
  room : m.isFull = false
  free : id ∉ m.tracked
  first : ∀ e ∈ m.available, e.kind ≠ kind

variable {m : Mailbox α}

/-- The mailbox once it has accepted an event. -/
def holding (m : Mailbox α) (e : Event α) : Mailbox α :=
  { m with
    available := m.available ++ [e]
    tracked := e.id :: m.tracked
    accepted := m.accepted + 1 }

theorem post_of_receptive {clock : Clock} {fresh : Event.Id} {kind : Event.Kind} {data : α}
    {supplied : Option Event.Properties}
    (h : m.Receptive (posted clock fresh kind data supplied).id kind) :
    m.post clock fresh kind data supplied =
      (.ok (some (posted clock fresh kind data supplied).id),
        m.holding (posted clock fresh kind data supplied)) := by
  have hrunning : ¬ m.disposed = true := Bool.eq_false_iff.1 h.running
  have hroom : ¬ m.isFull = true := Bool.eq_false_iff.1 h.room
  have hfree : (postedProperties clock fresh kind supplied).id ∉ m.tracked := h.free
  unfold post
  rw [if_neg hrunning]
  dsimp only
  rw [if_neg hfree, if_neg hroom]
  rfl

/-- What has just been accepted is the first event of its kind, and the others stay. -/
theorem take_of_receptive {e : Event α} (h : m.Receptive e.id e.kind) (now : Instant) :
    (m.holding e).take e.kind now =
      (some ⟨e, rfl⟩,
        { m with tracked := e.id :: m.tracked, accepted := m.accepted + 1 }.track e now) := by
  have hfront : ∀ other ∈ m.available, decide (other.kind = e.kind) = false :=
    fun other hother => decide_eq_false (h.first other hother)
  have hkind : decide (e.kind = e.kind) = true := decide_eq_true rfl
  obtain ⟨hfind, herase⟩ := find?_and_eraseP_append hfront hkind []
  rw [take_eq_some rfl hfind]
  dsimp only [holding]
  rw [herase, List.append_nil]

end Mailbox

namespace Broker

/-! ## Dispatches without an acknowledgement -/

/-- The broker once the oldest event of a kind has been taken. -/
def taking (b : Broker α ι) (kind : Event.Kind) : Broker α ι :=
  { b with inbox := { b.inbox with
      mailbox := (b.inbox.mailbox.take kind b.inbox.clock.monotonic).2 } }

/-- Unless the caller wishes for an acknowledgement and every handler has succeeded, a dispatch does
nothing to the mailbox but to take the event. -/
theorem dispatchNext_unacknowledged {b : Broker α ι} {kind : Event.Kind}
    {e : Event.OfKind α kind}
    (htake : (b.inbox.mailbox.take kind b.inbox.clock.monotonic).1 = some e) {acknowledge : Bool}
    (h : acknowledge = true → ∀ report ∈ (b.dispatch e.1).2, report.allSucceeded = false) :
    b.dispatchNext kind acknowledge =
      ((b.dispatch e.1).1, .ofReport false (b.dispatch e.1).2, b.taking kind) := by
  unfold dispatchNext taking
  unfold dispatch at h ⊢
  rcases hresult : b.inbox.mailbox.take kind b.inbox.clock.monotonic with ⟨_ | e', mailbox⟩
  · rw [hresult] at htake
    cases htake
  · rw [hresult] at htake
    cases htake
    dsimp only
    rcases hrun : runHandlers (b.subscriptions.handlers e.1.kind) e.1.data e.1.properties with
      ⟨calls, _ | report⟩
    · rfl
    · rw [hrun] at h
      have hnot : ¬ (acknowledge = true ∧ report.allSucceeded = true) := by
        rintro ⟨hwish, hall⟩
        rw [h hwish report rfl] at hall
        cases hall
      dsimp only
      rw [if_neg hnot]
      rfl

/-! ## Both ways -/

/-- What becomes of an event on both ways: it is published with properties `q`, or it is posted to
`b`, which becomes `b₁`, and taken from there, which leaves `b₂`. -/
structure EitherWay (b : Broker α ι) (kind : Event.Kind) (data : α) (p q : Event.Properties)
    (calls : List (Call α ι)) (report : Option Report) (b₁ b₂ : Broker α ι) : Prop where
  /-- The handlers are called with completed properties. -/
  completed : p.Completed kind b.inbox.clock.nowMillis q
  complete : Complete (b.subscriptions.handlers kind) data q calls report
  /-- Publishing brings the calls and leaves the broker as it is, with its mailbox. The answer is
  what the report of a dispatch says. -/
  published : ∀ fresh, b.serve (.publish fresh kind data (some p)) =
    (calls, .published (report.map Report.handled), b)
  posted : ∀ fresh, b.serve (.inbox (.post fresh kind data (some p))) =
    ([], .inbox (.posted (.ok (some p.id))), b₁)
  taken : b₁.serve (.inbox (.take kind)) = ([], .inbox (.taken (some ⟨q, kind, data⟩)), b₂)
  /-- The dispatch of what was taken brings the same calls. -/
  dispatched : b₂.dispatch ⟨q, kind, data⟩ = (calls, report)
  panicked : ∀ fresh, (b.serve (.publish fresh kind data (some p))).2.1 = .published none ↔
    (b₂.dispatch ⟨q, kind, data⟩).2 = none
  /-- Between the post and the dispatch nothing has changed but that the event is in flight. -/
  inFlight : b₂ = { b with inbox := { b.inbox with mailbox :=
    { b.inbox.mailbox with
      inFlight := (p.id,
        { event := ⟨q, kind, data⟩
          takenAt := b.inbox.clock.monotonic
          deadline := b.inbox.clock.monotonic.after b.inbox.mailbox.settings.ackTimeout }) ::
        b.inbox.mailbox.inFlight.filter (·.1 ≠ p.id)
      tracked := p.id :: b.inbox.mailbox.tracked
      accepted := b.inbox.mailbox.accepted + 1 } } }
  /-- To take and dispatch it at one go is the same, and leaves it in flight as well: only a caller
  who wishes so acknowledges it, and only if every handler has succeeded. -/
  unacknowledged : ∀ acknowledge : Bool,
    (acknowledge = true → ∀ r ∈ report, r.allSucceeded = false) →
    b₁.serve (.dispatchNext kind acknowledge) = (calls, .dispatched (.ofReport false report), b₂)

/-- An event that the mailbox accepts, and of whose kind it has no other, reaches the same handlers
in the same way whether it is published or goes through the mailbox. -/
theorem exists_eitherWay {b : Broker α ι} {kind : Event.Kind} {p : Event.Properties}
    (h : b.inbox.mailbox.Receptive p.id kind) (data : α) :
    ∃ q calls report b₁ b₂, EitherWay b kind data p q calls report b₁ b₂ := by
  let q := p.complete kind b.inbox.clock.nowMillis
  let e : Event α := ⟨q, kind, data⟩
  let run := runHandlers (b.subscriptions.handlers kind) data q
  let b₁ : Broker α ι := { b with inbox := { b.inbox with mailbox := b.inbox.mailbox.holding e } }
  have hpublish (fresh : Event.Id) : b.serve (.publish fresh kind data (some p)) =
      (run.1, .published (run.2.map Report.handled), b) := rfl
  have hpost (fresh : Event.Id) :
      b.inbox.mailbox.post b.inbox.clock fresh kind data (some p) =
        (.ok (some p.id), b.inbox.mailbox.holding e) := Mailbox.post_of_receptive h
  have htake := Mailbox.take_of_receptive (e := e) h b.inbox.clock.monotonic
  refine ⟨q, run.1, run.2, b₁, b₁.taking kind, p.completed_complete kind _,
    complete_runHandlers _ data q, hpublish, fun fresh => ?_, ?_, rfl, fun fresh => ?_, ?_, ?_⟩
  · rw [serve, Mailbox.Session.serve, hpost]
  · rw [serve, Mailbox.Session.serve, htake]
    rw [taking, htake]
    rfl
  · rw [hpublish]
    show Reply.published (run.2.map Report.handled) = _ ↔ run.2 = none
    rw [Reply.published.injEq, Option.map_eq_none_iff]
  · rw [taking, htake]
    rfl
  · intro acknowledge hfailed
    rw [serve, dispatchNext_unacknowledged (congrArg Prod.fst htake) hfailed]
    rfl

/-- The two ways to the handlers of a broker. -/
structure TwoWays (b : Broker α ι) : Prop where
  agree : ∀ kind data p, b.inbox.mailbox.Receptive p.id kind →
    ∃ q calls report b₁ b₂, EitherWay b kind data p q calls report b₁ b₂
  /-- To publish an event, any event, leaves the broker as it is. -/
  published : ∀ fresh kind data supplied, (b.serve (.publish fresh kind data supplied)).2.2 = b
  /-- To take an event and dispatch it is no more than to take it, whatever the handlers do. -/
  dispatched : ∀ kind,
    (b.serve (.dispatchNext kind false)).2.2 = (b.serve (.inbox (.take kind))).2.2

/-- In every state of a broker, publishing an event and sending it through the mailbox agree. -/
theorem two_ways (b : Broker α ι) : TwoWays b where
  agree _ data _ h := exists_eitherWay h data
  published _ _ _ _ := rfl
  dispatched kind := by
    rcases b.inbox.mailbox.take_cases kind b.inbox.clock.monotonic with
      ⟨-, htake⟩ | ⟨e, mailbox, htake, -⟩
    · rw [serve, dispatchNext_of_none (congrArg Prod.fst htake), serve, Mailbox.Session.serve,
        htake]
    · rw [serve, dispatchNext_unacknowledged (congrArg Prod.fst htake) Bool.noConfusion]
      rfl

/-- The mailbox holds a refund and can take an order. Three handlers have subscribed to orders; one
of them panics in the second round. -/
theorem two_ways_panicking :
    let refund : Event Nat := ⟨.create (.ofNat 8) 5, ⟨"Refund"⟩, 1⟩
    let mailbox : Mailbox Nat :=
      { settings := {}, available := [refund], tracked := [.ofNat 8], accepted := 1 }
    let handlers : List (Event.Kind × Handler Nat Nat) :=
      [(⟨"Order"⟩, .fixed 1 ⟨1, .ok⟩), (⟨"Refund"⟩, .fixed 2 ⟨0, .ok⟩),
        (⟨"Order"⟩, .fixed 3 ⟨0, .error⟩), (⟨"Order"⟩, .fixed 4 ⟨1, .panic⟩)]
    let b : Broker Nat Nat := ⟨⟨mailbox, ⟨⟨0⟩, 7000000⟩, none⟩, ⟨handlers⟩⟩
    let p := (Event.Properties.create (.ofNat 9) 0).withHeader "attempt" (.natural 2)
    b.inbox.mailbox.Receptive p.id ⟨"Order"⟩ ∧
      ∃ q calls b₁ b₂, EitherWay b ⟨"Order"⟩ 30 p q calls none b₁ b₂ ∧ q.createdAtMs = 7 ∧
        calls.map (fun
          | .suspended label _ => (label, "suspended")
          | .handled label _ _ => (label, "handled")) =
          [(1, "suspended"), (3, "handled"), (4, "suspended"), (1, "handled"), (4, "handled")] := by
  intro refund mailbox handlers b p
  have hreceptive : b.inbox.mailbox.Receptive p.id ⟨"Order"⟩ :=
    ⟨rfl, rfl, by decide, by decide⟩
  obtain ⟨q, calls, report, b₁, b₂, h⟩ := (two_ways b).agree ⟨"Order"⟩ 30 p hreceptive
  have hcalls : calls = (b.serve (.publish p.id ⟨"Order"⟩ 30 (some p))).1 :=
    (congrArg Prod.fst (h.published p.id)).symm
  have hmem : .fixed 4 ⟨1, .panic⟩ ∈ b.subscriptions.handlers ⟨"Order"⟩ := by
    simp [b, handlers, Subscriptions.handlers]
  obtain ⟨rfl, -⟩ := h.complete.panicked ⟨_, hmem, rfl⟩
  refine ⟨hreceptive, q, calls, b₁, b₂, h, (h.completed.undated rfl).trans (by decide), ?_⟩
  rw [hcalls]
  cbv

end Broker
end Courier
