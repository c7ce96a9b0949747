import Courier.Broker.Basic
import Courier.Proofs.Broker.Rounds
import Mathlib.Data.List.DropRight

/-!
# Which handlers an event reaches

An event reaches the handlers that have subscribed to its kind since all handlers of that kind were
last removed: `subscribed` reads them off the requests, and `handlers_after` finds them in the
subscriptions. What those handlers then do is `Complete`.

> `dispatched_run`: at every point of a run, an event that is published, and one that is
> dispatched, is brought to exactly those handlers, and all of them handle it, unless one panics.
-/

namespace Courier

variable {α ι : Type}

/-! ## Subscriptions -/

namespace Subscriptions

/-- A handler that subscribes comes behind those of its kind. -/
theorem handlers_subscribe (s : Subscriptions α ι) (kind kind' : Event.Kind) (h : Handler α ι) :
    (s.subscribe kind h).handlers kind' =
      s.handlers kind' ++ if kind = kind' then [h] else [] := by
  unfold handlers subscribe
  rw [List.filter_append, List.map_append]
  by_cases hkind : kind = kind'
  · simp [hkind]
  · simp [hkind]

/-- Whoever removes the handlers of a kind leaves the others. -/
theorem handlers_unsubscribeAll (s : Subscriptions α ι) (kind kind' : Event.Kind) :
    (s.unsubscribeAll kind).2.handlers kind' = if kind = kind' then [] else s.handlers kind' := by
  unfold handlers unsubscribeAll
  rw [List.filter_filter]
  split
  next hkind => subst hkind; simp
  next hkind =>
    congr 1
    refine List.filter_congr fun entry _ => ?_
    by_cases hentry : entry.1 = kind'
    · simp [hentry, Ne.symm hkind]
    · simp [hentry]

end Subscriptions

namespace Broker

/-! ## Requests that change the subscriptions -/

/-- The handler that a request subscribes to a kind. -/
def Request.subscriber? (kind : Event.Kind) : Request α ι → Option (Handler α ι)
  | .subscribe kind' handler => if kind' = kind then some handler else none
  | _ => none

/-- Whether a request removes all handlers of a kind. -/
def Request.unsubscribes (kind : Event.Kind) : Request α ι → Bool
  | .unsubscribeAll kind' => kind' = kind
  | _ => false

/-- The handlers that requests have subscribed to a kind since all its handlers were last
removed. -/
def subscribed (kind : Event.Kind) (requests : List (Request α ι)) : List (Handler α ι) :=
  (requests.rtakeWhile (!·.unsubscribes kind)).filterMap (Request.subscriber? kind)

/-- The last request removes the handlers of its kind, or adds one to them. -/
theorem subscribed_concat (kind : Event.Kind) (requests : List (Request α ι))
    (request : Request α ι) :
    subscribed kind (requests ++ [request]) =
      if request.unsubscribes kind then []
      else subscribed kind requests ++ (request.subscriber? kind).toList := by
  unfold subscribed
  rw [List.rtakeWhile_concat]
  cases request.unsubscribes kind with
  | true => rfl
  | false =>
    show (requests.rtakeWhile (!·.unsubscribes kind) ++ [request]).filterMap _ = _ ++ _
    rw [List.filterMap_append, List.filterMap_cons]
    cases request.subscriber? kind <;> rfl

/-- The broker after a list of requests. -/
def after (b : Broker α ι) (requests : List (Request α ι)) : Broker α ι :=
  requests.foldl (fun b request => (b.serve request).2.2) b

/-- To dispatch an event leaves the handlers as they are. -/
theorem dispatchNext_subscriptions (b : Broker α ι) (kind : Event.Kind) (acknowledge : Bool) :
    (b.dispatchNext kind acknowledge).2.2.subscriptions = b.subscriptions := by
  unfold dispatchNext
  split
  · rfl
  · dsimp only
    split
    · rfl
    · split <;> rfl

/-- A request removes the handlers of a kind, or adds one to them. -/
theorem handlers_serve (b : Broker α ι) (request : Request α ι) (kind : Event.Kind) :
    (b.serve request).2.2.subscriptions.handlers kind =
      if request.unsubscribes kind then []
      else b.subscriptions.handlers kind ++ (request.subscriber? kind).toList := by
  cases request with
  | subscribe kind' handler =>
    refine (b.subscriptions.handlers_subscribe kind' kind handler).trans ?_
    by_cases hkind : kind' = kind <;> simp [Request.unsubscribes, Request.subscriber?, hkind]
  | unsubscribeAll kind' =>
    refine (b.subscriptions.handlers_unsubscribeAll kind' kind).trans ?_
    simp [Request.unsubscribes, Request.subscriber?]
  | dispatchNext kind' acknowledge =>
    refine (congrArg (Subscriptions.handlers · kind)
      (b.dispatchNext_subscriptions kind' acknowledge)).trans ?_
    exact (List.append_nil _).symm
  | handlerCount | publish | inbox => exact (List.append_nil _).symm

/-- The subscriptions hold those handlers. -/
theorem handlers_after (inbox : Mailbox.Session α) (requests : List (Request α ι))
    (kind : Event.Kind) :
    (({ inbox } : Broker α ι).after requests).subscriptions.handlers kind =
      subscribed kind requests := by
  -- From the end of the requests, since the last removal decides.
  induction requests using List.reverseRecOn with
  | nil => rfl
  | append_singleton requests request ih =>
    unfold after at ih ⊢
    rw [List.foldl_append, subscribed_concat, ← ih]
    exact handlers_serve _ request kind

/-! ## Events -/

/-- What comes of an event that is brought to handlers: what they do, and a report. -/
structure Complete (handlers : List (Handler α ι)) (data : α) (properties : Event.Properties)
    (calls : List (Call α ι)) (report : Option Report) : Prop where
  /-- Without a panic, every handler does all that it does by itself, once. -/
  once : (∀ h ∈ handlers, (h.plan data properties).outcome ≠ .panic) →
    calls.Perm (handlers.flatMap (actions data properties))
  /-- What one handler does, it does in order. -/
  ordered : (∀ h ∈ handlers, (h.plan data properties).outcome ≠ .panic) →
    ∀ h ∈ handlers, (actions data properties h).Sublist calls
  /-- The report counts the handlers, and those that have ended with an error. -/
  counted : (∀ h ∈ handlers, (h.plan data properties).outcome ≠ .panic) →
    report = some
      { handlers := handlers.length
        failed := handlers.countP fun h => (h.plan data properties).outcome = .error }
  /-- With or without a panic, no handler does anything but that. -/
  within : calls <+: inRounds (handlers.map (actions data properties))
  /-- After a panic there is no report. Last comes what a handler that panics does. -/
  panicked : (∃ h ∈ handlers, (h.plan data properties).outcome = .panic) →
    report = none ∧ ∃ h ∈ handlers, (h.plan data properties).outcome = .panic ∧
      [.handled h.label data properties] <:+ calls
  /-- If a handler that panics ended in another way, the handlers would do the same first. -/
  spared : ∀ before h after outcome, handlers = before ++ h :: after →
    (h.plan data properties).outcome = .panic →
    calls <+: (runHandlers (before ++ h.ending outcome :: after) data properties).1

/-- The handlers of an event do all that they should with it. -/
theorem complete_runHandlers (handlers : List (Handler α ι)) (data : α)
    (properties : Event.Properties) :
    Complete handlers data properties (runHandlers handlers data properties).1
      (runHandlers handlers data properties).2 where
  once h := by
    rw [runHandlers_calm h, List.flatMap_def]
    exact perm_inRounds _
  ordered h handler hhandler := by
    rw [runHandlers_calm h]
    exact sublist_inRounds (List.mem_map_of_mem hhandler)
  counted h := by rw [runHandlers_calm h]
  within := runHandlers_prefix handlers
  panicked := runHandlers_panic
  spared before h after outcome hhandlers hpanic := by
    subst hhandlers
    exact runHandlers_ending hpanic outcome

/-- What the caller learns of an event that was dispatched. -/
def Dispatched.ofReport (acknowledged : Bool) : Option Report → Dispatched
  | none => .panicked
  | some report => .done report acknowledged

/-- Without an event of the kind there is nothing to dispatch. -/
theorem dispatchNext_of_none {b : Broker α ι} {kind : Event.Kind}
    (h : (b.inbox.mailbox.take kind b.inbox.clock.monotonic).1 = none) (acknowledge : Bool) :
    b.dispatchNext kind acknowledge = ([], .nothing, b) := by
  unfold dispatchNext
  split
  · rfl
  next e mailbox htake => rw [htake] at h; cases h

/-- An event that is taken goes to its handlers. -/
theorem dispatchNext_of_some {b : Broker α ι} {kind : Event.Kind} {e : Event.OfKind α kind}
    (h : (b.inbox.mailbox.take kind b.inbox.clock.monotonic).1 = some e) (acknowledge : Bool) :
    (b.dispatchNext kind acknowledge).1 = (b.dispatch e.1).1 ∧
      ∃ acknowledged, (b.dispatchNext kind acknowledge).2.1 =
        .ofReport acknowledged (b.dispatch e.1).2 := by
  unfold dispatchNext
  split
  next mailbox htake => rw [htake] at h; cases h
  next e' mailbox htake =>
    rw [htake] at h
    cases h
    unfold dispatch
    dsimp only
    rcases runHandlers _ e.1.data e.1.properties with ⟨calls, _ | report⟩
    · exact ⟨rfl, false, rfl⟩
    · dsimp only
      split
      · exact ⟨rfl, _, rfl⟩
      · exact ⟨rfl, _, rfl⟩

/-- Events reach the handlers that they should, and all is done with them that should be. -/
structure Dispatches (handlers : Event.Kind → List (Handler α ι)) (b : Broker α ι) : Prop where
  /-- A published event reaches the handlers of its kind, with the properties it is published with,
  completed. Without a panic the answer is whether there is a handler. -/
  published : ∀ fresh kind data supplied, ∃ calls report,
    Complete (handlers kind) data (Mailbox.postedProperties b.inbox.clock fresh kind supplied)
      calls report ∧
    b.serve (.publish fresh kind data supplied) =
      (calls, .published (report.map fun _ => decide (handlers kind ≠ [])), b)
  /-- An event that is dispatched reaches the handlers of its kind. -/
  dispatched : ∀ e : Event α, Complete (handlers e.kind) e.data e.properties
    (b.dispatch e).1 (b.dispatch e).2
  /-- So does an event from the mailbox. -/
  next : ∀ kind acknowledge, ∀ e : Event.OfKind α kind,
    (b.inbox.mailbox.take kind b.inbox.clock.monotonic).1 = some e →
    ∃ calls report acknowledged, Complete (handlers kind) e.1.data e.1.properties calls report ∧
      (b.serve (.dispatchNext kind acknowledge)).1 = calls ∧
      (b.serve (.dispatchNext kind acknowledge)).2.1 =
        .dispatched (.ofReport acknowledged report)
  /-- Without an event in the mailbox no handler does anything. -/
  nothing : ∀ kind acknowledge,
    (b.inbox.mailbox.take kind b.inbox.clock.monotonic).1 = none →
    b.serve (.dispatchNext kind acknowledge) = ([], .dispatched .nothing, b)

/-- Whether an event is handled is whether there is a handler, unless one panics. -/
theorem runHandlers_handled (handlers : List (Handler α ι)) (data : α)
    (properties : Event.Properties) :
    (runHandlers handlers data properties).2.map Report.handled =
      (runHandlers handlers data properties).2.map fun _ => decide (handlers ≠ []) := by
  unfold runHandlers
  dsimp only
  rw [Option.map_map, Option.map_map]
  congr 1
  funext failed
  exact decide_eq_decide.2 List.length_pos_iff

/-- A broker dispatches to the handlers that it has. -/
theorem dispatches (b : Broker α ι) : Dispatches b.subscriptions.handlers b where
  published fresh kind data supplied := by
    refine ⟨_, _, complete_runHandlers _ _ _, ?_⟩
    rw [← runHandlers_handled]
    rfl
  dispatched e := complete_runHandlers _ _ _
  next kind acknowledge e h := by
    obtain ⟨hcalls, acknowledged, hreply⟩ := dispatchNext_of_some h acknowledge
    refine ⟨_, _, acknowledged, ?_, hcalls, congrArg Reply.dispatched hreply⟩
    have hcomplete :=
      complete_runHandlers (b.subscriptions.handlers kind) e.1.data e.1.properties
    unfold dispatch
    rwa [e.2]
  nothing kind acknowledge h := by
    simp only [serve, dispatchNext_of_none h]

/-- At every point of a run, events reach the handlers that have subscribed to their kind since all
handlers of that kind were last removed. -/
theorem dispatched_run (inbox : Mailbox.Session α) (requests : List (Request α ι)) :
    Dispatches (subscribed · requests) (({ inbox } : Broker α ι).after requests) := by
  have h := dispatches (({ inbox } : Broker α ι).after requests)
  rwa [funext (handlers_after inbox requests)] at h

end Broker
end Courier
