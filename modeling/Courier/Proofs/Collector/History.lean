import Courier.Proofs.Collector.Transcript

/-!
# The history of a collector

A collector is seen from two sides: items come from outside, and are answered, and the sink is
called. The history of a run lists what happens on both sides, in order: each item with its answer,
each call of the sink with what it is called with, what the sink commands during the call and is
answered, and how the call ends, and what is given up after failures. It is read off the requests
and the sink; the journal of the collector has no part in it.

> `Chronicle.run`: what holds of single calls, cycles and offers holds of whole runs.

> `spoken_run`: in the history the sink does what it does in the states that it goes through.

> `offers_run`: the items from outside have the answers that the requests have had.

> `written_run`: the journal notes the acts of the history, and no others.
-/

namespace Courier.Collector

variable {α σ : Type}

/-! ## Acts -/

/-- A command of the sink, and the answer to it. -/
abbrev Said (α : Type) := Sink.Command α × Reply

/-- Something that happens in a run. A call of the sink comes with what the sink has said in it. -/
inductive Act (α : Type) where
  /-- An item comes from outside. -/
  | offered (item : α) (answer : Except Failure Bool)
  /-- The sink judges an item. -/
  | judged (instant : Instant) (item : α) (said : List (Said α)) (verdict : Sink.Verdict)
  /-- The sink is handed a batch. -/
  | handed (instant : Instant) (batch : List α) (said : List (Said α)) (outcome : Sink.Outcome)
  /-- The sink hears that there is nothing to take. -/
  | idled (instant : Instant) (said : List (Said α)) (outcome : Sink.Outcome)
  /-- The staged batch is given up. -/
  | batchGivenUp (items : List α)
  /-- The backlog is given up. -/
  | backlogGivenUp (items : List α)

/-- The item that a command emits, if the answer is that it was taken on. -/
def Said.accepted? : Said α → Option α
  | (.emit item, .emitted (some (.ok true))) => some item
  | _ => none

namespace Act

/-- What the sink says in an act. -/
def said : Act α → List (Said α)
  | .judged _ _ said _ => said
  | .handed _ _ said _ => said
  | .idled _ said _ => said
  | _ => []

/-- The items that are answered for as taken on, from outside or in a call of the sink. -/
def accepted : Act α → List α
  | .offered item (.ok true) => [item]
  | act => act.said.filterMap Said.accepted?

/-- The item of a judgement, if it ends with this verdict. -/
def judgedAs (verdict : Sink.Verdict) : Act α → List α
  | .judged _ item _ v => if v = verdict then [item] else []
  | _ => []

/-- The batch that the sink takes. -/
def delivered : Act α → List α
  | .handed _ batch _ .ok => batch
  | _ => []

/-- The items that are given up. -/
def givenUp : Act α → List α
  | .batchGivenUp items => items
  | .backlogGivenUp items => items
  | _ => []

/-- Whether the sink fails to take a batch, or panics. -/
def isFault : Act α → Bool
  | .judged _ _ _ verdict => verdict = .panic
  | .handed _ _ _ outcome => outcome ≠ .ok
  | .idled _ _ outcome => outcome = .panic
  | _ => false

/-- The item that comes from outside, and the answer. -/
def offer? : Act α → Option (α × Except Failure Bool)
  | .offered item answer => some (item, answer)
  | _ => none

end Act

/-! ## The history of a run -/

/-- The next call of the sink. -/
def nextAct (S : Sink α σ) (now : Instant) (c : Collector α σ) : Act α :=
  let said := (nextCall S c).2.zip ((nextCall S c).1.obeyAll (nextCall S c).2).1
  match c.nextItem? with
  | some (item, _) => .judged now item said (S.judge c.sink item).outcome
  | none =>
    if c.staged.isEmpty then .idled now said (S.idle c.sink).outcome
    else .handed now c.staged said (S.take c.sink c.staged).outcome

/-- The calls of the sink until the cycle is over. -/
def callsOfWork (S : Sink α σ) (now : Instant) (c : Collector α σ) : List (Act α) :=
  match _h : turn S now c with
  | .again d => nextAct S now c :: callsOfWork S now d
  | .ended _ _ => [nextAct S now c]
termination_by load S c
decreasing_by exact load_turn_lt _h

/-- The failures since the last delivery when the calls of a cycle are over, in which there was a
failure or not. -/
def failuresAtEnd (ok : Bool) (c : Collector α σ) : UInt32 :=
  if ok then c.failures else c.pacing.failed.failures

/-- What is given up at the end of a cycle: the staged batch and the backlog, each if its threshold
is reached. -/
def givenUpAfter (failures : UInt32) (c : Collector α σ) : List (Act α) :=
  (if c.settings.backoff.dropBatchAfter ≤ failures ∧ c.staged ≠ []
    then [.batchGivenUp c.staged] else []) ++
  if c.settings.backoff.dropQueueAfter ≤ failures then [.backlogGivenUp c.backlog.items] else []

/-- What happens in a cycle. -/
def Start.history (S : Sink α σ) (start : Start α σ) : List (Act α) :=
  let began := start.collector.note (.cycleBegan start.instant start.final)
  let (ok, c) := work S start.instant began
  callsOfWork S start.instant began ++ givenUpAfter (failuresAtEnd ok c) c

namespace Session

/-- The item of a request, with the answer of the collector that it comes to. -/
def offered (s : Session α σ) : Request α → List (Act α)
  | .emit item => if s.dropped then [] else [.offered item (s.collector.offer item).1]
  | _ => []

/-- What happens in a run. -/
def history (S : Sink α σ) (s : Session α σ) : List (Request α) → List (Act α)
  | [] => []
  | request :: rest =>
    s.offered request ++ (s.startsInServe S request).flatMap (Start.history S) ++
      history S (s.serve S request).2 rest

end Session

/-! ## Chronicles -/

section Chronicles

variable {S : Sink α σ}

/-- What can be told of a collector before some acts, the acts, and the collector after them. -/
structure Chronicle (S : Sink α σ) (R : Collector α σ → List (Act α) → Collector α σ → Prop) :
    Prop where
  append : ∀ {c d e : Collector α σ} {acts more : List (Act α)}, R c acts d → R d more e →
    R c (acts ++ more) e
  outside : ∀ (c : Collector α σ) (stage : Stage) (alarm : Alarm) (unreachable : Bool),
    R c [] { c with stage, alarm, unreachable }
  offer : ∀ (c : Collector α σ) (item : α), R c [.offered item (c.offer item).1] (c.offer item).2
  cycle : ∀ start : Start α σ,
    R start.collector (start.history S) (start.collector.cycle S start.instant start.final)

/-- A call after which the cycle goes on is followed by those of the rest. -/
theorem callsOfWork_of_again {now : Instant} {c d : Collector α σ}
    (h : turn S now c = .again d) :
    callsOfWork S now c = nextAct S now c :: callsOfWork S now d := by
  rw [callsOfWork]
  split
  next e he => rw [h] at he; cases he; rfl
  next he => rw [h] at he; cases he

/-- A call that ends the cycle is the last one. -/
theorem callsOfWork_of_ended {now : Instant} {c d : Collector α σ} {ok : Bool}
    (h : turn S now c = .ended ok d) : callsOfWork S now c = [nextAct S now c] := by
  rw [callsOfWork]
  split
  next he => rw [h] at he; cases he
  next => rfl

namespace Chronicle

variable {R : Collector α σ → List (Act α) → Collector α σ → Prop}

/-- What can be told of the beginning of a cycle, of each call and of the end, can be told of the
cycle. -/
theorem of_calls
    (append : ∀ {c d e : Collector α σ} {acts more : List (Act α)}, R c acts d → R d more e →
      R c (acts ++ more) e)
    (began : ∀ (now : Instant) (final : Bool) (c : Collector α σ),
      R c [] (c.note (.cycleBegan now final)))
    (turn : ∀ (now : Instant) (c : Collector α σ), R c [nextAct S now c] (turn S now c).collector)
    (conclude : ∀ (ok : Bool) (c : Collector α σ),
      R c (givenUpAfter (failuresAtEnd ok c) c) (conclude ok c))
    (start : Start α σ) :
    R start.collector (start.history S) (start.collector.cycle S start.instant start.final) := by
  -- The calls are told one by one, as the recursion of `work` makes them.
  have hwork (now : Instant) (c : Collector α σ) : R c (callsOfWork S now c) (work S now c).2 := by
    fun_induction work S now c with
    | case1 c d hturn ih =>
      have hcall := turn now c
      rw [hturn] at hcall
      rw [callsOfWork_of_again hturn]
      exact append hcall ih
    | case2 c ok d hturn =>
      have hcall := turn now c
      rw [hturn] at hcall
      rw [callsOfWork_of_ended hturn]
      exact hcall
  exact append (append (began start.instant start.final _) (hwork _ _)) (conclude _ _)

variable (h : Chronicle S R)

include h

/-- What changes only the stage, the alarm and the reach of the sink adds nothing. -/
theorem around {c d : Collector α σ} {acts : List (Act α)} (hacts : R c acts d) (stage : Stage)
    (alarm : Alarm) (unreachable : Bool) : R c acts { d with stage, alarm, unreachable } := by
  have hmore := h.append hacts (h.outside d stage alarm unreachable)
  rwa [List.append_nil] at hmore

/-- To start the alarm adds nothing. -/
theorem schedule {c d : Collector α σ} {acts : List (Act α)} (hacts : R c acts d)
    (now : Instant) : R c acts (d.schedule now) := by
  unfold Collector.schedule
  split
  next => exact h.around hacts _ _ _
  next => exact hacts

/-- A tick adds what happens in its cycles, of which there are one or two. -/
theorem tick (now : Instant) (c : Collector α σ) :
    R c ((startsInTick S now c).flatMap (Start.history S)) (c.tick S now) := by
  have hbegin : R c [] c.beginTick := h.outside c _ _ _
  unfold startsInTick
  by_cases hclosed : c.stage = .closed
  · rw [tick_of_closed hclosed, if_pos hclosed, List.flatMap_nil]
    exact h.around hbegin _ c.beginTick.alarm.leave _
  · rw [tick_of_not_closed hclosed, if_neg hclosed]
    refine h.around (d := (c.beginTick.cycle S now false).afterCycle S now) ?_ _ (Alarm.leave _) _
    have hfirst := h.append hbegin (h.cycle ⟨now, false, c.beginTick⟩)
    dsimp only at hfirst ⊢
    rw [List.nil_append] at hfirst
    rw [List.flatMap_cons]
    -- The final cycle follows if the sink has disposed the collector in the first one.
    generalize c.beginTick.cycle S now false = d at hfirst
    unfold Collector.afterCycle
    cases hstage : d.stage with
    | closing =>
      rw [if_pos rfl, List.flatMap_singleton]
      exact h.append (h.around hfirst .closed _ _)
        (h.cycle ⟨now, true, { d with stage := .closed }⟩)
    | closed => rw [if_neg nofun, List.flatMap_nil, List.append_nil]; exact hfirst
    | fresh => rw [if_neg nofun, List.flatMap_nil, List.append_nil]; exact h.schedule hfirst now
    | active => rw [if_neg nofun, List.flatMap_nil, List.append_nil]; exact h.schedule hfirst now

/-- A disposal from outside adds the final cycle, if there has been an item. -/
theorem dispose (now : Instant) (c : Collector α σ) :
    R c ((startsInDispose now c).flatMap (Start.history S)) (c.dispose S now) := by
  have hrefl : R c [] c := h.outside c c.stage c.alarm c.unreachable
  have hshut : R c [] c.shut := h.outside c .closed c.alarm.dispose c.unreachable
  unfold startsInDispose Collector.dispose
  cases hstage : c.stage with
  | fresh => exact hshut
  | active =>
    have hcycle := h.append hshut (h.cycle ⟨now, true, c.shut⟩)
    rw [if_pos rfl, List.flatMap_singleton]
    exact hcycle
  | closing => exact hrefl
  | closed => exact hrefl

/-- While time passes the ticks add what happens in them. -/
theorem pass (s : Session α σ) (nanos : Nat) :
    R s.collector ((s.startsInPass S nanos).flatMap (Start.history S))
      (s.pass S nanos).collector := by
  -- The acts of the ticks so far lead from the collector at first to the one at the tick.
  let P (_ : Instant) (past : List (Act α)) (d : Collector α σ) : Prop := R s.collector past d
  have hstart : P s.clock.monotonic [] s.collector := h.outside _ _ _ _
  obtain ⟨_, hpass⟩ := (ticks S).firings_invariant (P := P)
    (fun now c => (startsInTick S now c).flatMap (Start.history S))
    (s.clock.advance nanos).monotonic (fun hpast _ _ => h.append hpast (h.tick _ _)) hstart
  rw [List.nil_append, ← List.flatMap_assoc] at hpass
  exact hpass

/-- An item from outside adds itself and the answer, whether or not the alarm has to be started for
it. -/
theorem emit (now : Instant) (c : Collector α σ) (item : α) :
    R c [.offered item (c.offer item).1] (c.emit now item).2 := by
  have hoffer := h.offer c item
  unfold Collector.emit
  split
  next =>
    dsimp only
    split
    next => exact h.around hoffer _ _ _
    next => exact h.around hoffer .active (c.offer item).2.alarm (c.offer item).2.unreachable
  next => exact hoffer

/-- A request adds the item that comes with it, and then what happens in the cycles that it makes
due. -/
theorem serve (s : Session α σ) (request : Request α) :
    R s.collector
      (s.offered request ++ (s.startsInServe S request).flatMap (Start.history S))
      (s.serve S request).2.collector := by
  have hrefl : R s.collector [] s.collector := h.outside _ _ _ _
  unfold Session.offered Session.startsInServe Session.serve
  cases request with
  | pass nanos => exact h.pass s nanos
  | emit item =>
    dsimp only
    split
    next => exact hrefl
    next =>
      have hpass :=
        h.pass { s with collector := (s.collector.emit s.clock.monotonic item).2 } 0
      exact h.append (h.emit s.clock.monotonic s.collector item) hpass
  | dispose =>
    dsimp only
    split
    next => exact hrefl
    next =>
      have hpass :=
        h.pass { s with collector := s.collector.dispose S s.clock.monotonic } 0
      rw [List.nil_append, List.flatMap_append]
      exact h.append (h.dispose s.clock.monotonic s.collector) hpass
  | drop =>
    dsimp only
    split
    next => exact hrefl
    next =>
      have hreach : R s.collector [] { s.collector with unreachable := true } :=
        h.outside _ _ _ true
      have hpass :=
        h.pass { s with
          collector := s.collector.drop S s.clock.monotonic
          dropped := true } 0
      rw [List.nil_append, List.flatMap_append]
      exact h.append (h.append hreach (h.dispose s.clock.monotonic _)) hpass

/-- What can be told of single cycles and offers can be told of a run. -/
theorem run (s : Session α σ) (requests : List (Request α)) :
    R s.collector (s.history S requests) (s.run S requests).2.collector := by
  induction requests generalizing s with
  | nil => exact h.outside _ _ _ _
  | cons request rest ih => exact h.append (h.serve s request) (ih (s.serve S request).2)

end Chronicle

end Chronicles

/-! ## The part of the sink -/

/-- Whether an act is a call of the sink. -/
def Act.isCall : Act α → Bool
  | .judged _ _ _ _ => true
  | .handed _ _ _ _ => true
  | .idled _ _ _ => true
  | _ => false

/-- From state `s` on the sink has commanded in its calls what the acts say, and has ended them as
they say, and now it is in state `t`. -/
inductive Spoken (S : Sink α σ) : σ → List (Act α) → σ → Prop where
  | nil (s : σ) : Spoken S s [] s
  | judged {s t : σ} {acts : List (Act α)} (instant : Instant) (item : α) (said : List (Said α))
      (commands : said.map Prod.fst = (S.judge s item).commands)
      (rest : Spoken S (S.judge s item).next acts t) :
      Spoken S s (.judged instant item said (S.judge s item).outcome :: acts) t
  | handed {s t : σ} {acts : List (Act α)} (instant : Instant) (batch : List α)
      (said : List (Said α)) (commands : said.map Prod.fst = (S.take s batch).commands)
      (rest : Spoken S (S.take s batch).next acts t) :
      Spoken S s (.handed instant batch said (S.take s batch).outcome :: acts) t
  | idled {s t : σ} {acts : List (Act α)} (instant : Instant) (said : List (Said α))
      (commands : said.map Prod.fst = (S.idle s).commands)
      (rest : Spoken S (S.idle s).next acts t) :
      Spoken S s (.idled instant said (S.idle s).outcome :: acts) t
  | aside {s t : σ} {acts : List (Act α)} (act : Act α) (uncalled : act.isCall = false)
      (rest : Spoken S s acts t) : Spoken S s (act :: acts) t

section Sinks

variable {S : Sink α σ}

/-- What the sink does in one part and then in another it does in both. -/
theorem Spoken.append {s t u : σ} {acts more : List (Act α)} (h : Spoken S s acts t)
    (hmore : Spoken S t more u) : Spoken S s (acts ++ more) u := by
  induction h with
  | nil => exact hmore
  | judged instant item said commands _ ih => exact .judged instant item said commands (ih hmore)
  | handed instant batch said commands _ ih =>
    exact .handed instant batch said commands (ih hmore)
  | idled instant said commands _ ih => exact .idled instant said commands (ih hmore)
  | aside act uncalled _ ih => exact .aside act uncalled (ih hmore)

/-- Where the sink is not called, its state stays as it is. -/
theorem Spoken.of_uncalled {acts : List (Act α)} (h : ∀ act ∈ acts, act.isCall = false) (s : σ) :
    Spoken S s acts s := by
  induction acts with
  | nil => exact .nil s
  | cons act acts ih =>
    obtain ⟨hact, hacts⟩ := List.forall_mem_cons.1 h
    exact .aside act hact (ih hacts)

/-- Every command has an answer. -/
theorem length_obeyAll (c : Collector α σ) (commands : List (Sink.Command α)) :
    (c.obeyAll commands).1.length = commands.length := by
  induction commands generalizing c with
  | nil => rfl
  | cons command rest ih => exact congrArg (· + 1) (ih _)

/-- What is given up has reached its threshold. -/
theorem mem_givenUpAfter {failures : UInt32} {c : Collector α σ} {act : Act α}
    (hact : act ∈ givenUpAfter failures c) :
    (∃ items, act = .batchGivenUp items ∧ c.settings.backoff.dropBatchAfter ≤ failures) ∨
      ∃ items, act = .backlogGivenUp items ∧ c.settings.backoff.dropQueueAfter ≤ failures := by
  unfold givenUpAfter at hact
  rcases List.mem_append.1 hact with h | h
  · split at h
    next hreached => exact .inl ⟨_, List.mem_singleton.1 h, hreached.1⟩
    next => cases h
  · split at h
    next hreached => exact .inr ⟨_, List.mem_singleton.1 h, hreached⟩
    next => cases h

/-- To give something up is no call of the sink. -/
theorem isCall_of_mem_givenUpAfter {failures : UInt32} {c : Collector α σ} {act : Act α}
    (hact : act ∈ givenUpAfter failures c) : act.isCall = false := by
  rcases mem_givenUpAfter hact with ⟨items, rfl, -⟩ | ⟨items, rfl, -⟩ <;> rfl

end Sinks

/-! ## The journal -/

/-- Whether an entry only marks that a cycle has begun, or has failed. -/
def Entry.isMark : Entry α → Bool
  | .cycleBegan _ _ => true
  | .cycleFailed => true
  | _ => false

/-- What a journal says, earliest first, without the marks of its cycles. -/
def written (journal : List (Entry α)) : List (Entry α) :=
  journal.reverse.filter fun entry => !entry.isMark

/-- What a collector notes of an item that it answers in this way. -/
def offerEntries (item : α) : Except Failure Bool → List (Entry α)
  | .ok true => [.accepted item]
  | .ok false => [.refused item]
  | .error _ => []

/-- What a collector notes of a command that it answers in this way. -/
def Said.entries : Said α → List (Entry α)
  | (.emit item, .emitted (some answer)) => offerEntries item answer
  | _ => []

/-- What a collector notes of a judgement. -/
def verdictEntry (instant : Instant) (item : α) : Sink.Verdict → Entry α
  | .keep => .kept item
  | .discard => .filtered item
  | .panic => .filterPanicked instant item

/-- What a collector notes of the items that are offered to it in an act. -/
def Act.offers : Act α → List (Entry α)
  | .offered item answer => offerEntries item answer
  | act => act.said.flatMap Said.entries

/-- What a collector notes of the end of a call, or when it gives items up. -/
def Act.outcome? : Act α → Option (Entry α)
  | .offered _ _ => none
  | .judged instant item _ verdict => some (verdictEntry instant item verdict)
  | .handed instant batch said outcome =>
    some (.flushed instant batch (said.map Prod.snd) outcome)
  | .idled instant said outcome => some (.idled instant (said.map Prod.snd) outcome)
  | .batchGivenUp items => some (.batchDropped items)
  | .backlogGivenUp items => some (.backlogDropped items)

/-- What a collector notes of an act. -/
def Act.entries (act : Act α) : List (Entry α) := act.offers ++ act.outcome?.toList

/-- What is noted of an item that is offered says whether it was taken on. -/
theorem isOffer_of_mem_offerEntries {item : α} {answer : Except Failure Bool} {entry : Entry α}
    (h : entry ∈ offerEntries item answer) : entry.isOffer = true := by
  unfold offerEntries at h
  split at h
  next => rw [List.mem_singleton.1 h]; rfl
  next => rw [List.mem_singleton.1 h]; rfl
  next => cases h

theorem isOffer_of_mem_saidEntries {x : Said α} {entry : Entry α} (h : entry ∈ x.entries) :
    entry.isOffer = true := by
  unfold Said.entries at h
  split at h
  next => exact isOffer_of_mem_offerEntries h
  next => cases h

/-- What is noted of offers are offers. -/
theorem isOffer_of_mem_offers {act : Act α} {entry : Entry α} (h : entry ∈ act.offers) :
    entry.isOffer = true := by
  unfold Act.offers at h
  split at h
  next => exact isOffer_of_mem_offerEntries h
  next =>
    obtain ⟨x, -, hx⟩ := List.mem_flatMap.1 h
    exact isOffer_of_mem_saidEntries hx

/-- What is noted later comes behind. -/
theorem written_append (later earlier : List (Entry α)) :
    written (later ++ earlier) = written earlier ++ written later := by
  unfold written
  rw [List.reverse_append, List.filter_append]

/-- A mark says nothing. -/
theorem written_of_isMark {entry : Entry α} (h : entry.isMark = true) (journal : List (Entry α)) :
    written (entry :: journal) = written journal := by
  unfold written
  rw [List.reverse_cons, List.filter_append, List.filter_cons, h]
  exact List.append_nil _

/-- Any other entry speaks for itself. -/
theorem written_cons {entry : Entry α} (h : entry.isMark = false) (journal : List (Entry α)) :
    written (entry :: journal) = written journal ++ [entry] := by
  unfold written
  rw [List.reverse_cons, List.filter_append, List.filter_cons, h]
  rfl

/-- An offer is noted with its answer. -/
theorem written_offer (c : Collector α σ) (item : α) :
    written (c.offer item).2.journal =
      written c.journal ++ offerEntries item (c.offer item).1 := by
  unfold offer Backlog.offer
  cases c.stage with
  | closing => exact (List.append_nil _).symm
  | closed => exact (List.append_nil _).symm
  | fresh => cases c.backlog.isFull <;> exact written_cons rfl _
  | active => cases c.backlog.isFull <;> exact written_cons rfl _

/-- A command is noted if it emits an item that reaches the collector. -/
theorem written_obey (c : Collector α σ) (command : Sink.Command α) :
    written (c.obey command).2.journal =
      written c.journal ++ Said.entries (command, (c.obey command).1) := by
  have hclose : c.requestClose.journal = c.journal := by
    unfold requestClose
    split <;> rfl
  unfold obey
  split
  next => cases command <;> exact (List.append_nil _).symm
  next =>
    cases command with
    | emit item => exact written_offer c item
    | dispose => exact (congrArg written hclose).trans (List.append_nil _).symm
    | stats => exact (List.append_nil _).symm

/-- Commands are noted one after the other. -/
theorem written_obeyAll (c : Collector α σ) (commands : List (Sink.Command α)) :
    written (c.obeyAll commands).2.journal = written c.journal ++
      (commands.zip (c.obeyAll commands).1).flatMap Said.entries := by
  induction commands generalizing c with
  | nil => exact (List.append_nil _).symm
  | cons command rest ih =>
    show written ((c.obey command).2.obeyAll rest).2.journal = _ ++ List.flatMap _
      ((command, (c.obey command).1) :: rest.zip ((c.obey command).2.obeyAll rest).1)
    rw [ih, written_obey, List.flatMap_cons, List.append_assoc]

/-- What is given up is noted, the batch before the backlog. -/
theorem written_dropped (c : Collector α σ) :
    written c.dropBatch.dropBacklog.journal =
      written c.journal ++ (givenUpAfter c.failures c).flatMap Act.entries := by
  have hbatch : written c.dropBatch.journal = written c.journal ++
      (if c.settings.backoff.dropBatchAfter ≤ c.failures ∧ c.staged ≠ []
        then [.batchGivenUp c.staged] else []).flatMap Act.entries := by
    unfold dropBatch
    split
    next h =>
      rw [if_pos ⟨of_decide_eq_true h.1, h.2⟩]
      exact written_cons rfl _
    next h =>
      rw [if_neg fun hdrop => h ⟨decide_eq_true hdrop.1, hdrop.2⟩]
      exact (List.append_nil _).symm
  have hsame : c.dropBatch.pacing = c.pacing ∧ c.dropBatch.backlog = c.backlog := by
    unfold dropBatch
    split <;> exact ⟨rfl, rfl⟩
  -- The backlog is given up by the count and the items from before the batch was.
  unfold givenUpAfter
  rw [List.flatMap_append, ← List.append_assoc, ← hbatch]
  unfold dropBacklog
  rw [hsame.1, hsame.2]
  split
  next h =>
    have hreached : c.settings.backoff.dropQueueAfter ≤ c.failures := of_decide_eq_true h
    rw [if_pos hreached]
    exact written_cons rfl _
  next h =>
    have hreached : ¬c.settings.backoff.dropQueueAfter ≤ c.failures :=
      fun hle => h (decide_eq_true hle)
    rw [if_neg hreached]
    exact (List.append_nil _).symm

/-- What is noted at the end of a cycle is what is given up. -/
theorem written_conclude (ok : Bool) (c : Collector α σ) :
    written (conclude ok c).journal =
      written c.journal ++ (givenUpAfter (failuresAtEnd ok c) c).flatMap Act.entries := by
  cases ok with
  | true => exact written_dropped c
  | false =>
    refine (written_dropped c.recordFailure).trans ?_
    rw [show written c.recordFailure.journal = written c.journal from written_of_isMark rfl _]
    rfl

/-! ## What a call shows -/

/-- Whether the sink takes a batch. -/
def Act.isDelivery : Act α → Bool
  | .handed _ _ _ .ok => true
  | _ => false

/-- The call `act` of the sink, seen from the collector that it turns into `t`. -/
structure Enacts (S : Sink α σ) (c : Collector α σ) (act : Act α) (t : Turn α σ) : Prop where
  settings : t.collector.settings = c.settings
  spoken : Spoken S c.sink [act] t.collector.sink
  written : written t.collector.journal = written c.journal ++ act.entries
  fault : act.isFault = t.hasFailed
  failures : t.collector.failures = if act.isDelivery then 0 else c.failures

section Calls

variable {S : Sink α σ}

/-- Commands of the sink are no failures. -/
theorem failures_obeyAll (c : Collector α σ) (commands : List (Sink.Command α)) :
    (c.obeyAll commands).2.failures = c.failures := by
  have hobey (c : Collector α σ) (command : Sink.Command α) :
      (c.obey command).2.failures = c.failures := by
    have hclose : c.requestClose.failures = c.failures := by
      unfold requestClose
      split <;> rfl
    unfold obey
    split
    next => cases command <;> rfl
    next =>
      cases command with
      | emit item =>
        exact offer_keeps (P := fun d : Collector α σ => d.failures = c.failures) rfl rfl rfl
      | dispose => exact hclose
      | stats => rfl
  induction commands generalizing c with
  | nil => rfl
  | cons command rest ih => exact (ih _).trans (hobey c command)

/-- What the commands of a call leave, if the sink had state `s` when they began. -/
structure Obeyed (c d : Collector α σ) (s : σ) (said : List (Said α)) : Prop where
  settings : d.settings = c.settings
  sink : d.sink = s
  failures : d.failures = c.failures
  written : written d.journal = written c.journal ++ said.flatMap Said.entries

/-- The commands of a call leave the collector as they have found it, except for what they have
emitted. -/
theorem obeyed_obeyAll (c : Collector α σ) (s : σ) (backlog : Backlog α)
    (commands : List (Sink.Command α)) :
    Obeyed c ({ c with sink := s, backlog }.obeyAll commands).2 s
      (commands.zip ({ c with sink := s, backlog }.obeyAll commands).1) := by
  have hkept := kept_obeyAll { c with sink := s, backlog } commands
  exact ⟨hkept.settings, hkept.sink, failures_obeyAll _ commands, written_obeyAll _ commands⟩

/-- What the sink has said are its commands. -/
theorem fst_said (c : Collector α σ) (commands : List (Sink.Command α)) :
    (commands.zip (c.obeyAll commands).1).map Prod.fst = commands :=
  List.map_fst_zip (Nat.le_of_eq (length_obeyAll c commands).symm)

/-- What it was told are the answers. -/
theorem snd_said (c : Collector α σ) (commands : List (Sink.Command α)) :
    (commands.zip (c.obeyAll commands).1).map Prod.snd = (c.obeyAll commands).1 :=
  List.map_snd_zip (Nat.le_of_eq (length_obeyAll c commands))

/-- A call ends with one entry behind those of its commands. -/
theorem Obeyed.enacts {c d : Collector α σ} {s : σ} {said : List (Said α)} {act : Act α}
    {t : Turn α σ} {entry : Entry α} (h : Obeyed c d s said) (hspoken : Spoken S c.sink [act] s)
    (hentries : act.entries = said.flatMap Said.entries ++ [entry])
    (hmark : entry.isMark = false) (hsettings : t.collector.settings = d.settings)
    (hsink : t.collector.sink = d.sink) (hjournal : t.collector.journal = entry :: d.journal)
    (hfault : act.isFault = t.hasFailed)
    (hfailures : t.collector.failures = if act.isDelivery then 0 else d.failures) :
    Enacts S c act t where
  settings := hsettings.trans h.settings
  spoken := by rw [hsink, h.sink]; exact hspoken
  written := by rw [hjournal, written_cons hmark, h.written, hentries, List.append_assoc]
  fault := hfault
  failures := by rw [hfailures, h.failures]

/-- A judgement is seen with the verdict of the sink, whatever that is. -/
theorem enacts_judge (S : Sink α σ) (now : Instant) (c : Collector α σ) (item : α)
    (backlog : Backlog α) :
    let response := S.judge c.sink item
    Enacts S c
      (.judged now item
        (response.commands.zip
          ({ c with backlog, sink := response.next }.obeyAll response.commands).1)
        response.outcome)
      (judge S now { c with backlog } item) := by
  intro response
  have hobeyed := obeyed_obeyAll c response.next backlog response.commands
  have hspoken : Spoken S c.sink [.judged now item _ response.outcome] response.next :=
    .judged now item _ (fst_said { c with backlog, sink := response.next } response.commands)
      (.nil _)
  unfold judge
  dsimp only
  -- From here on only the answers to the commands, and the collector after them, matter.
  generalize ({ c with backlog, sink := (S.judge c.sink item).next }.obeyAll
    (S.judge c.sink item).commands) = called at hobeyed hspoken ⊢
  obtain ⟨replies, d⟩ := called
  split
  next houtcome =>
    rw [show response.outcome = .keep from houtcome] at hspoken ⊢
    exact hobeyed.enacts hspoken rfl rfl rfl rfl rfl rfl rfl
  next houtcome =>
    rw [show response.outcome = .discard from houtcome] at hspoken ⊢
    exact hobeyed.enacts hspoken rfl rfl rfl rfl rfl rfl rfl
  next houtcome =>
    rw [show response.outcome = .panic from houtcome] at hspoken ⊢
    exact hobeyed.enacts hspoken rfl rfl rfl rfl rfl rfl rfl

/-- A batch is handed over as it was staged, and the sink takes it or not. -/
theorem enacts_deliver (S : Sink α σ) (now : Instant) (c : Collector α σ) :
    let response := S.take c.sink c.staged
    Enacts S c
      (.handed now c.staged
        (response.commands.zip ({ c with sink := response.next }.obeyAll response.commands).1)
        response.outcome)
      (deliver S now c) := by
  intro response
  have hobeyed := obeyed_obeyAll c response.next c.backlog response.commands
  have hspoken : Spoken S c.sink [.handed now c.staged _ response.outcome] response.next :=
    .handed now c.staged _ (fst_said { c with sink := response.next } response.commands) (.nil _)
  have hreplies := snd_said { c with sink := response.next } response.commands
  unfold deliver
  dsimp only
  generalize ({ c with sink := (S.take c.sink c.staged).next }.obeyAll
    (S.take c.sink c.staged).commands) = called at hobeyed hspoken hreplies ⊢
  obtain ⟨replies, d⟩ := called
  have hentries (outcome : Sink.Outcome) :
      (Act.handed now c.staged (response.commands.zip replies) outcome).entries =
        (response.commands.zip replies).flatMap Said.entries ++
          [.flushed now c.staged replies outcome] := by
    dsimp only at hreplies
    rw [Act.entries, Act.outcome?, hreplies]
    rfl
  split
  next houtcome =>
    rw [show response.outcome = .ok from houtcome] at hspoken ⊢
    split
    next => exact hobeyed.enacts hspoken (hentries .ok) rfl rfl rfl rfl rfl rfl
    next => exact hobeyed.enacts hspoken (hentries .ok) rfl rfl rfl rfl rfl rfl
  next houtcome =>
    rw [show response.outcome = .error from houtcome] at hspoken ⊢
    exact hobeyed.enacts hspoken (hentries .error) rfl rfl rfl rfl rfl rfl
  next houtcome =>
    rw [show response.outcome = .panic from houtcome] at hspoken ⊢
    exact hobeyed.enacts hspoken (hentries .panic) rfl rfl rfl rfl rfl rfl

/-- A call with nothing to take hands over nothing, and is at fault only if the sink panics. -/
theorem enacts_idle (S : Sink α σ) (now : Instant) (c : Collector α σ) :
    let response := S.idle c.sink
    Enacts S c
      (.idled now
        (response.commands.zip ({ c with sink := response.next }.obeyAll response.commands).1)
        response.outcome)
      (idle S now c) := by
  intro response
  have hobeyed := obeyed_obeyAll c response.next c.backlog response.commands
  have hreplies := snd_said { c with sink := response.next } response.commands
  refine hobeyed.enacts (.idled now _ (fst_said _ _) (.nil _)) ?_ rfl rfl rfl rfl ?_ rfl
  · rw [Act.entries, Act.outcome?, hreplies]
    rfl
  · show decide (response.outcome = .panic) = Turn.hasFailed (.ended (response.outcome != .panic) _)
    cases response.outcome <;> rfl

/-- A call of the sink shows as the next act. -/
theorem enacts_turn (S : Sink α σ) (now : Instant) (c : Collector α σ) :
    Enacts S c (nextAct S now c) (turn S now c) := by
  unfold turn nextAct nextCall
  cases c.nextItem? with
  | some next => exact enacts_judge S now c next.1 next.2
  | none =>
    dsimp only
    split
    next => exact enacts_idle S now c
    next => exact enacts_deliver S now c

end Calls

/-! ## Runs -/

section Runs

variable {S : Sink α σ}

/-- What the sink does in its calls can be told as a chronicle. -/
theorem spoken_chronicle (S : Sink α σ) :
    Chronicle S fun c acts d => Spoken S c.sink acts d.sink where
  append := Spoken.append
  outside c _ _ _ := .nil c.sink
  offer c item := .aside _ rfl (by rw [(kept_offer c item).sink]; exact .nil c.sink)
  cycle := by
    refine Chronicle.of_calls (R := fun c acts d => Spoken S c.sink acts d.sink) Spoken.append
      (fun _ _ c => .nil c.sink) (fun now c => (enacts_turn S now c).spoken) fun ok c => ?_
    rw [(concluded _ _).sink]
    exact .of_uncalled (fun _ => isCall_of_mem_givenUpAfter) c.sink

/-- The journal of `d` says what that of `c` said, and then what is noted of the acts. -/
def Written (c : Collector α σ) (acts : List (Act α)) (d : Collector α σ) : Prop :=
  written d.journal = written c.journal ++ acts.flatMap Act.entries

/-- A journal that is continued twice says the acts of both parts. -/
theorem Written.append {c d e : Collector α σ} {acts more : List (Act α)} (h : Written c acts d)
    (hmore : Written d more e) : Written c (acts ++ more) e := by
  unfold Written at h hmore ⊢
  rw [hmore, h, List.flatMap_append, List.append_assoc]

/-- What the journal says can be told as a chronicle. -/
theorem written_chronicle (S : Sink α σ) : Chronicle S Written where
  append := Written.append
  outside _ _ _ _ := (List.append_nil _).symm
  offer c item := by
    unfold Written
    rw [written_offer, List.flatMap_singleton]
    exact congrArg _ (List.append_nil _).symm
  cycle := by
    refine Chronicle.of_calls Written.append (fun now final c => ?_) (fun now c => ?_)
      written_conclude
    · exact (written_of_isMark rfl _).trans (List.append_nil _).symm
    · unfold Written
      rw [(enacts_turn S now c).written, List.flatMap_singleton]

/-- In the history of a run the sink does what it does in the states that it goes through. -/
theorem spoken_run (s : Session α σ) (requests : List (Request α)) :
    Spoken S s.collector.sink (s.history S requests) (s.run S requests).2.collector.sink :=
  (spoken_chronicle S).run s requests

/-- The journal notes the acts of a run, and no others. -/
theorem written_run (s : Session α σ) (requests : List (Request α)) :
    written (s.run S requests).2.collector.journal =
      written s.collector.journal ++ (s.history S requests).flatMap Act.entries :=
  (written_chronicle S).run s requests

/-- The item of a request that has come to the collector, and the answer. -/
def Request.offer? : Request α × Answer → Option (α × Except Failure Bool)
  | (.emit item, .emitted answer) => some (item, answer)
  | _ => none

/-- What happens until the cycle is over are calls of the sink. -/
theorem isCall_of_mem_callsOfWork {now : Instant} {c : Collector α σ} {act : Act α}
    (hact : act ∈ callsOfWork S now c) : act.isCall = true := by
  have hnext (c : Collector α σ) : (nextAct S now c).isCall = true := by
    unfold nextAct
    dsimp only
    split
    next => rfl
    next => split <;> rfl
  fun_induction work S now c with
  | case1 c d hturn ih =>
    rw [callsOfWork_of_again hturn] at hact
    rcases List.mem_cons.1 hact with rfl | hact
    · exact hnext c
    · exact ih hact
  | case2 c ok d hturn =>
    rw [callsOfWork_of_ended hturn] at hact
    rw [List.mem_singleton.1 hact]
    exact hnext c

/-- Within a cycle nothing comes from outside. -/
theorem offer?_of_mem_history {start : Start α σ} {act : Act α}
    (hact : act ∈ start.history S) : act.offer? = none := by
  rcases List.mem_append.1 hact with h | h
  · have hcall := isCall_of_mem_callsOfWork h
    cases act with
    | offered item answer => cases hcall
    | _ => rfl
  · rcases mem_givenUpAfter h with ⟨items, rfl, -⟩ | ⟨items, rfl, -⟩
    · rfl
    · rfl

/-- As long as the clock can show the time, the answer to an item is that of the collector. Else the
alarm could not be started, and the first item would be answered with that failure. -/
theorem offers_serve {s : Session α σ} (shown : s.clock.monotonic.Shown)
    (hfresh : s.collector.stage = .fresh → s.collector.alarm.disposing = false)
    (request : Request α) :
    (s.offered request).filterMap Act.offer? =
      (Request.offer? (request, (s.serve S request).1)).toList := by
  unfold Session.offered Session.serve
  cases request with
  | pass nanos => rfl
  | emit item =>
    dsimp only
    split
    next => rfl
    next =>
      rw [← (emit_eq_offer shown hfresh item).1]
      rfl
  | dispose => rfl
  | drop => rfl

/-- In the history of a run the items from outside have the answers that the requests have had. -/
theorem offers_run {settings : BatchSettings} {sink : σ} {clock : Clock} {first s : Session α σ}
    (h : Session.create settings sink clock = .ok first)
    (hsteps : Steps S (clock.monotonic, first.collector) (s.clock.monotonic, s.collector))
    (requests : List (Request α)) (shown : (s.run S requests).2.clock.monotonic.Shown) :
    (s.history S requests).filterMap Act.offer? =
      (requests.zip (s.run S requests).1).filterMap Request.offer? := by
  induction requests generalizing s with
  | nil => rfl
  | cons request rest ih =>
    -- The clock does not go back, so it could show the time of this request too.
    have hbefore := shown.of_le (monotonic_le_run (S := S) s (request :: rest))
    have hserve := offers_serve (S := S) hbefore (disposing_of_fresh h hsteps) request
    have hcycles : ((s.startsInServe S request).flatMap (Start.history S)).filterMap Act.offer? =
        [] := by
      refine List.filterMap_eq_nil_iff.2 fun act hact => ?_
      obtain ⟨start, -, hact⟩ := List.mem_flatMap.1 hact
      exact offer?_of_mem_history hact
    show ((s.offered request ++ _) ++ _).filterMap Act.offer? =
      ((request, (s.serve S request).1) :: rest.zip _).filterMap Request.offer?
    rw [List.filterMap_append, List.filterMap_append, hserve, hcycles, List.append_nil,
      ih (hsteps.trans (steps_serve s request)) shown, List.filterMap_cons]
    cases Request.offer? (request, (s.serve S request).1) <;> rfl

end Runs

end Courier.Collector
