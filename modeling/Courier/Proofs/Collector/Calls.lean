import Courier.Proofs.Collector.Thresholds

/-!
# The calls of a cycle

A sink has a credit that bounds what it emits. This module forgets about the credit: a `Conduct` is
whatever a sink may do in its calls, and a cycle is a chain of calls that need not come to an end.

> `Conduct.of_turn`: the calls of a sink are those of its conduct.

> `Conduct.calls_turn`: what one call does, whatever the sink emits in it.
-/

namespace Courier.Collector

variable {α σ : Type}

/-- What a sink does in its calls. -/
structure Conduct (α σ : Type) where
  judge : σ → α → Sink.Response α σ Sink.Verdict
  take : σ → List α → Sink.Response α σ Sink.Outcome
  idle : σ → Sink.Response α σ Sink.Outcome

namespace Conduct

/-- The conduct of a sink with a credit. -/
def of (S : Sink α σ) : Conduct α σ := ⟨S.judge, S.take, S.idle⟩

variable (K : Conduct α σ)

/-- Has the sink judge an item that has left the backlog. -/
def judgement (now : Instant) (c : Collector α σ) (item : α) : Turn α σ :=
  let response := K.judge c.sink item
  let (_, c) := { c with sink := response.next }.obeyAll response.commands
  match response.outcome with
  | .keep => .again (c.stageItem item)
  | .discard => .again (c.rejectItem item)
  | .panic => .ended false (c.note (.filterPanicked now item))

/-- Hands the staged batch to the sink. -/
def delivery (now : Instant) (c : Collector α σ) : Turn α σ :=
  let batch := c.staged
  let response := K.take c.sink batch
  let (replies, c) := { c with sink := response.next }.obeyAll response.commands
  let c := c.note (.flushed now batch replies response.outcome)
  match response.outcome with
  | .ok =>
    if c.batchSize ≤ batch.length then .again c.delivered else .ended true c.delivered
  | .error | .panic => .ended false c

/-- Tells the sink that there is nothing to hand over. -/
def idling (now : Instant) (c : Collector α σ) : Turn α σ :=
  let response := K.idle c.sink
  let (replies, c) := { c with sink := response.next }.obeyAll response.commands
  .ended (response.outcome != .panic) (c.note (.idled now replies response.outcome))

/-- Calls the sink once. -/
def turn (now : Instant) (c : Collector α σ) : Turn α σ :=
  match c.nextItem? with
  | some (item, backlog) => K.judgement now { c with backlog } item
  | none => if c.staged.isEmpty then K.idling now c else K.delivery now c

/-- The calls of a sink are those of its conduct. -/
theorem of_turn (S : Sink α σ) (now : Instant) (c : Collector α σ) :
    (of S).turn now c = Collector.turn S now c := rfl

end Conduct

/-! ## One call -/

/-- What a call leaves in which the sink has made `offers`, and that is noted in `entry` behind
them. -/
structure Noted (c d : Collector α σ) (offers : List (Entry α)) (entry : Entry α)
    (staged backlog : List α) : Prop where
  settings : d.settings = c.settings
  offered : ∀ offer ∈ offers, offer.isOffer = true
  journal : d.journal = entry :: (offers ++ c.journal)
  staged : d.staged = staged
  backlog : d.backlog.items = backlog ++ collect Entry.taken offers

/-- What one call of the sink does. -/
inductive Calls (now : Instant) (c : Collector α σ) : Turn α σ → Prop where
  | kept {d : Collector α σ} {offers : List (Entry α)} (item : α) (rest : List α)
      (room : c.staged.length < c.batchSize) (next : c.backlog.items = item :: rest)
      (noted : Noted c d offers (.kept item) (c.staged ++ [item]) rest) : Calls now c (.again d)
  | filtered {d : Collector α σ} {offers : List (Entry α)} (item : α) (rest : List α)
      (room : c.staged.length < c.batchSize) (next : c.backlog.items = item :: rest)
      (noted : Noted c d offers (.filtered item) c.staged rest) : Calls now c (.again d)
  | panicked {d : Collector α σ} {offers : List (Entry α)} (item : α) (rest : List α)
      (room : c.staged.length < c.batchSize) (next : c.backlog.items = item :: rest)
      (noted : Noted c d offers (.filterPanicked now item) c.staged rest) :
      Calls now c (.ended false d)
  /-- The sink takes a full batch. -/
  | full {d : Collector α σ} {offers : List (Entry α)} (replies : List Reply)
      (full : c.batchSize ≤ c.staged.length)
      (noted : Noted c d offers (.flushed now c.staged replies .ok) [] c.backlog.items) :
      Calls now c (.again d)
  /-- The sink takes the last batch. -/
  | last {d : Collector α σ} {offers : List (Entry α)} (replies : List Reply)
      (staged : c.staged ≠ []) (room : c.staged.length < c.batchSize) (next : c.backlog.items = [])
      (noted : Noted c d offers (.flushed now c.staged replies .ok) [] []) :
      Calls now c (.ended true d)
  /-- The sink does not take a batch. -/
  | failed {d : Collector α σ} {offers : List (Entry α)} (replies : List Reply)
      (outcome : Sink.Outcome) (fault : outcome ≠ .ok) (staged : c.staged ≠ [])
      (next : c.staged.length < c.batchSize → c.backlog.items = [])
      (noted : Noted c d offers (.flushed now c.staged replies outcome) c.staged
        c.backlog.items) : Calls now c (.ended false d)
  /-- The sink hears that there is nothing to take. -/
  | idled {d : Collector α σ} {offers : List (Entry α)} (replies : List Reply)
      (outcome : Sink.Outcome) (staged : c.staged = []) (next : c.backlog.items = [])
      (noted : Noted c d offers (.idled now replies outcome) [] []) :
      Calls now c (.ended (outcome != .panic) d)

/-- The commands of a call leave offers, and change nothing else that is noted here. -/
theorem noted_obeyAll (c : Collector α σ) (next : σ) (commands : List (Sink.Command α))
    {d : Collector α σ} (hd : ({ c with sink := next }.obeyAll commands).2 = d) :
    ∃ offers, d.settings = c.settings ∧ d.staged = c.staged ∧
      (∀ offer ∈ offers, offer.isOffer = true) ∧ d.journal = offers ++ c.journal ∧
      d.backlog.items = c.backlog.items ++ collect Entry.taken offers := by
  subst hd
  have hkept := kept_obeyAll { c with sink := next } commands
  obtain ⟨offers, hjournal, hoffers, hbacklog⟩ := offered_obeyAll { c with sink := next } commands
  exact ⟨offers, hkept.settings, hkept.staged, hoffers, hjournal, hbacklog⟩

namespace Conduct

variable (K : Conduct α σ) {now : Instant} {c : Collector α σ}

/-- A judgement ends with the item staged, rejected or lost. -/
theorem calls_judgement {item : α} {backlog : Backlog α}
    (hnext : c.nextItem? = some (item, backlog)) :
    Calls now c (K.judgement now { c with backlog } item) := by
  obtain ⟨hroom, hitems, -⟩ := nextItem?_eq_some hnext
  obtain ⟨offers, hsettings, hstaged, hoffers, hjournal, hbacklog⟩ :=
    noted_obeyAll { c with backlog } (K.judge c.sink item).next (K.judge c.sink item).commands rfl
  unfold judgement
  dsimp only
  split
  next =>
    exact .kept item backlog.items hroom hitems
      ⟨hsettings, hoffers, congrArg _ hjournal, congrArg (· ++ [item]) hstaged, hbacklog⟩
  next =>
    exact .filtered item backlog.items hroom hitems
      ⟨hsettings, hoffers, congrArg _ hjournal, hstaged, hbacklog⟩
  next =>
    exact .panicked item backlog.items hroom hitems
      ⟨hsettings, hoffers, congrArg _ hjournal, hstaged, hbacklog⟩

/-- A batch is taken or not, and the cycle goes on only after a full one. -/
theorem calls_delivery (hnext : c.nextItem? = none) (hstaged : c.staged ≠ []) :
    Calls now c (K.delivery now c) := by
  obtain ⟨offers, hsettings, hsame, hoffers, hjournal, hbacklog⟩ :=
    noted_obeyAll c (K.take c.sink c.staged).next (K.take c.sink c.staged).commands rfl
  unfold delivery
  dsimp only
  -- From here on only the answers to the commands, and the collector after them, matter.
  generalize ({ c with sink := (K.take c.sink c.staged).next }.obeyAll
    (K.take c.sink c.staged).commands) = called at hsettings hsame hjournal hbacklog ⊢
  obtain ⟨replies, e⟩ := called
  dsimp only at hsettings hsame hjournal hbacklog ⊢
  have hsize (outcome : Sink.Outcome) :
      (e.note (.flushed now c.staged replies outcome)).batchSize = c.batchSize :=
    congrArg (fun settings : BatchSettings => settings.batchSizeLimit.toNat) hsettings
  split
  next houtcome =>
    rw [hsize, houtcome]
    split
    next hfull =>
      exact .full replies hfull ⟨hsettings, hoffers, congrArg _ hjournal, rfl, hbacklog⟩
    next hnot =>
      have hroom := Nat.lt_of_not_le hnot
      have hempty := backlog_of_nextItem?_eq_none hnext hroom
      rw [hempty] at hbacklog
      exact .last replies hstaged hroom hempty
        ⟨hsettings, hoffers, congrArg _ hjournal, rfl, hbacklog⟩
  next houtcome =>
    rw [houtcome]
    exact .failed replies .error nofun hstaged (backlog_of_nextItem?_eq_none hnext)
      ⟨hsettings, hoffers, congrArg _ hjournal, hsame, hbacklog⟩
  next houtcome =>
    rw [houtcome]
    exact .failed replies .panic nofun hstaged (backlog_of_nextItem?_eq_none hnext)
      ⟨hsettings, hoffers, congrArg _ hjournal, hsame, hbacklog⟩

/-- With nothing to take, the sink is told so, and the cycle ends. -/
theorem calls_idling (hnext : c.nextItem? = none) (hstaged : c.staged = []) :
    Calls now c (K.idling now c) := by
  obtain ⟨offers, hsettings, hsame, hoffers, hjournal, hbacklog⟩ :=
    noted_obeyAll c (K.idle c.sink).next (K.idle c.sink).commands rfl
  have hroom : c.staged.length < c.batchSize := by
    rw [hstaged]
    exact BatchSettings.Valid.batchSizeLimit_pos c.valid
  have hempty := backlog_of_nextItem?_eq_none hnext hroom
  rw [hempty] at hbacklog
  exact .idled _ _ hstaged hempty
    ⟨hsettings, hoffers, congrArg _ hjournal, hsame.trans hstaged, hbacklog⟩

/-- What one call of the sink does, whatever it emits in it. -/
theorem calls_turn (now : Instant) (c : Collector α σ) : Calls now c (K.turn now c) := by
  unfold turn
  split
  next item backlog hnext => exact K.calls_judgement hnext
  next hnext =>
    split
    next hempty => exact K.calls_idling hnext (List.isEmpty_iff.1 hempty)
    next hne => exact K.calls_delivery hnext fun hnil => hne (List.isEmpty_iff.2 hnil)

end Conduct

end Courier.Collector
