import Courier.Proofs.Collector.Commands

/-!
# The end of a collector

A collector that has taken an item on ends with one final cycle: at once if it is disposed from
outside, and after the cycle of the tick if its sink disposes it there. From the disposal on it
takes nothing on, and after the final cycle nothing happens to it any more. A collector that is
disposed before its first item never calls its sink.

> `Within`: what a cycle can do to the stage, the alarm and the journal, whatever the sink does.

> `endsOnce_of_steps`: in every state that a new collector can reach, its end is one final cycle, or
> lies behind it.
-/

namespace Courier.Collector

variable {α σ : Type} {S : Sink α σ} {now : Instant}

/-! ## Refused commands -/

/-- An item that the sink emits is not taken on, and changes nothing. A collector that is being
dropped is out of reach, and any other one says that it is disposed. -/
def Asked.Refused (x : Asked α σ) : Prop :=
  ∀ item, x.command = .emit item → x.after = x.collector ∧
    x.reply = .emitted
      (if x.collector.unreachable then none else some (.error (.disposed .collector)))

/-- A disposed collector refuses what its sink emits. -/
theorem Asked.refused_of_disposed {x : Asked α σ} (h : x.collector.Disposed) : x.Refused := by
  intro item hcommand
  refine ⟨obey_of_disposed h _, ?_⟩
  unfold Asked.reply obey
  rw [hcommand]
  by_cases hreach : x.collector.unreachable = true
  · rw [if_pos hreach, if_pos hreach]
  · rw [if_neg hreach, if_neg hreach]
    dsimp only
    rw [offer_of_disposed h]

/-! ## Within a cycle -/

/-- How a collector stands within a cycle that it began as `was`, when its journal was `base`. -/
structure Within (was : Collector α σ) (base : List (Entry α)) (b : Bench α σ) : Prop where
  entries : ∃ entries, b.2.journal = entries ++ base ∧ ∀ entry ∈ entries,
    entry.isBeginning = false ∧ (was.Disposed → entry.isOffer = false)
  unreachable : b.2.unreachable = was.unreachable
  standing : b.2.stage = was.stage ∧ b.2.alarm = was.alarm ∨
    ¬was.Disposed ∧ b.2.stage = .closing ∧ b.2.alarm.disposing = true

section Within

variable {was c d : Collector α σ} {base : List (Entry α)} {hand hand' : Option α}

/-- An entry that begins no cycle leaves the collector within its cycle, if a disposed one notes no
offer. -/
theorem Within.note (h : Within was base (hand, c)) {entry : Entry α}
    (hjournal : d.journal = entry :: c.journal) (hbeginning : entry.isBeginning = false)
    (hoffer : was.Disposed → entry.isOffer = false) (hunreachable : d.unreachable = c.unreachable)
    (hstage : d.stage = c.stage) (halarm : d.alarm = c.alarm) : Within was base (hand', d) := by
  obtain ⟨⟨entries, hbase, hentries⟩, hreach, hstanding⟩ := h
  refine ⟨⟨entry :: entries, ?_, ?_⟩, hunreachable.trans hreach, ?_⟩
  · rw [hjournal, hbase, List.cons_append]
  · intro e he
    rcases List.mem_cons.1 he with rfl | he
    · exact ⟨hbeginning, hoffer⟩
    · exact hentries e he
  · dsimp only
    rw [hstage, halarm]
    exact hstanding

/-- A cycle of a disposed collector stays one. -/
theorem Within.disposed (h : Within was base (hand, c)) (hwas : was.Disposed) : c.Disposed := by
  rcases h.standing with ⟨hstage, -⟩ | ⟨hnot, -⟩
  · unfold Disposed
    rw [hstage]
    exact hwas
  · exact absurd hwas hnot

/-- No call of the sink leads out of the cycle. -/
theorem within_invariant (was : Collector α σ) (base : List (Entry α)) :
    CycleInvariant (Within was base) where
  move h hmove := by
    cases hmove with
    | advanced => exact ⟨h.entries, h.unreachable, h.standing⟩
    | accepted hand c item unended =>
      refine h.note rfl rfl (fun hwas => ?_) rfl rfl rfl
      exact absurd (h.disposed hwas) (not_disposed_of_unended unended)
    | refused hand c item unended =>
      refine h.note rfl rfl (fun hwas => ?_) rfl rfl rfl
      exact absurd (h.disposed hwas) (not_disposed_of_unended unended)
    | closing hand c unended =>
      refine ⟨h.entries, h.unreachable, .inr ⟨fun hwas => ?_, rfl, c.alarm.disposing_dispose⟩⟩
      exact not_disposed_of_unended unended (h.disposed hwas)
    | picked => exact ⟨h.entries, h.unreachable, h.standing⟩
    | kept c item => exact h.note rfl rfl (fun _ => rfl) rfl rfl rfl
    | rejected c item => exact h.note rfl rfl (fun _ => rfl) rfl rfl rfl
    | panicked c now item => exact h.note rfl rfl (fun _ => rfl) rfl rfl rfl
    | delivered c now replies => exact h.note rfl rfl (fun _ => rfl) rfl rfl rfl
    | undelivered c now replies outcome => exact h.note rfl rfl (fun _ => rfl) rfl rfl rfl
    | idled c now replies outcome => exact h.note rfl rfl (fun _ => rfl) rfl rfl rfl
  recordFailure h _ := h.note rfl rfl (fun _ => rfl) rfl rfl rfl
  dropBatch h := by
    unfold dropBatch
    split
    next => exact h.note rfl rfl (fun _ => rfl) rfl rfl rfl
    next => exact h
  dropBacklog h _ := by
    unfold dropBacklog
    split
    next => exact h.note rfl rfl (fun _ => rfl) rfl rfl rfl
    next => exact h
  takeStock h := ⟨h.entries, h.unreachable, h.standing⟩

/-- A collector is within the cycle that it has just begun. -/
theorem within_began (now : Instant) (final : Bool) (c : Collector α σ) :
    Within c (.cycleBegan now final :: c.journal) (none, c.note (.cycleBegan now final)) :=
  ⟨⟨[], rfl, List.forall_mem_nil _⟩, rfl, .inl ⟨rfl, rfl⟩⟩

/-- When a cycle is over the collector is still within it. -/
theorem within_cycle (S : Sink α σ) (now : Instant) (final : Bool) (c : Collector α σ) :
    Within c (.cycleBegan now final :: c.journal) (none, c.cycle S now final) :=
  (within_invariant c _).cycle S now final (within_began now final c)

end Within

/-! ## What the final cycle leaves -/

/-- Where the sink does not fail, the calls of a disposed collector go on until nothing is left. -/
theorem drained_of_turn {c d : Collector α σ} (hdisposed : c.Disposed)
    (h : turn S now c = .ended true d) : d.staged = [] ∧ d.backlog.items = [] := by
  obtain ⟨hstaged, -⟩ := settled_of_turn h
  refine ⟨hstaged, ?_⟩
  -- No item was left to judge before the last call, and its commands have brought none.
  obtain ⟨hnext, hroom⟩ := room_of_turn h
  obtain ⟨entry, hturn⟩ := turn_completes S now c
  have hcalled : afterCommands S c = (nextCall S c).1 := by
    refine obeyAll_of_disposed ?_ _
    unfold nextCall
    rw [hnext]
    exact hdisposed
  have hbacklog : (nextCall S c).1.backlog = c.backlog := by
    unfold nextCall
    rw [hnext]
  have hd := hturn.backlog
  rw [h, hcalled, hbacklog] at hd
  show d.backlog.items = []
  rw [show d.backlog = c.backlog from hd]
  exact backlog_of_nextItem?_eq_none hnext hroom

/-- So a cycle of a disposed collector in which the sink does not fail leaves nothing. -/
theorem drained_of_work {c : Collector α σ} (hdisposed : c.Disposed)
    (h : (work S now c).1 = true) :
    (work S now c).2.staged = [] ∧ (work S now c).2.backlog.items = [] := by
  obtain ⟨d, hd, hlast⟩ := exists_last_turn S now (P := Disposed)
    (fun {c d} hc hturn => by
      have hstage := (moves_turn S now c).stage hc
      rw [hturn] at hstage
      unfold Disposed
      rw [show d.stage = c.stage from hstage]
      exact hc)
    hdisposed
  rw [h] at hlast
  exact drained_of_turn hd hlast

/-- What is empty when the calls are over is empty when the cycle is over. -/
theorem emptied_conclude {c : Collector α σ} (hstaged : c.staged = [])
    (hbacklog : c.backlog.items = []) :
    (conclude true c).stats.queued = 0 ∧ (conclude true c).stats.staged = 0 := by
  have hbatch : c.dropBatch = c := by
    unfold dropBatch
    rw [if_neg fun hdrop => hdrop.2 hstaged]
  have hconclude : conclude true c = c.dropBacklog.takeStock := by
    show c.dropBatch.dropBacklog.takeStock = _
    rw [hbatch]
  rw [hconclude]
  unfold dropBacklog
  split
  next => simp [takeStock, stats, note, Backlog.clear, Backlog.size, hstaged]
  next => simp [takeStock, stats, Backlog.size, hstaged, hbacklog]

/-! ## After the end -/

/-- The collector has ended for good. -/
structure Shut (c : Collector α σ) : Prop where
  stage : c.stage = .closed
  disposing : c.alarm.disposing = true

theorem Shut.disposed {c : Collector α σ} (h : Shut c) : c.Disposed := .inr h.stage

/-- No cycle begins it anew. -/
theorem Shut.cycle {c : Collector α σ} (h : Shut c) (S : Sink α σ) (now : Instant) (final : Bool) :
    Shut (c.cycle S now final) := by
  rcases (within_cycle S now final c).standing with ⟨hstage, halarm⟩ | ⟨hnot, -⟩
  · exact ⟨hstage.trans h.stage, by rw [halarm, h.disposing]⟩
  · exact absurd h.disposed hnot

/-- Nothing happens to the collector any more, except that it may get out of reach: it takes no item
on, and its sink is never called again. -/
def Over (S : Sink α σ) (now : Instant) (c : Collector α σ) : Prop :=
  ∀ {later : Instant} {d : Collector α σ}, Steps S (now, c) (later, d) →
    d = { c with unreachable := d.unreachable } ∧
      ∀ item, d.emit later item = (.error (.disposed .collector), d)

/-- It takes no item on. -/
theorem Shut.emit {c : Collector α σ} (h : Shut c) (now : Instant) (item : α) :
    c.emit now item = (.error (.disposed .collector), c) := by
  unfold Collector.emit
  rw [h.stage]
  exact offer_of_disposed h.disposed item

/-- It can be disposed again, without effect. -/
theorem Shut.dispose {c : Collector α σ} (h : Shut c) (S : Sink α σ) (now : Instant) :
    c.dispose S now = c := by
  unfold Collector.dispose
  rw [h.stage]

/-- No tick is due any more. -/
theorem Shut.nextTick? {c : Collector α σ} (h : Shut c) : c.nextTick? = none := by
  unfold Collector.nextTick? Alarm.deadline?
  rw [if_pos h.disposing]

/-- So nothing happens to it. -/
theorem over_of_shut {c : Collector α σ} (h : Shut c) (S : Sink α σ) (now : Instant) :
    Over S now c := by
  intro later d hsteps
  obtain ⟨hshut, hsame⟩ := hsteps.keep
    (P := fun m => Shut m.2 ∧ m.2 = { c with unreachable := m.2.unreachable })
    (by
      rintro m m' ⟨hshut, hsame⟩ hstep
      cases hstep with
      | waited => exact ⟨hshut, hsame⟩
      | ticked e due =>
        rw [hshut.nextTick?] at due
        cases due
      | emitted now e item =>
        dsimp only
        rw [hshut.emit now item]
        exact ⟨hshut, hsame⟩
      | disposed now e =>
        dsimp only
        rw [hshut.dispose S now]
        exact ⟨hshut, hsame⟩
      | dropped now e =>
        have hunreachable : Shut { e with unreachable := true } := ⟨hshut.stage, hshut.disposing⟩
        unfold Collector.drop
        rw [hunreachable.dispose S now]
        refine ⟨hunreachable, ?_⟩
        dsimp only at hsame ⊢
        rw [hsame])
    ⟨h, rfl⟩
  exact ⟨hsame, hshut.emit later⟩

/-! ## The final cycle -/

/-- The collector as its disposal from outside begins. -/
def shut (c : Collector α σ) : Collector α σ :=
  { c with stage := .closed, alarm := c.alarm.dispose }

/-- The final cycle that turns `c` into `d`. -/
structure FinalCycle (S : Sink α σ) (now : Instant) (c d : Collector α σ) : Prop where
  /-- There is one cycle and no other, in which nothing is taken on. If the sink does not fail in
  it, it leaves nothing behind. -/
  once : ∃ entries, d.journal = entries ++ .cycleBegan now true :: c.journal ∧
    (∀ entry ∈ entries, entry.isBeginning = false ∧ entry.isOffer = false) ∧
    ((∀ entry ∈ entries, entry.isFault = false) → d.stats.queued = 0 ∧ d.stats.staged = 0)
  cycle : d = { c.cycle S now true with alarm := d.alarm }
  refused : ∀ x ∈ askedInCycle S now true c, x.Refused
  shut : Shut d
  after : Over S now d

/-- The last cycle of a collector that has ended is a final one. -/
theorem finalCycle_of_shut {c d : Collector α σ} (h : Shut c)
    (hd : d = { c.cycle S now true with alarm := d.alarm })
    (hdisposing : d.alarm.disposing = true) : FinalCycle S now c d := by
  have hcycle := h.cycle S now true
  have hshut : Shut d := ⟨by rw [hd]; exact hcycle.stage, hdisposing⟩
  refine ⟨?_, hd, ?_, hshut, over_of_shut hshut S now⟩
  · obtain ⟨⟨entries, hjournal, hentries⟩, -, -⟩ := within_cycle S now true c
    refine ⟨entries, by rw [hd]; exact hjournal, ?_, ?_⟩
    · intro entry hentry
      exact ⟨(hentries entry hentry).1, (hentries entry hentry).2 h.disposed⟩
    · intro hfaultless
      have hall : (c.cycle S now true).journal =
          (entries ++ [.cycleBegan now true]) ++ c.journal := by
        rw [List.append_assoc]
        exact hjournal
      have hwork : (work S now (c.note (.cycleBegan now true))).1 = true := by
        refine work_of_faultless hall ?_
        intro entry hentry
        rcases List.mem_append.1 hentry with he | he
        · exact hfaultless entry he
        · rw [List.mem_singleton.1 he]
          rfl
      obtain ⟨hstaged, hbacklog⟩ :=
        drained_of_work (c := c.note (.cycleBegan now true)) h.disposed hwork
      have hempty := emptied_conclude hstaged hbacklog
      rw [← cycle_of_work hwork] at hempty
      rw [hd]
      exact hempty
  · intro x hx
    obtain ⟨hand, hwithin⟩ := (within_invariant c _).asked (within_began now true c) x hx
    exact x.refused_of_disposed (hwithin.disposed h.disposed)

/-- A disposal from outside ends the collector before the final cycle. -/
theorem shut_shut (c : Collector α σ) : Shut c.shut := ⟨rfl, c.alarm.disposing_dispose⟩

/-- A disposal from outside is followed by the final cycle at once. -/
theorem finalCycle_dispose {c : Collector α σ} (h : c.stage = .active) (S : Sink α σ)
    (now : Instant) : FinalCycle S now c.shut (c.dispose S now) := by
  have hd : c.dispose S now = c.shut.cycle S now true := by
    unfold Collector.dispose shut
    rw [h]
  rw [hd]
  exact finalCycle_of_shut (shut_shut c) rfl ((shut_shut c).cycle S now true).disposing

/-- A tick of a collector that has not been disposed: its cycle, and the final cycle that follows
if the sink disposes the collector in it. -/
structure Ticked (S : Sink α σ) (now : Instant) (c : Collector α σ) : Prop where
  once : ∃ entries,
    (c.beginTick.cycle S now false).journal = entries ++ .cycleBegan now false :: c.journal ∧
      ∀ entry ∈ entries, entry.isBeginning = false
  refused : (askedInCycle S now false c.beginTick).Pairwise fun x y =>
    x.isDisposal = true → y.Refused
  disposed : (∃ x ∈ askedInCycle S now false c.beginTick, x.isDisposal = true) →
    FinalCycle S now { c.beginTick.cycle S now false with stage := .closed } (c.tick S now)
  undisposed : (∀ x ∈ askedInCycle S now false c.beginTick, x.isDisposal = false) →
    c.tick S now = { c.beginTick.cycle S now false with alarm := (c.tick S now).alarm } ∧
      (c.tick S now).stage = .active

/-- A tick of an active collector has one cycle, or two if the sink disposes it in the first. -/
theorem ticked_of_active {c : Collector α σ} (h : c.stage = .active)
    (hreach : c.unreachable = false) (S : Sink α σ) (now : Instant) : Ticked S now c := by
  have hunended : ¬c.Disposed := not_disposed_of_unended (.inr h)
  have hbegan : (c.beginTick.note (.cycleBegan now false)).unreachable = false := hreach
  obtain ⟨⟨entries, hjournal, hentries⟩, -, hstanding⟩ := within_cycle S now false c.beginTick
  -- The cycle leaves the collector active unless the sink asks for its disposal.
  have hiff : (c.beginTick.cycle S now false).Disposed ↔
      ∃ x ∈ askedInCycle S now false c.beginTick, x.isDisposal = true := by
    unfold Disposed
    rw [show (c.beginTick.cycle S now false).stage = _ from (concluded _ _).stage]
    refine (disposed_work_iff S now hbegan).trans ⟨?_, .inr⟩
    rintro (hdisposed | hasked)
    · exact absurd hdisposed hunended
    · exact hasked
  have htick := tick_of_not_closed (fun hclosed => hunended (.inr hclosed)) S now
  refine ⟨⟨entries, hjournal, fun entry hentry => (hentries entry hentry).1⟩, ?_, ?_, ?_⟩
  · refine (pairwise_askedInWork S now hbegan).imp ?_
    intro x y hxy hdisposal
    exact y.refused_of_disposed (hxy hdisposal)
  · intro hasked
    rcases hstanding with ⟨hstage, -⟩ | ⟨-, hclosing, hdisposing⟩
    · exact absurd (hiff.2 hasked) (not_disposed_of_unended (.inr (hstage.trans h)))
    · have hshut : Shut { c.beginTick.cycle S now false with stage := .closed } := ⟨rfl, hdisposing⟩
      rw [htick]
      unfold afterCycle
      rw [hclosing]
      exact finalCycle_of_shut hshut rfl (hshut.cycle S now true).disposing
  · intro hnone
    rcases hstanding with ⟨hstage, -⟩ | ⟨-, hclosing, -⟩
    · have hactive : (c.beginTick.cycle S now false).stage = .active := hstage.trans h
      rw [htick]
      unfold afterCycle
      rw [hactive]
      dsimp only
      unfold schedule
      split
      next => exact ⟨rfl, hactive⟩
      next => exact ⟨rfl, hactive⟩
    · obtain ⟨x, hx, hdisposal⟩ := hiff.1 (.inl hclosing)
      rw [hnone x hx] at hdisposal
      cases hdisposal

/-! ## Every state that can be reached -/

namespace Entry

/-- Whether a final cycle begins. -/
def isFinal : Entry α → Bool
  | .cycleBegan _ final => final
  | _ => false

/-- Only the beginning of a cycle begins the final one. -/
theorem isFinal_of_not_isBeginning {entry : Entry α} (h : entry.isBeginning = false) :
    entry.isFinal = false := by
  cases entry with
  | cycleBegan instant final => cases h
  | _ => rfl

end Entry

/-- How a collector stands while no call of its sink is under way, if it began as `first`. -/
structure Resting (first c : Collector α σ) : Prop where
  not_closing : c.stage ≠ .closing
  fresh : c.stage = .fresh → c = first
  active : c.stage = .active → c.unreachable = false ∧ ∀ entry ∈ c.journal, entry.isFinal = false
  closed : c.stage = .closed → Shut c

section Resting

variable {first c : Collector α σ}

/-- A collector that has ended rests. -/
theorem Shut.resting (h : Shut c) (first : Collector α σ) : Resting first c where
  not_closing hclosing := by rw [h.stage] at hclosing; cases hclosing
  fresh hfresh := by rw [h.stage] at hfresh; cases hfresh
  active hactive := by rw [h.stage] at hactive; cases hactive
  closed _ := h

/-- An active collector that its sink can reach rests, as long as there has been no final cycle. -/
theorem resting_of_active (h : c.stage = .active) (hreach : c.unreachable = false)
    (hfinal : ∀ entry ∈ c.journal, entry.isFinal = false) : Resting first c where
  not_closing hclosing := by rw [h] at hclosing; cases hclosing
  fresh hfresh := by rw [h] at hfresh; cases hfresh
  active _ := ⟨hreach, hfinal⟩
  closed hclosed := by rw [h] at hclosed; cases hclosed

/-- A tick of an active collector that rests leaves it resting, whatever the sink does in it. -/
theorem resting_tick (h : Resting first c) (hactive : c.stage = .active) (S : Sink α σ)
    (now : Instant) : Resting first (c.tick S now) := by
  obtain ⟨hreach, hfinal⟩ := h.active hactive
  obtain ⟨⟨entries, hjournal, hentries⟩, -, hdisposed, hundisposed⟩ :=
    ticked_of_active hactive hreach S now
  by_cases hasked : ∃ x ∈ askedInCycle S now false c.beginTick, x.isDisposal = true
  · exact (hdisposed hasked).shut.resting first
  · obtain ⟨htick, hstage⟩ := hundisposed fun x hx => by
      simpa using fun hdisposal => hasked ⟨x, hx, hdisposal⟩
    refine resting_of_active hstage ?_ ?_
    · rw [htick]
      exact (within_cycle S now false c.beginTick).unreachable.trans hreach
    · rw [htick]
      intro entry hentry
      rw [show _ = _ from hjournal] at hentry
      rcases List.mem_append.1 hentry with he | he
      · exact Entry.isFinal_of_not_isBeginning (hentries entry he)
      · rcases List.mem_cons.1 he with rfl | he
        · rfl
        · exact hfinal entry he

/-- A collector that takes an item on ticks from then on, if it did not before. -/
theorem resting_emit (h : c.stage = .fresh ∨ c.stage = .active) (hreach : c.unreachable = false)
    (hfinal : ∀ entry ∈ c.journal, entry.isFinal = false) (now : Instant) (item : α) :
    Resting first (c.emit now item).2 := by
  have hoffer : (c.offer item).2.unreachable = false :=
    (moves_offer none c item).unreachable.trans hreach
  have hjournal : ∀ entry ∈ (c.offer item).2.journal, entry.isFinal = false := by
    obtain ⟨offers, hoffers, hall, -⟩ := offered_offer c item
    rw [hoffers]
    intro entry hentry
    rcases List.mem_append.1 hentry with he | he
    · exact Entry.isFinal_of_not_isBeginning (Entry.isBeginning_of_isOffer (hall entry he))
    · exact hfinal entry he
  unfold Collector.emit
  rcases h with hstage | hstage
  · rw [hstage]
    dsimp only
    split
    next => exact resting_of_active rfl hoffer hjournal
    next => exact resting_of_active rfl hoffer hjournal
  · rw [hstage]
    exact resting_of_active ((stage_offer c item).trans hstage) hoffer hjournal

/-- A disposal from outside ends the collector for good. -/
theorem shut_dispose (hclosing : c.stage ≠ .closing) (hclosed : c.stage = .closed → Shut c)
    (S : Sink α σ) (now : Instant) : Shut (c.dispose S now) := by
  cases hstage : c.stage with
  | fresh =>
    unfold Collector.dispose
    rw [hstage]
    exact shut_shut c
  | active => exact (finalCycle_dispose hstage S now).shut
  | closing => exact absurd hstage hclosing
  | closed =>
    rw [(hclosed hstage).dispose S now]
    exact hclosed hstage

/-- Every step leads from a resting collector to a resting one. -/
theorem resting_step {m m' : Moment α σ} (hdue : first.nextTick? = none)
    (hreach : first.unreachable = false) (hjournal : first.journal = []) (h : Resting first m.2)
    (hstep : Step S m m') : Resting first m'.2 := by
  cases hstep with
  | waited => exact h
  | ticked c due =>
    cases hstage : c.stage with
    | fresh =>
      obtain rfl : c = first := h.fresh hstage
      rw [hdue] at due
      cases due
    | active => exact resting_tick h hstage S _
    | closing => exact absurd hstage h.not_closing
    | closed =>
      rw [(h.closed hstage).nextTick?] at due
      cases due
  | emitted now c item =>
    cases hstage : c.stage with
    | fresh =>
      obtain rfl : c = first := h.fresh hstage
      have hfinal : ∀ entry ∈ c.journal, entry.isFinal = false := by
        rw [hjournal]
        exact List.forall_mem_nil _
      exact resting_emit (.inl hstage) hreach hfinal now item
    | active => exact resting_emit (.inr hstage) (h.active hstage).1 (h.active hstage).2 now item
    | closing => exact absurd hstage h.not_closing
    | closed =>
      rw [(h.closed hstage).emit now item]
      exact h
  | disposed now c => exact (shut_dispose h.not_closing h.closed S now).resting first
  | dropped now c =>
    have hclosed : c.stage = .closed → Shut { c with unreachable := true } :=
      fun hstage => ⟨hstage, (h.closed hstage).disposing⟩
    exact (shut_dispose (c := { c with unreachable := true }) h.not_closing hclosed S now).resting
      first

/-- Every state that a new collector can reach is a resting one. -/
theorem resting_of_steps {settings : BatchSettings} {sink : σ} {clock : Clock} {s : Session α σ}
    (h : Session.create settings sink clock = .ok s)
    (hsteps : Steps S (clock.monotonic, s.collector) (now, c)) : Resting s.collector c := by
  obtain ⟨valid, rfl⟩ := Session.eq_of_create h
  exact hsteps.keep (P := fun m => Resting _ m.2) (resting_step rfl rfl rfl)
    ⟨nofun, fun _ => rfl, nofun, nofun⟩

end Resting

/-- The end of a collector, seen from a moment at which no call of its sink is under way: it has
not begun, or lies ahead, or is over. -/
structure EndsOnce (S : Sink α σ) (sink : σ) (now : Instant) (c : Collector α σ) : Prop where
  stages : c.stage = .fresh ∨ c.stage = .active ∨ c.stage = .closed
  /-- Before its first item a collector can be disposed without a call of its sink. -/
  fresh : c.stage = .fresh → ∀ d, d = c.dispose S now ∨ d = c.drop S now →
    d.journal = [] ∧ d.sink = sink ∧ Over S now d
  /-- The final cycle of a collector that ticks lies ahead of it, whatever ends it. -/
  active : c.stage = .active →
    (∀ entry ∈ c.journal, entry.isFinal = false) ∧
      FinalCycle S now c.shut (c.dispose S now) ∧
      FinalCycle S now { c with unreachable := true }.shut (c.drop S now) ∧
      Ticked S now c
  closed : c.stage = .closed → Over S now c

/-- In every state that a new collector can reach, its end is one final cycle or none. -/
theorem endsOnce_of_steps {settings : BatchSettings} {sink : σ} {clock : Clock}
    {s : Session α σ} (h : Session.create settings sink clock = .ok s) {c : Collector α σ}
    (hsteps : Steps S (clock.monotonic, s.collector) (now, c)) : EndsOnce S sink now c := by
  have hrest := resting_of_steps h hsteps
  obtain ⟨valid, rfl⟩ := Session.eq_of_create h
  refine ⟨?_, ?_, ?_, ?_⟩
  · cases hstage : c.stage with
    | fresh => exact .inl rfl
    | active => exact .inr (.inl rfl)
    | closing => exact absurd hstage hrest.not_closing
    | closed => exact .inr (.inr rfl)
  · intro hfresh
    obtain rfl := hrest.fresh hfresh
    rintro d (rfl | rfl)
    · exact ⟨rfl, rfl, over_of_shut (shut_shut _) S now⟩
    · exact ⟨rfl, rfl, over_of_shut (shut_shut _) S now⟩
  · intro hactive
    obtain ⟨hreach, hfinal⟩ := hrest.active hactive
    exact ⟨hfinal, finalCycle_dispose hactive S now,
      finalCycle_dispose (c := { c with unreachable := true }) hactive S now,
      ticked_of_active hactive hreach S now⟩
  · intro hclosed
    exact over_of_shut (hrest.closed hclosed) S now

/-- A sink that takes the first batch, and panics over the second one: before that it emits an item,
disposes its collector, and emits another item. -/
def quitting : Sink.Script Nat where
  takes := [⟨[], .ok⟩, ⟨[.emit 3, .dispose, .emit 4], .panic⟩]

/-- The items that the sink has emitted and failed to take before the disposal still reach it. -/
theorem endsOnce_of_steps_quitting :
    ∃ s : Session Nat (Sink.Script Nat),
      Session.create { periodMs := 500 } quitting ⟨⟨0⟩, 0⟩ = .ok s ∧
      let S : Sink Nat (Sink.Script Nat) := .scripted fun _ => .keep
      let c := (s.run S [.emit 1, .emit 2]).2.collector
      let now : Instant := ⟨500000000⟩
      Steps S (⟨0⟩, s.collector) (now, c) ∧ c.stage = .active ∧ c.nextTick? = some now ∧
        (askedInCycle S now false c.beginTick).any Asked.isDisposal = true ∧
        (c.tick S now).stats.emitted = 3 ∧ (c.tick S now).stats.itemsFlushed = 3 ∧
        EndsOnce S quitting now c := by
  have hcreate : Session.create (α := Nat) { periodMs := 500 } quitting ⟨⟨0⟩, 0⟩ = .ok _ := rfl
  refine ⟨_, hcreate, ?_⟩
  intro S c now
  have hsteps : Steps S _ (now, c) :=
    (steps_run _ [.emit 1, .emit 2]).tail (.waited c (by decide +kernel))
  refine ⟨hsteps, ?_, ?_, ?_, ?_, ?_, endsOnce_of_steps hcreate hsteps⟩
  all_goals decide +kernel

end Courier.Collector
