import Courier.Proofs.Collector.Chunks

/-!
# The grammar of a cycle

While a cycle goes on its sink may refill the backlog, so that nothing in the collector alone says
that the cycle ends. But each call consumes: a judgement takes an item from the backlog, and a
delivery a full batch from the stage. What the sink emits has to make up for it, so a cycle ends if
and only if the sink emits finitely many items in it.

A cycle hands over full batches one after the other, until there is a last call: a batch that is not
full, or none, or a call in which the sink fails.

> `Going.again`: what a call consumes, and what it notes.

> `Conduct.cycles_iff`: a cycle ends exactly if only finitely many items are emitted in it.

> `spelled_run`: the calls of every cycle in a run, and how many batches are handed over.
-/

namespace Courier.Collector

variable {α σ : Type}

/-! ## Chains of calls -/

/-- After `n` calls the cycle has gone on from `c` to `d`. -/
inductive Conduct.Advances (K : Conduct α σ) (now : Instant) :
    Nat → Collector α σ → Collector α σ → Prop where
  | refl (c : Collector α σ) : Advances K now 0 c c
  | again {n : Nat} {c d e : Collector α σ} (turn : K.turn now c = .again d)
      (rest : Advances K now n d e) : Advances K now (n + 1) c e

/-- The cycle that begins with `c` ends with `e`, and `last` is the collector before the last
call. -/
def Conduct.Cycles (K : Conduct α σ) (now : Instant) (final : Bool) (c last e : Collector α σ) :
    Prop :=
  ∃ n ok d, K.Advances now n (c.note (.cycleBegan now final)) last ∧
    K.turn now last = .ended ok d ∧ e = conclude ok d

/-- However long the cycle that begins with `c` goes on, only so many items are emitted and taken
on. -/
def Conduct.EmitsFinitely (K : Conduct α σ) (now : Instant) (final : Bool) (c : Collector α σ) :
    Prop :=
  ∃ bound, ∀ n d, K.Advances now n (c.note (.cycleBegan now final)) d →
    (collect Entry.taken d.journal).length ≤ bound

section Chains

variable {K : Conduct α σ} {now : Instant} {c d last : Collector α σ}

/-- After any number of calls the cycle goes on, or it has ended before. -/
theorem Conduct.advances_or_ends (K : Conduct α σ) (now : Instant) (n : Nat) (c : Collector α σ) :
    (∃ d, K.Advances now n c d) ∨
      ∃ m last ok d, K.Advances now m c last ∧ K.turn now last = .ended ok d := by
  induction n generalizing c with
  | zero => exact .inl ⟨c, .refl c⟩
  | succ n ih =>
    cases hturn : K.turn now c with
    | again d =>
      rcases ih d with ⟨e, hrest⟩ | ⟨m, last, ok, e, hrest, hlast⟩
      · exact .inl ⟨e, .again hturn hrest⟩
      · exact .inr ⟨m + 1, last, ok, e, .again hturn hrest, hlast⟩
    | ended ok d => exact .inr ⟨0, c, ok, d, .refl c, hturn⟩

/-- A chain of calls is part of the one that ends the cycle. -/
theorem Conduct.Advances.to_last {n m : Nat} {ok : Bool} {e : Collector α σ}
    (h : K.Advances now n c d) (hlast : K.Advances now m c last)
    (hturn : K.turn now last = .ended ok e) : ∃ k, K.Advances now k d last := by
  induction h generalizing m with
  | refl c => exact ⟨m, hlast⟩
  | again turn _ ih =>
    cases hlast with
    | refl => rw [turn] at hturn; cases hturn
    | again turn' rest' =>
      rw [turn] at turn'
      cases turn'
      exact ih rest'

/-- The calls of a sink with a credit come to an end. -/
theorem Conduct.ends_of (S : Sink α σ) (now : Instant) (c : Collector α σ) :
    ∃ n last, (Conduct.of S).Advances now n c last ∧
      (Conduct.of S).turn now last = .ended (work S now c).1 (work S now c).2 := by
  fun_induction work S now c with
  | case1 c d hturn ih =>
    obtain ⟨n, last, hrest, hlast⟩ := ih
    exact ⟨n + 1, last, .again ((of_turn S now c).trans hturn) hrest, hlast⟩
  | case2 c ok d hturn => exact ⟨0, c, .refl c, (of_turn S now c).trans hturn⟩

/-- So every cycle of such a sink is one that ends. -/
theorem Conduct.cycles_of (S : Sink α σ) (now : Instant) (final : Bool) (c : Collector α σ) :
    ∃ last, (Conduct.of S).Cycles now final c last (c.cycle S now final) := by
  obtain ⟨n, last, hadvances, hturn⟩ := Conduct.ends_of S now (c.note (.cycleBegan now final))
  exact ⟨last, n, _, _, hadvances, hturn, rfl⟩

end Chains

/-! ## The calls that are noted -/

/-- Whether the sink is called with a batch. -/
def Entry.isFlush : Entry α → Bool
  | .flushed _ _ _ _ => true
  | _ => false

/-- Whether the sink is called with a batch or without one, or panics over an item. -/
def Entry.isCall (entry : Entry α) : Bool :=
  entry.isFlush || entry.isIdle || entry.isFilterPanic

/-- The calls of the sink in order, without the judgements that end well. -/
def callsIn (entries : List (Entry α)) : List (Entry α) := entries.reverse.filter Entry.isCall

/-- The sink takes a full batch. -/
def Entry.TakesFull (limit : Nat) (entry : Entry α) : Prop :=
  ∃ now batch replies, entry = .flushed now batch replies .ok ∧ batch.length = limit

/-- The last call of a cycle, with `staged` as the staged batch. -/
inductive Entry.EndsCycle (limit : Nat) (staged : List α) : Entry α → Prop where
  /-- The sink takes a batch that is not full. -/
  | short (now : Instant) (replies : List Reply) (some : staged ≠ [])
      (room : staged.length < limit) : EndsCycle limit staged (.flushed now staged replies .ok)
  /-- The sink hears that there is nothing to take. -/
  | idled (now : Instant) (replies : List Reply) (outcome : Sink.Outcome) (none : staged = []) :
      EndsCycle limit staged (.idled now replies outcome)
  /-- The sink does not take a batch. -/
  | failed (now : Instant) (replies : List Reply) (outcome : Sink.Outcome) (some : staged ≠ [])
      (size : staged.length ≤ limit) (fault : outcome ≠ .ok) :
      EndsCycle limit staged (.flushed now staged replies outcome)
  | panicked (now : Instant) (item : α) : EndsCycle limit staged (.filterPanicked now item)

/-- Calls are read off a journal part by part. -/
theorem callsIn_append (later earlier : List (Entry α)) :
    callsIn (later ++ earlier) = callsIn earlier ++ callsIn later := by
  simp [callsIn]

/-- Entries that note no call bring none. -/
theorem callsIn_eq_nil {entries : List (Entry α)} (h : ∀ entry ∈ entries, entry.isCall = false) :
    callsIn entries = [] := by
  refine List.filter_eq_nil_iff.2 fun entry hentry => ?_
  rw [h entry (List.mem_reverse.1 hentry)]
  exact Bool.false_ne_true

/-- An offer is no call. -/
theorem Entry.isCall_of_isOffer {entry : Entry α} (h : entry.isOffer = true) :
    entry.isCall = false := by
  cases entry with
  | accepted item => rfl
  | refused item => rfl
  | _ => cases h

/-- The end of a cycle brings no call and takes nothing on. -/
theorem Entry.isCall_of_isClosing {entry : Entry α} (h : entry.isClosing = true) :
    entry.isCall = false ∧ entry.taken = [] := by
  cases entry with
  | cycleFailed => exact ⟨rfl, rfl⟩
  | batchDropped items => exact ⟨rfl, rfl⟩
  | backlogDropped items => exact ⟨rfl, rfl⟩
  | _ => cases h

/-! ## What calls consume -/

/-- After `n` calls the cycle has gone on from `c` to `d`, and has noted `entries`. -/
structure Going (c : Collector α σ) (n : Nat) (entries : List (Entry α)) (d : Collector α σ) :
    Prop where
  journal : d.journal = entries ++ c.journal
  fixed : d.batchSize = c.batchSize
  room : d.staged.length ≤ c.batchSize
  full : ∀ call ∈ callsIn entries, call.TakesFull c.batchSize
  /-- What has been handed over and what is left has come from the start or from the sink. -/
  balance : (callsIn entries).length * c.batchSize + d.staged.length + d.backlog.items.length ≤
    c.staged.length + c.backlog.items.length + (collect Entry.taken entries).length
  /-- Each item is good for two calls: one that judges it, and one that hands it over. -/
  count : n + 2 * d.backlog.items.length + d.staged.length ≤
    2 * (c.backlog.items.length + (collect Entry.taken entries).length) + c.staged.length

section Going

variable {K : Conduct α σ} {now : Instant} {final : Bool} {c d e : Collector α σ} {n : Nat}
  {entries : List (Entry α)}

/-- At the beginning of a cycle there has been no call. -/
theorem going_began (now : Instant) (final : Bool) (hroom : c.staged.length ≤ c.batchSize) :
    Going c 0 [.cycleBegan now final] (c.note (.cycleBegan now final)) where
  journal := rfl
  fixed := rfl
  room := hroom
  full := List.forall_mem_nil _
  balance := by
    show 0 * c.batchSize + _ + _ ≤ _
    rw [Nat.zero_mul, Nat.zero_add]
    exact Nat.le_add_right _ _
  count := by simp [collect, Entry.taken, note]

/-- The calls and the items taken on, once a call has been noted. -/
theorem Noted.views {offers : List (Entry α)} {entry : Entry α} {staged backlog : List α}
    (h : Noted d e offers entry staged backlog) (hentry : entry.taken = [])
    (entries : List (Entry α)) :
    callsIn (entry :: (offers ++ entries)) = callsIn entries ++ [entry].filter Entry.isCall ∧
      (collect Entry.taken (entry :: (offers ++ entries))).length =
        (collect Entry.taken entries).length + (collect Entry.taken offers).length := by
  have hoffers : callsIn offers = [] :=
    callsIn_eq_nil fun offer hoffer => Entry.isCall_of_isOffer (h.offered offer hoffer)
  constructor
  · rw [← List.singleton_append, callsIn_append, callsIn_append, hoffers, List.append_nil]
    rfl
  · rw [collect_cons, collect_append, hentry, List.append_nil, List.length_append]

/-- One call more is noted behind the others, and the size of the batches stays. -/
theorem Going.noted {offers : List (Entry α)} {entry : Entry α} {staged backlog : List α}
    (h : Going c n entries d) (hnoted : Noted d e offers entry staged backlog) :
    e.journal = (entry :: offers ++ entries) ++ c.journal ∧ e.batchSize = c.batchSize := by
  constructor
  · rw [hnoted.journal, h.journal, List.cons_append, List.cons_append, List.append_assoc]
  · exact (congrArg (fun settings : BatchSettings => settings.batchSizeLimit.toNat)
      hnoted.settings).trans h.fixed

/-- A judgement takes an item from the backlog, which may then be staged. -/
theorem Going.judged {offers : List (Entry α)} {entry : Entry α} {staged rest : List α} {item : α}
    (h : Going c n entries d) (hnoted : Noted d e offers entry staged rest)
    (hentry : entry.taken = []) (hcall : entry.isCall = false)
    (hnext : d.backlog.items = item :: rest) (hstaged : staged.length ≤ d.staged.length + 1)
    (hroom : staged.length ≤ c.batchSize) : Going c (n + 1) (entry :: offers ++ entries) e := by
  obtain ⟨hjournal, hfixed⟩ := h.noted hnoted
  obtain ⟨hcalls, htaken⟩ := hnoted.views hentry entries
  have hsame : callsIn (entry :: offers ++ entries) = callsIn entries := by
    refine hcalls.trans ?_
    rw [List.filter_cons_of_neg (by rw [hcall]; exact Bool.false_ne_true)]
    exact List.append_nil _
  have hbalance := h.balance
  have hcount := h.count
  rw [hnext, List.length_cons] at hbalance hcount
  refine ⟨hjournal, hfixed, hnoted.staged ▸ hroom, hsame ▸ h.full, ?_, ?_⟩
  · rw [hsame, hnoted.staged, hnoted.backlog, List.length_append, List.cons_append, htaken]
    omega
  · rw [hnoted.staged, hnoted.backlog, List.length_append, List.cons_append, htaken]
    omega

/-- A full batch that is taken leaves the stage empty. -/
theorem Going.delivered {offers : List (Entry α)} {replies : List Reply} (h : Going c n entries d)
    (hfull : d.batchSize ≤ d.staged.length)
    (hnoted : Noted d e offers (.flushed now d.staged replies .ok) [] d.backlog.items) :
    Going c (n + 1) (.flushed now d.staged replies .ok :: offers ++ entries) e := by
  obtain ⟨hjournal, hfixed⟩ := h.noted hnoted
  obtain ⟨hcalls, htaken⟩ := hnoted.views rfl entries
  have hlength : d.staged.length = c.batchSize := Nat.le_antisymm h.room (h.fixed ▸ hfull)
  have hpos : 0 < c.batchSize := BatchSettings.Valid.batchSizeLimit_pos c.valid
  have hcalls' : callsIn (.flushed now d.staged replies .ok :: offers ++ entries) =
      callsIn entries ++ [.flushed now d.staged replies .ok] := hcalls
  have hbalance := h.balance
  have hcount := h.count
  refine ⟨hjournal, hfixed, ?_, ?_, ?_, ?_⟩
  · rw [hnoted.staged]
    exact Nat.zero_le _
  · rw [hcalls']
    refine List.forall_mem_append.2 ⟨h.full, List.forall_mem_singleton.2 ?_⟩
    exact ⟨now, d.staged, replies, rfl, hlength⟩
  · rw [hcalls', hnoted.staged, hnoted.backlog, List.length_append, List.length_append,
      List.length_singleton, List.length_nil, Nat.add_mul, Nat.one_mul, List.cons_append, htaken]
    omega
  · rw [hnoted.staged, hnoted.backlog, List.length_append, List.length_nil, List.cons_append,
      htaken]
    omega

/-- What one more call consumes and notes, if the cycle goes on after it. -/
theorem Going.again (h : Going c n entries d) (hcalls : Calls now d (.again e)) :
    ∃ more, Going c (n + 1) (more ++ entries) e := by
  cases hcalls with
  | kept item rest room next noted =>
    rw [h.fixed] at room
    refine ⟨_, h.judged noted rfl rfl next ?_ ?_⟩
    · exact Nat.le_of_eq List.length_append
    · rw [List.length_append]
      exact room
  | filtered item rest room next noted =>
    exact ⟨_, h.judged noted rfl rfl next (Nat.le_succ _) h.room⟩
  | full replies full noted => exact ⟨_, h.delivered full noted⟩

/-- What any number of calls consume and note. -/
theorem Conduct.Advances.going {k : Nat} (hadvances : K.Advances now k d e)
    (h : Going c n entries d) : ∃ more, Going c (n + k) (more ++ entries) e := by
  induction hadvances generalizing n entries with
  | refl d => exact ⟨[], h⟩
  | @again k d d' e turn _ ih =>
    have hcalls := K.calls_turn now d
    rw [turn] at hcalls
    obtain ⟨more, hgoing⟩ := h.again hcalls
    obtain ⟨more', hgoing'⟩ := ih hgoing
    rw [← List.append_assoc, Nat.add_right_comm] at hgoing'
    exact ⟨more' ++ more, hgoing'⟩

/-- A cycle ends exactly if only finitely many items are emitted and taken on in it. -/
theorem Conduct.cycles_iff (K : Conduct α σ) (now : Instant) (final : Bool) {c : Collector α σ}
    (hroom : c.staged.length ≤ c.batchSize) :
    (∃ last e, K.Cycles now final c last e) ↔ K.EmitsFinitely now final c := by
  have hbegan := going_began now final hroom
  constructor
  · rintro ⟨last, e, m, ok, d, hlast, hturn, -⟩
    refine ⟨(collect Entry.taken last.journal).length, fun n d hadvances => ?_⟩
    obtain ⟨k, hrest⟩ := hadvances.to_last hlast hturn
    obtain ⟨before, hgoing⟩ := hadvances.going hbegan
    obtain ⟨more, hmore⟩ := hrest.going hgoing
    rw [hmore.journal, List.append_assoc, ← hgoing.journal, collect_append, List.length_append]
    exact Nat.le_add_right _ _
  · rintro ⟨bound, hbound⟩
    -- So many calls would consume more items than there are.
    rcases K.advances_or_ends now (2 * (c.backlog.items.length + bound) + c.staged.length + 1)
      (c.note (.cycleBegan now final)) with ⟨d, hadvances⟩ | ⟨m, last, ok, d, hlast, hturn⟩
    · obtain ⟨before, hgoing⟩ := hadvances.going hbegan
      have htaken := hbound _ _ hadvances
      have hcount := hgoing.count
      rw [hgoing.journal, collect_append, List.length_append] at htaken
      omega
    · exact ⟨last, conclude ok d, m, ok, d, hlast, hturn, rfl⟩

/-- The last call of a cycle. -/
theorem Going.ended {ok : Bool} (h : Going c n entries d) (hcalls : Calls now d (.ended ok e)) :
    ∃ offers entry, e.journal = (entry :: offers ++ entries) ++ c.journal ∧
      callsIn (entry :: offers ++ entries) = callsIn entries ++ [entry] ∧
      entry.EndsCycle c.batchSize d.staged := by
  cases hcalls with
  | panicked item rest room next noted =>
    exact ⟨_, _, (h.noted noted).1, (noted.views rfl _).1, .panicked now item⟩
  | last replies staged room next noted =>
    rw [h.fixed] at room
    exact ⟨_, _, (h.noted noted).1, (noted.views rfl _).1, .short now replies staged room⟩
  | failed replies outcome fault staged next noted =>
    refine ⟨_, _, (h.noted noted).1, (noted.views rfl _).1, ?_⟩
    exact .failed now replies outcome staged h.room fault
  | idled replies outcome staged next noted =>
    exact ⟨_, _, (h.noted noted).1, (noted.views rfl _).1, .idled now replies outcome staged⟩

end Going

/-! ## Whole cycles -/

/-- How the calls of a cycle follow each other that has begun with `c` and noted `entries`, if there
was `last` before the last call. -/
structure Spelled (limit : Nat) (c last : Collector α σ) (entries : List (Entry α)) : Prop where
  /-- All calls but the last one hand over full batches. -/
  grammar : ∃ full call, callsIn entries = full ++ [call] ∧
    (∀ entry ∈ full, entry.TakesFull limit) ∧ call.EndsCycle limit last.staged
  /-- Full batches are made of the items that were there, or have been emitted. -/
  flushes : entries.countP Entry.isFlush ≤
    (c.staged.length + c.backlog.size + (collect Entry.taken entries).length) / limit + 1

/-- There are no more batches than calls. -/
theorem countP_isFlush_le (entries : List (Entry α)) :
    entries.countP Entry.isFlush ≤ (callsIn entries).length := by
  unfold callsIn
  rw [← List.countP_eq_length_filter, List.countP_reverse]
  refine List.countP_mono_left fun entry _ hflush => ?_
  rw [Entry.isCall, hflush]
  rfl

/-- The calls of every cycle that ends are spelled so. -/
theorem Conduct.Cycles.spelled {K : Conduct α σ} {now : Instant} {final : Bool}
    {c last e : Collector α σ} (h : K.Cycles now final c last e)
    (hroom : c.staged.length ≤ c.batchSize) :
    ∃ entries, e.journal = entries ++ c.journal ∧ Spelled c.batchSize c last entries := by
  obtain ⟨n, ok, d, hadvances, hturn, rfl⟩ := h
  obtain ⟨before, hgoing⟩ := hadvances.going (going_began now final hroom)
  have hlast := K.calls_turn now last
  rw [hturn] at hlast
  obtain ⟨offers, call, hjournal, hcalls, hends⟩ := hgoing.ended hlast
  obtain ⟨closing, hclosing, hclosings⟩ := closes_conclude ok d
  generalize before ++ [.cycleBegan now final] = begun at hgoing hjournal hcalls
  have hnone : callsIn closing = [] :=
    callsIn_eq_nil fun entry hentry => (Entry.isCall_of_isClosing (hclosings entry hentry)).1
  have hfull : callsIn (closing ++ (call :: offers ++ begun)) = callsIn begun ++ [call] := by
    rw [callsIn_append, hnone, List.append_nil, hcalls]
  refine ⟨closing ++ (call :: offers ++ begun), ?_, ⟨_, call, hfull, hgoing.full, hends⟩, ?_⟩
  · rw [hclosing, hjournal]
    exact (List.append_assoc ..).symm
  · have htaken : (collect Entry.taken begun).length ≤
        (collect Entry.taken (closing ++ (call :: offers ++ begun))).length := by
      rw [← List.append_assoc, collect_append, List.length_append]
      exact Nat.le_add_right _ _
    have hbalance := hgoing.balance
    refine Nat.le_trans (countP_isFlush_le _) ?_
    rw [hfull, List.length_append, List.length_singleton]
    refine Nat.add_le_add_right ((Nat.le_div_iff_mul_le ?_).2 ?_) 1
    · exact BatchSettings.Valid.batchSizeLimit_pos c.valid
    · unfold Backlog.size
      omega

/-- What is known of a cycle that begins with `c`, whatever its sink does in it. -/
structure Regular (limit : Nat) (now : Instant) (final : Bool) (c : Collector α σ) : Prop where
  /-- It ends exactly if only finitely many items are emitted in it. -/
  ends : ∀ K : Conduct α σ,
    (∃ last e, K.Cycles now final c last e) ↔ K.EmitsFinitely now final c
  calls : ∀ (K : Conduct α σ) last e, K.Cycles now final c last e →
    ∃ entries, e.journal = entries ++ c.journal ∧ Spelled limit c last entries

/-- The cycles of a run are regular, and the sink of the run comes to the end of each. -/
theorem spelled_run {settings : BatchSettings} {sink : σ} {clock : Clock} {s : Session α σ}
    (h : Session.create settings sink clock = .ok s) (S : Sink α σ) (requests : List (Request α)) :
    ∀ start ∈ s.startsInRun S requests,
      Regular settings.batchSizeLimit.toNat start.instant start.final start.collector ∧
        ∃ last, (Conduct.of S).Cycles start.instant start.final start.collector last
          (start.collector.cycle S start.instant start.final) := by
  intro start hstart
  have hrest := (batched_invariant settings).rest S
  have hbatched : Batched settings (none, start.collector) := by
    obtain ⟨now, c, hsteps, hbegins⟩ := reached_of_mem_startsInRun hstart
    refine hrest.begins (hsteps.keep (P := fun m => Batched settings (none, m.2)) ?_ ?_) hbegins
    · exact fun hm hstep => hrest.step hm hstep
    · exact batched_of_create h
  have hlimit : start.collector.batchSize = settings.batchSizeLimit.toNat :=
    congrArg (fun settings : BatchSettings => settings.batchSizeLimit.toNat) hbatched.fixed
  have hroom : start.collector.staged.length ≤ start.collector.batchSize :=
    hlimit ▸ hbatched.size
  rw [← hlimit]
  refine ⟨⟨fun K => K.cycles_iff _ _ hroom, fun K last e hcycles => ?_⟩, Conduct.cycles_of S _ _ _⟩
  exact hcycles.spelled hroom

/-- Settings with two items in a batch. -/
def pairs : BatchSettings := { batchSizeLimit := 2, periodMs := 1000 }

/-- A sink emits four items while it takes the first batch, and in the next cycle one more while it
takes the first two of them. -/
theorem spelled_run_refilled :
    ∃ s : Session Nat (Sink.Script Nat),
      Session.create pairs
          { takes := [⟨[.emit 2, .emit 3, .emit 4, .emit 5], .ok⟩, ⟨[.emit 6], .ok⟩] }
          ⟨⟨0⟩, 0⟩ = .ok s ∧
        let S := Sink.scripted fun _ : Nat => .keep
        let requests := [.emit 1, .pass 1000000000]
        handedOver (s.run S requests).2.collector.journal =
            [([1], .ok), ([2, 3], .ok), ([4, 5], .ok), ([6], .ok)] ∧
          (s.startsInRun S requests).length = 2 ∧
          ∀ start ∈ s.startsInRun S requests,
            Regular pairs.batchSizeLimit.toNat start.instant start.final start.collector ∧
              ∃ last, (Conduct.of S).Cycles start.instant start.final start.collector last
                (start.collector.cycle S start.instant start.final) := by
  refine ⟨_, rfl, ?_, ?_, @spelled_run Nat _ pairs _ ⟨⟨0⟩, 0⟩ _ rfl _ _⟩
  · decide +kernel
  · decide +kernel

end Courier.Collector
