import Courier.Broker.Rounds
import Mathlib.Data.List.Flatten
import Mathlib.Data.List.Perm.Basic

/-!
# What handlers do side by side

Each handler has actions of its own: it suspends as often as it plans to, and then handles the
event. The rounds put the actions of all handlers together, the first ones first, then the second
ones, and so on, in each round in order of subscription.

> `runHandlers_calm`: without a panic, the handlers do exactly that.

> `perm_inRounds`, `sublist_inRounds`: in rounds every action takes place once, and those of one
> handler in their order.

> `runHandlers_panic`: a panic cuts the rounds short, right behind the handler that panics.

> `runHandlers_ending`, `runHandlers_prefix`: up to there, the handlers do the same as they would
> without that panic, or without any.
-/

namespace Courier

variable {α ι β : Type}

/-- The same handler, but it ends in another way. -/
def Handler.ending (outcome : Handler.Outcome) (h : Handler α ι) : Handler α ι :=
  { h with plan := fun data properties => { h.plan data properties with outcome } }

/-- The same handler, but where it would panic it succeeds. -/
def Handler.recovering (h : Handler α ι) : Handler α ι where
  label := h.label
  plan data properties :=
    let plan := h.plan data properties
    { plan with outcome := if plan.outcome = .panic then .ok else plan.outcome }

namespace Broker

/-! ## Lists in rounds -/

/-- The elements of one round. Lists that are too short have none in it. -/
def round (lists : List (List β)) (r : Nat) : List β := lists.filterMap (·[r]?)

/-- The elements of lists, round after round. No more rounds are needed than there are elements. -/
def inRounds (lists : List (List β)) : List β :=
  (List.range lists.flatten.length).flatMap (round lists)

theorem round_cons (list : List β) (lists : List (List β)) (r : Nat) :
    round (list :: lists) r = list[r]?.toList ++ round lists r := by
  unfold round
  rw [List.filterMap_cons]
  cases list[r]? <;> rfl

theorem flatMap_getElem? (list : List β) {n : Nat} (h : list.length ≤ n) :
    (List.range n).flatMap (fun r => list[r]?.toList) = list := by
  induction list generalizing n with
  | nil => simp
  | cons x rest ih =>
    obtain ⟨m, rfl⟩ : ∃ m, n = m + 1 := ⟨n - 1, by simp at h; omega⟩
    rw [List.range_succ_eq_map, List.flatMap_cons, List.flatMap_map]
    show x :: (List.range m).flatMap (fun r => rest[r]?.toList) = x :: rest
    rw [ih (Nat.le_of_succ_le_succ h)]

theorem length_le_flatten {lists : List (List β)} {list : List β} (h : list ∈ lists) :
    list.length ≤ lists.flatten.length :=
  (List.sublist_flatten_of_mem h).length_le

/-- Each element has its turn once. -/
theorem perm_inRounds (lists : List (List β)) : (inRounds lists).Perm lists.flatten := by
  have hrounds : ∀ n, (∀ list ∈ lists, list.length ≤ n) →
      ((List.range n).flatMap (round lists)).Perm lists.flatten := by
    induction lists with
    | nil => intro n _; simp [round]
    | cons list lists ih =>
      intro n hn
      have hrest := ih n fun l hl => hn l (List.mem_cons_of_mem _ hl)
      have hsplit : (List.range n).flatMap (round (list :: lists)) =
          (List.range n).flatMap fun r => list[r]?.toList ++ round lists r := by
        congr 1
        funext r
        exact round_cons list lists r
      rw [hsplit, List.flatten_cons]
      refine (List.flatMap_append_perm _ _ _).symm.trans ?_
      rw [flatMap_getElem? list (hn list List.mem_cons_self)]
      exact hrest.append_left list
  exact hrounds _ fun _ hlist => length_le_flatten hlist

/-- The elements of one list keep their order. -/
theorem sublist_inRounds {lists : List (List β)} {list : List β} (h : list ∈ lists) :
    list.Sublist (inRounds lists) := by
  have hturn (r : Nat) : list[r]?.toList.Sublist (round lists r) := by
    obtain ⟨before, after, rfl⟩ := List.append_of_mem h
    unfold round
    rw [List.filterMap_append, ← round, ← round, round_cons]
    exact (List.sublist_append_left _ _).trans (List.sublist_append_right _ _)
  have hall := List.Sublist.flatMap_right (List.range lists.flatten.length) fun r _ => hturn r
  rw [flatMap_getElem? list (length_le_flatten h)] at hall
  exact hall

example : inRounds [[1, 2, 3], [4], [], [5, 6]] = [1, 4, 5, 2, 6, 3] := by decide

/-! ## Handlers by themselves -/

/-- What a handler does by itself. -/
def actions (data : α) (properties : Event.Properties) (h : Handler α ι) : List (Call α ι) :=
  (List.range (h.plan data properties).suspensions).map (.suspended h.label) ++
    [.handled h.label data properties]

/-- What a handler that has not ended will still do. -/
def Task.rest (data : α) (properties : Event.Properties) (t : Task ι) : List (Call α ι) :=
  (List.range' t.suspended t.left).map (.suspended t.label) ++ [.handled t.label data properties]

variable {data : α} {properties : Event.Properties}

theorem rest_begin (h : Handler α ι) :
    (Task.begin data properties h).rest data properties = actions data properties h := by
  unfold Task.rest actions
  rw [List.range_eq_range']
  rfl

/-! ## One poll -/

/-- What a handler does when it is polled. -/
def Task.act (data : α) (properties : Event.Properties) (t : Task ι) : Call α ι :=
  match t.left with
  | 0 => .handled t.label data properties
  | _ + 1 => .suspended t.label t.suspended

/-- A handler after a poll, unless it has ended. -/
def Task.onward (t : Task ι) : List (Task ι) :=
  match t.left with
  | 0 => []
  | left + 1 => [{ t with suspended := t.suspended + 1, left }]

/-- The errors a poll ends with: one or none. -/
def Task.failure (t : Task ι) : Nat :=
  match t.left, t.outcome with
  | 0, .error => 1
  | _, _ => 0

/-- What a poll adds to its round. -/
def Task.join (t : Task ι) (r : Round ι) : Round ι where
  pending := t.onward ++ r.pending
  failed := r.failed + t.failure

/-- Whether a handler panics when it is polled. -/
def Task.panics (t : Task ι) : Prop := t.left = 0 ∧ t.outcome = .panic

instance (t : Task ι) : Decidable t.panics := inferInstanceAs (Decidable (_ ∧ _))

theorem poll_cons {t : Task ι} (h : ¬ t.panics) (rest : List (Task ι)) :
    poll data properties (t :: rest) =
      (t.act data properties :: (poll data properties rest).1,
        (poll data properties rest).2.map t.join) := by
  obtain ⟨label, suspended, left, outcome⟩ := t
  cases left with
  | succ left => rfl
  | zero =>
    cases outcome with
    | ok => rw [poll]; exact congrArg (Prod.mk _) (congrFun Option.map_id _).symm
    | error => rfl
    | panic => exact absurd ⟨rfl, rfl⟩ h

theorem poll_cons_of_panics {t : Task ι} (h : t.panics) (rest : List (Task ι)) :
    poll data properties (t :: rest) = ([t.act data properties], none) := by
  obtain ⟨label, suspended, left, outcome⟩ := t
  obtain ⟨hleft, houtcome⟩ := h
  cases hleft
  cases houtcome
  rfl

/-! ## Without a panic -/

/-- A round without a panic: every handler does what is next for it, those that have more to do go
on, and the others are counted if they end with an error. -/
structure Calm (data : α) (properties : Event.Properties) (tasks : List (Task ι))
    (calls : List (Call α ι)) (r : Round ι) : Prop where
  calls : calls = round (tasks.map (Task.rest data properties)) 0
  later : ∀ i, round (r.pending.map (Task.rest data properties)) i =
    round (tasks.map (Task.rest data properties)) (i + 1)
  outcomes : ∀ t ∈ r.pending, t.outcome ≠ .panic
  left : ∀ n, (∀ t ∈ tasks, t.left ≤ n) → ∀ t ∈ r.pending, t.left + 1 ≤ n
  failed : r.failed + r.pending.countP (·.outcome = .error) = tasks.countP (·.outcome = .error)

variable (data properties) in
theorem poll_calm {tasks : List (Task ι)} (h : ∀ t ∈ tasks, t.outcome ≠ .panic) :
    ∃ calls r, poll data properties tasks = (calls, some r) ∧
      Calm data properties tasks calls r := by
  induction tasks with
  | nil => exact ⟨[], {}, rfl, rfl, fun _ => rfl, nofun, fun _ _ => nofun, rfl⟩
  | cons t rest ih =>
    obtain ⟨houtcome, hrest⟩ := List.forall_mem_cons.1 h
    obtain ⟨calls, r, hpoll, hcalm⟩ := ih hrest
    have hfailed := hcalm.failed
    refine ⟨t.act data properties :: calls, t.join r, ?_, ?_⟩
    · rw [poll_cons fun hpanics => houtcome hpanics.2, hpoll]
      rfl
    -- The handler suspends once more and goes on, or it ends in this round.
    obtain ⟨label, suspended, left, outcome⟩ := t
    cases left with
    | succ left =>
      refine ⟨?_, fun i => ?_, ?_, fun n hn => ?_, ?_⟩
      · rw [List.map_cons, round_cons, hcalm.calls]
        rfl
      · rw [List.map_cons, round_cons, ← hcalm.later]
        exact round_cons _ _ i
      · exact List.forall_mem_cons.2 ⟨houtcome, hcalm.outcomes⟩
      · obtain ⟨hleft, hn⟩ := List.forall_mem_cons.1 hn
        exact List.forall_mem_cons.2 ⟨hleft, hcalm.left n hn⟩
      · simp only [Task.join, Task.onward, Task.failure, List.singleton_append, List.countP_cons]
        omega
    | zero =>
      refine ⟨?_, fun i => ?_, hcalm.outcomes, fun n hn => ?_, ?_⟩
      · rw [List.map_cons, round_cons, hcalm.calls]
        rfl
      · rw [List.map_cons, round_cons, ← hcalm.later]
        rfl
      · exact hcalm.left n (List.forall_mem_cons.1 hn).2
      · rw [List.countP_cons, ← hfailed]
        cases outcome with
        | panic => exact absurd rfl houtcome
        | ok => rfl
        | error => exact Nat.add_right_comm _ 1 _

theorem runRounds_nil : runRounds data properties ([] : List (Task ι)) = ([], some 0) := by
  rw [runRounds]

/-- The rounds go on with what the first one has left. -/
theorem runRounds_of_round {tasks : List (Task ι)} {calls : List (Call α ι)} {r : Round ι}
    (h : poll data properties tasks = (calls, some r)) :
    runRounds data properties tasks =
      (calls ++ (runRounds data properties r.pending).1,
        (runRounds data properties r.pending).2.map (r.failed + ·)) := by
  cases tasks with
  | nil =>
    cases h
    rw [runRounds_nil]
    rfl
  | cons t rest =>
    rw [runRounds, h]

/-- A panic ends the rounds. -/
theorem runRounds_of_panic {tasks : List (Task ι)} {calls : List (Call α ι)}
    (h : poll data properties tasks = (calls, none)) :
    runRounds data properties tasks = (calls, none) := by
  cases tasks with
  | nil => cases h
  | cons t rest => rw [runRounds, h]

/-- Without a panic, `n` rounds are all if no handler needs more. -/
theorem runRounds_calm {n : Nat} {tasks : List (Task ι)} (h : ∀ t ∈ tasks, t.outcome ≠ .panic)
    (hn : ∀ t ∈ tasks, t.left + 1 ≤ n) :
    runRounds data properties tasks =
      ((List.range n).flatMap (round (tasks.map (Task.rest data properties))),
        some (tasks.countP (·.outcome = .error))) := by
  -- The first round leaves what every handler has to do in the later ones, one round earlier.
  induction n generalizing tasks with
  | zero =>
    cases tasks with
    | nil => rw [runRounds_nil]; rfl
    | cons t rest => exact absurd (hn t List.mem_cons_self) (Nat.not_succ_le_zero _)
  | succ n ih =>
    obtain ⟨calls, r, hpoll, hcalm⟩ := poll_calm data properties h
    have hpending : ∀ t ∈ r.pending, t.left + 1 ≤ n :=
      hcalm.left n fun t ht => Nat.le_of_succ_le_succ (hn t ht)
    rw [runRounds_of_round hpoll, ih hcalm.outcomes hpending, List.range_succ_eq_map,
      List.flatMap_cons, List.flatMap_map, hcalm.calls, funext hcalm.later, Option.map_some,
      hcalm.failed]

/-- Without a panic, every handler does all that it does by itself, and the rounds put it
together. -/
theorem runHandlers_calm {handlers : List (Handler α ι)}
    (h : ∀ h ∈ handlers, (h.plan data properties).outcome ≠ .panic) :
    runHandlers handlers data properties =
      (inRounds (handlers.map (actions data properties)),
        some { handlers := handlers.length
               failed := handlers.countP fun h => (h.plan data properties).outcome = .error }) := by
  have hrest : (handlers.map (Task.begin data properties)).map (Task.rest data properties) =
      handlers.map (actions data properties) := by
    rw [List.map_map]
    exact List.map_congr_left fun h _ => rest_begin h
  have hleft : ∀ t ∈ handlers.map (Task.begin data properties),
      t.left + 1 ≤ (handlers.map (actions data properties)).flatten.length := by
    intro t ht
    obtain ⟨h, hh, rfl⟩ := List.mem_map.1 ht
    have := length_le_flatten (List.mem_map_of_mem (f := actions data properties) hh)
    rwa [actions, List.length_append, List.length_map, List.length_range] at this
  unfold runHandlers
  rw [runRounds_calm (List.forall_mem_map.2 h) hleft, hrest, List.countP_map]
  rfl

/-! ## With a panic -/

/-- The rounds begin with the first one. -/
theorem poll_prefix_runRounds (tasks : List (Task ι)) :
    (poll data properties tasks).1 <+: (runRounds data properties tasks).1 := by
  rcases h : poll data properties tasks with ⟨calls, _ | r⟩
  · simp only [runRounds_of_panic h, List.prefix_refl]
  · rw [runRounds_of_round h]
    exact List.prefix_append _ _

/-- The same handler, but it ends in another way. -/
def Task.ending (outcome : Handler.Outcome) (t : Task ι) : Task ι := { t with outcome }

/-- The same handler, but if it panics, then it may end in another way. -/
def Task.Milder (t t' : Task ι) : Prop :=
  ∃ outcome, t' = t.ending outcome ∧ (t.outcome ≠ .panic → outcome = t.outcome)

theorem Task.Milder.refl (t : Task ι) : t.Milder t := ⟨t.outcome, rfl, fun _ => rfl⟩

theorem Task.Milder.ending {t : Task ι} (h : t.outcome = .panic) (outcome : Handler.Outcome) :
    t.Milder (t.ending outcome) := ⟨outcome, rfl, fun hpanic => absurd h hpanic⟩

variable (data properties) in
/-- Handlers that panic less often do the same in a round, and maybe more after that. -/
theorem poll_milder {tasks tasks' : List (Task ι)} (h : List.Forall₂ Task.Milder tasks tasks') :
    (poll data properties tasks).1 <+: (poll data properties tasks').1 ∧
      ∀ r, (poll data properties tasks).2 = some r →
        ∃ r', poll data properties tasks' = ((poll data properties tasks).1, some r') ∧
          List.Forall₂ Task.Milder r.pending r'.pending := by
  induction h with
  | nil => exact ⟨List.prefix_refl _, fun r hr => ⟨r, by cases hr; rfl, by cases hr; exact .nil⟩⟩
  | @cons t t' rest rest' ht _ ih =>
    obtain ⟨outcome, rfl, houtcome⟩ := ht
    by_cases hpanics : t.panics
    · -- The round is over, whatever the other one does after the same action.
      rw [poll_cons_of_panics hpanics]
      refine ⟨?_, nofun⟩
      by_cases hpanics' : (t.ending outcome).panics
      · rw [poll_cons_of_panics hpanics']
        exact List.prefix_refl _
      · rw [poll_cons hpanics']
        exact List.cons_prefix_cons.2 ⟨rfl, List.nil_prefix⟩
    · -- If this one does not panic here, then neither does the other.
      have hpanics' : ¬ (t.ending outcome).panics := fun ⟨hleft, hpanic⟩ =>
        hpanics ⟨hleft, by_contra fun hother => hother ((houtcome hother).symm.trans hpanic)⟩
      rw [poll_cons hpanics, poll_cons hpanics']
      refine ⟨List.cons_prefix_cons.2 ⟨rfl, ih.1⟩, fun r hr => ?_⟩
      obtain ⟨r, hrest, rfl⟩ := Option.map_eq_some_iff.1 hr
      obtain ⟨r', hpoll, hpending⟩ := ih.2 r hrest
      refine ⟨(t.ending outcome).join r', by rw [hpoll]; rfl, ?_⟩
      obtain ⟨label, suspended, left, outcome'⟩ := t
      cases left with
      | zero => exact hpending
      | succ left => exact .cons ⟨outcome, rfl, houtcome⟩ hpending

/-- Handlers that panic less often do the same, and maybe more after that. -/
theorem runRounds_milder {tasks tasks' : List (Task ι)}
    (h : List.Forall₂ Task.Milder tasks tasks') :
    (runRounds data properties tasks).1 <+: (runRounds data properties tasks').1 := by
  induction tasks using runRounds.induct data properties generalizing tasks' with
  | case1 =>
    rw [runRounds_nil]
    exact List.nil_prefix
  | case2 t rest calls hpoll =>
    have hround := (poll_milder data properties h).1
    rw [hpoll] at hround
    rw [runRounds_of_panic hpoll]
    exact hround.trans (poll_prefix_runRounds _)
  | case3 t rest calls r hpoll _ _ _ ih =>
    obtain ⟨r', hpoll', hpending⟩ := (poll_milder data properties h).2 r (congrArg Prod.snd hpoll)
    rw [hpoll] at hpoll'
    rw [runRounds_of_round hpoll, runRounds_of_round hpoll']
    exact (List.prefix_append_right_inj calls).2 (ih hpending)

/-- In a round with a panic, the handler that panics comes last. -/
theorem poll_last {tasks : List (Task ι)} (h : (poll data properties tasks).2 = none) :
    ∃ t ∈ tasks, t.outcome = .panic ∧
      [.handled t.label data properties] <:+ (poll data properties tasks).1 := by
  induction tasks with
  | nil => cases h
  | cons t rest ih =>
    by_cases hpanics : t.panics
    · refine ⟨t, List.mem_cons_self, hpanics.2, ?_⟩
      rw [poll_cons_of_panics hpanics]
      simp only [Task.act, hpanics.1, List.suffix_refl]
    · rw [poll_cons hpanics] at h ⊢
      obtain ⟨t', ht', hpanic, hlast⟩ := ih (Option.map_eq_none_iff.1 h)
      exact ⟨t', List.mem_cons_of_mem _ ht', hpanic, hlast.trans (List.suffix_cons _ _)⟩

/-- The handlers that go on after a round, by what does not change: those that will panic are all
among them. -/
theorem poll_pending {tasks : List (Task ι)} {r : Round ι}
    (h : (poll data properties tasks).2 = some r) (label : ι) :
    (∃ t ∈ tasks, t.label = label ∧ t.outcome = .panic) ↔
      ∃ t ∈ r.pending, t.label = label ∧ t.outcome = .panic := by
  induction tasks generalizing r with
  | nil => cases h; rfl
  | cons t rest ih =>
    have hpanics : ¬ t.panics := by
      intro hpanics
      rw [poll_cons_of_panics hpanics] at h
      cases h
    rw [poll_cons hpanics] at h
    obtain ⟨r, hr, rfl⟩ := Option.map_eq_some_iff.1 h
    obtain ⟨label', suspended, left, outcome⟩ := t
    cases left with
    | zero =>
      have : outcome ≠ .panic := fun hpanic => hpanics ⟨rfl, hpanic⟩
      simp only [Task.join, Task.onward, List.nil_append, List.mem_cons, or_and_right, exists_or,
        exists_eq_left, this, and_false, false_or, ih hr]
    | succ left =>
      simp only [Task.join, Task.onward, List.singleton_append, List.mem_cons, or_and_right,
        exists_or, exists_eq_left, ih hr]

variable (data properties) in
/-- The rounds end with a panic if a handler will panic. What comes last is that one of those
handlers handles the event. -/
theorem runRounds_panic {tasks : List (Task ι)} (h : ∃ t ∈ tasks, t.outcome = .panic) :
    (runRounds data properties tasks).2 = none ∧ ∃ t ∈ tasks, t.outcome = .panic ∧
      [.handled t.label data properties] <:+ (runRounds data properties tasks).1 := by
  induction tasks using runRounds.induct data properties with
  | case1 => simp at h
  | case2 t rest calls hpoll =>
    rw [runRounds_of_panic hpoll]
    refine ⟨rfl, ?_⟩
    have hlast := poll_last (congrArg Prod.snd hpoll)
    rwa [hpoll] at hlast
  | case3 t rest calls r hpoll _ _ _ ih =>
    -- Those that will panic go on, and no other handlers than those of before.
    have hpending := poll_pending (congrArg Prod.snd hpoll)
    obtain ⟨u, hu, hpanic⟩ := h
    obtain ⟨u', hu', -, hpanic'⟩ := (hpending u.label).1 ⟨u, hu, rfl, hpanic⟩
    obtain ⟨hnone, v', hv', hv'panic, hlast⟩ := ih ⟨u', hu', hpanic'⟩
    obtain ⟨v, hv, hlabel, hvpanic⟩ := (hpending v'.label).2 ⟨v', hv', rfl, hv'panic⟩
    rw [runRounds_of_round hpoll, hnone]
    refine ⟨rfl, v, hv, hvpanic, ?_⟩
    rw [hlabel]
    exact hlast.trans (List.suffix_append _ _)

/-- A handler that panics and ends the run is the last to be seen. -/
theorem runHandlers_panic {handlers : List (Handler α ι)}
    (h : ∃ h ∈ handlers, (h.plan data properties).outcome = .panic) :
    (runHandlers handlers data properties).2 = none ∧
      ∃ h ∈ handlers, (h.plan data properties).outcome = .panic ∧
        [.handled h.label data properties] <:+ (runHandlers handlers data properties).1 := by
  have htasks : ∃ t ∈ handlers.map (Task.begin data properties), t.outcome = .panic := by
    obtain ⟨h, hh, hpanic⟩ := h
    exact ⟨_, List.mem_map_of_mem hh, hpanic⟩
  obtain ⟨hnone, t, ht, hpanic, hlast⟩ := runRounds_panic data properties htasks
  obtain ⟨h, hh, rfl⟩ := List.mem_map.1 ht
  exact ⟨Option.map_eq_none_iff.2 hnone, h, hh, hpanic, hlast⟩

/-- Without one of the panics, the handlers do the same, and maybe more after that. -/
theorem runHandlers_ending {before after : List (Handler α ι)} {h : Handler α ι}
    (hpanic : (h.plan data properties).outcome = .panic) (outcome : Handler.Outcome) :
    (runHandlers (before ++ h :: after) data properties).1 <+:
      (runHandlers (before ++ h.ending outcome :: after) data properties).1 := by
  have hsame (handlers : List (Handler α ι)) :
      List.Forall₂ Task.Milder (handlers.map (Task.begin data properties))
        (handlers.map (Task.begin data properties)) := List.forall₂_same.2 fun t _ => .refl t
  refine runRounds_milder ?_
  rw [List.map_append, List.map_append, List.map_cons, List.map_cons]
  exact List.rel_append (hsame before) (.cons (.ending hpanic outcome) (hsame after))

/-- Whatever happens, the handlers do what all of them do by themselves, in rounds, up to some
point. -/
theorem runHandlers_prefix (handlers : List (Handler α ι)) :
    (runHandlers handlers data properties).1 <+:
      inRounds (handlers.map (actions data properties)) := by
  -- Handlers that never panic do all of it, and these do no more than those.
  have hmilder : List.Forall₂ Task.Milder (handlers.map (Task.begin data properties))
      ((handlers.map Handler.recovering).map (Task.begin data properties)) := by
    rw [List.map_map, List.forall₂_map_left_iff, List.forall₂_map_right_iff]
    exact List.forall₂_same.2 fun h _ => ⟨_, rfl, fun hother => if_neg hother⟩
  have hcalm : ∀ h ∈ handlers.map Handler.recovering,
      (h.plan data properties).outcome ≠ .panic := by
    refine List.forall_mem_map.2 fun h _ => ?_
    show ite _ _ _ ≠ _
    split
    · nofun
    · assumption
  have hall := runHandlers_calm hcalm
  rw [List.map_map] at hall
  have hprefix : (runHandlers handlers data properties).1 <+:
      (runHandlers (handlers.map Handler.recovering) data properties).1 := runRounds_milder hmilder
  rw [hall] at hprefix
  exact hprefix

end Broker
end Courier
