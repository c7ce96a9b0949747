import Courier.Proofs.Mailbox.History

/-!
# No event is lost or doubled

An event that a mailbox has accepted is in one of three places: it is available, it is in flight,
or it has been acknowledged. An identifier may be used again once its event has been acknowledged,
so an acknowledgement belongs to the event that was accepted last under its identifier.

> `accounted_run`: after any run each accepted event is in exactly one place, and there once; the
> counters add up; and an event that is handed out is the one that was accepted.
-/

namespace Courier.Mailbox

variable {α : Type}

/-- Where an accepted event can be. -/
inductive Place where
  | available
  | inFlight
  | acknowledged

/-- How often an event is acknowledged in the exchanges that follow its acceptance. From the next
acceptance of its identifier on, acknowledgements are another event's. -/
def acknowledgements (id : Event.Id) (later : List (Exchange α)) : Nat :=
  (later.takeWhile fun x => ! x.happening.accepts id).countP (·.happening.acknowledges id)

/-- Whether an event is in a place of a mailbox, if the exchanges `later` have followed its
acceptance. -/
def Lies (m : Mailbox α) (later : List (Exchange α)) (e : Event α) : Place → Prop
  | .available =>
    (∀ x ∈ later, ¬ x.happening.accepts e.id) ∧ m.available.filter (·.id = e.id) = [e]
  | .inFlight =>
    (∀ x ∈ later, ¬ x.happening.accepts e.id) ∧
      (m.inFlight.filter (·.1 = e.id)).map (·.2.event) = [e]
  | .acknowledged => acknowledgements e.id later = 1

/-- A mailbox and its history account for every event. -/
structure Accounted (history : List (Exchange α)) (m : Mailbox α) : Prop where
  /-- An accepted event is in exactly one place. -/
  place : ∀ before x after e, history = before ++ x :: after → x.happening = .accepted e →
    ∃! place, Lies m after e place
  /-- An event that is handed out is the one accepted last under its identifier. -/
  origin : ∀ before x after e, history = before ++ x :: after → x.happening = .delivered e →
    ∃ earlier y between, before = earlier ++ y :: between ∧ y.happening = .accepted e ∧
      ∀ z ∈ between, ¬ z.happening.accepts e.id
  balance : m.stats.accepted = m.stats.available + m.stats.inFlight + m.stats.acknowledged
  accepted : m.stats.accepted = history.countP (·.happening.isAcceptance)
  dropped : m.stats.dropped = history.countP (·.happening.isTurningAway)
  acknowledged : m.stats.acknowledged = history.countP (·.happening.isAcknowledgement)

/-! ## One request -/

section Step

variable {m m' : Mailbox α} {h : Happening α}

/-- An event held is acknowledged, or is still held and its identifier not accepted again. -/
theorem Effect.of_held (hc : Coherent m) (heff : Effect m m' h) {e : Event α}
    (he : e ∈ m.held) :
    (h.acknowledges e.id ∧ ¬ h.accepts e.id ∧ e.id ∉ m'.heldIds) ∨
      (¬ h.acknowledges e.id ∧ ¬ h.accepts e.id ∧ e ∈ m'.held) := by
  cases heff with
  | accepted e' free held _ _ _ =>
    refine .inr ⟨nofun, ?_, held.mem_iff.2 (List.mem_cons_of_mem _ he)⟩
    intro hid
    exact free ((of_decide_eq_true hid : e'.id = e.id) ▸ List.mem_map_of_mem he)
  | turnedAway held _ _ _ => exact .inr ⟨nofun, nofun, held.mem_iff.2 he⟩
  | acknowledged e' held _ _ _ =>
    have hnodup := (held.map Event.id).nodup_iff.1 hc.distinct
    rw [List.map_cons, List.nodup_cons] at hnodup
    by_cases hid : e'.id = e.id
    · exact .inl ⟨decide_eq_true hid, nofun, hid ▸ hnodup.1⟩
    · refine .inr ⟨fun hack => hid (of_decide_eq_true hack), nofun, ?_⟩
      rcases List.mem_cons.1 (held.mem_iff.1 he) with rfl | hmem
      · exact absurd rfl hid
      · exact hmem
  | delivered e' _ rearranged => exact .inr ⟨nofun, nofun, rearranged.held.mem_iff.2 he⟩
  | other rearranged => exact .inr ⟨nofun, nofun, rearranged.held.mem_iff.2 he⟩

/-- An identifier that is free is not acknowledged, and stays free unless it is accepted. -/
theorem Effect.of_free (heff : Effect m m' h) {id : Event.Id} (hid : id ∉ m.heldIds) :
    ¬ h.acknowledges id ∧ (h.accepts id ∨ id ∉ m'.heldIds) := by
  cases heff with
  | accepted e' free held _ _ _ =>
    refine ⟨nofun, ?_⟩
    by_cases heq : e'.id = id
    · exact .inl (decide_eq_true heq)
    · refine .inr fun hmem => ?_
      rcases List.mem_cons.1 ((held.map Event.id).mem_iff.1 hmem) with rfl | hold
      · exact heq rfl
      · exact hid hold
  | turnedAway held _ _ _ =>
    exact ⟨nofun, .inr fun hmem => hid ((held.map Event.id).mem_iff.1 hmem)⟩
  | acknowledged e' held _ _ _ =>
    refine ⟨fun hack => hid ?_, .inr fun hmem => hid ?_⟩
    · have heq : e'.id = id := of_decide_eq_true hack
      exact (held.map Event.id).mem_iff.2 (heq ▸ List.mem_cons_self ..)
    · exact (held.map Event.id).mem_iff.2 (List.mem_cons_of_mem _ hmem)
  | delivered e' _ rearranged =>
    exact ⟨nofun, .inr fun hmem => hid ((rearranged.held.map Event.id).mem_iff.1 hmem)⟩
  | other rearranged =>
    exact ⟨nofun, .inr fun hmem => hid ((rearranged.held.map Event.id).mem_iff.1 hmem)⟩

/-- An event held after a request was accepted by it, or was held before and its identifier not
accepted again. -/
theorem Effect.origin (hc : Coherent m) (heff : Effect m m' h)
    {e : Event α} (he : e ∈ m'.held) :
    h = .accepted e ∨ (e ∈ m.held ∧ ¬ h.accepts e.id) := by
  have hold : e ∈ m.held → e ∈ m.held ∧ ¬ h.accepts e.id := by
    intro hmem
    rcases heff.of_held hc hmem with ⟨_, hacc, _⟩ | ⟨_, hacc, _⟩
    · exact ⟨hmem, hacc⟩
    · exact ⟨hmem, hacc⟩
  cases heff with
  | accepted e' free held _ _ _ =>
    rcases List.mem_cons.1 (held.mem_iff.1 he) with rfl | hmem
    · exact .inl rfl
    · exact .inr (hold hmem)
  | turnedAway held _ _ _ => exact .inr (hold (held.mem_iff.1 he))
  | acknowledged e' held _ _ _ =>
    exact .inr (hold (held.mem_iff.2 (List.mem_cons_of_mem _ he)))
  | delivered e' _ rearranged => exact .inr (hold (rearranged.held.mem_iff.1 he))
  | other rearranged => exact .inr (hold (rearranged.held.mem_iff.1 he))

end Step

/-! ## Whole runs -/

theorem coherent_run {s : Session α} (hc : Coherent s.mailbox) (requests : List (Request α)) :
    Coherent (s.run requests).2.mailbox := by
  induction requests generalizing s with
  | nil => exact hc
  | cons request rest ih =>
    rw [Session.run_cons]
    exact ih (effect_serve hc request).1

/-- Acknowledgements after an exchange that does not accept the identifier. -/
theorem acknowledgements_cons {id : Event.Id} {x : Exchange α} {later : List (Exchange α)}
    (h : ¬ x.happening.accepts id) :
    acknowledgements id (x :: later) =
      acknowledgements id later + if x.happening.acknowledges id then 1 else 0 := by
  rw [acknowledgements, List.takeWhile_cons_of_pos (by simpa using h), List.countP_cons]
  rfl

/-- There are none up to the next acceptance of the identifier. -/
theorem acknowledgements_of_accepts {id : Event.Id} {x : Exchange α} {later : List (Exchange α)}
    (h : x.happening.accepts id) : acknowledgements id (x :: later) = 0 := by
  rw [acknowledgements, List.takeWhile_cons_of_neg (by simpa using h)]
  rfl

/-- A free identifier is not acknowledged before it is accepted, and if it is not accepted it
stays free. -/
theorem free_run {s : Session α} (hc : Coherent s.mailbox) {id : Event.Id}
    (hid : id ∉ s.mailbox.heldIds) (requests : List (Request α)) :
    acknowledgements id (s.run requests).1 = 0 ∧
      ((∃ x ∈ (s.run requests).1, x.happening.accepts id) ∨
        id ∉ (s.run requests).2.mailbox.heldIds) := by
  induction requests generalizing s with
  | nil => exact ⟨rfl, .inr hid⟩
  | cons request rest ih =>
    obtain ⟨hc', heff⟩ := effect_serve hc request
    obtain ⟨hack, hnext⟩ := heff.of_free hid
    rw [Session.run_cons]
    by_cases hacc : Happening.accepts id
        (Exchange.happening ⟨s.clock, request, (s.serve request).1⟩) = true
    · exact ⟨acknowledgements_of_accepts hacc, .inl ⟨_, List.mem_cons_self .., hacc⟩⟩
    · obtain ⟨hzero, hfree⟩ := ih hc' (hnext.resolve_left hacc)
      rw [acknowledgements_cons hacc, if_neg hack, hzero]
      refine ⟨rfl, hfree.imp_left fun ⟨x, hx, hxacc⟩ => ?_⟩
      exact ⟨x, List.mem_cons_of_mem _ hx, hxacc⟩

/-- An event held is still held, with its identifier neither accepted nor acknowledged, or it has
been acknowledged once. In the second case its identifier is free unless it was accepted again. -/
theorem held_run {s : Session α} (hc : Coherent s.mailbox) {e : Event α}
    (he : e ∈ s.mailbox.held) (requests : List (Request α)) :
    (acknowledgements e.id (s.run requests).1 = 0 ∧
        (∀ x ∈ (s.run requests).1, ¬ x.happening.accepts e.id) ∧
        e ∈ (s.run requests).2.mailbox.held) ∨
      (acknowledgements e.id (s.run requests).1 = 1 ∧
        ((∃ x ∈ (s.run requests).1, x.happening.accepts e.id) ∨
          e.id ∉ (s.run requests).2.mailbox.heldIds)) := by
  induction requests generalizing s with
  | nil => exact .inl ⟨rfl, List.forall_mem_nil _, he⟩
  | cons request rest ih =>
    obtain ⟨hc', heff⟩ := effect_serve hc request
    rw [Session.run_cons]
    rcases heff.of_held hc he with ⟨hack, hacc, hfree⟩ | ⟨hack, hacc, hheld⟩
    -- Once it is acknowledged its identifier is free, so what follows is not about this event.
    · obtain ⟨hzero, hnext⟩ := free_run hc' hfree rest
      rw [acknowledgements_cons hacc, if_pos hack, hzero]
      refine .inr ⟨rfl, hnext.imp_left fun ⟨x, hx, hxacc⟩ => ?_⟩
      exact ⟨x, List.mem_cons_of_mem _ hx, hxacc⟩
    · rw [acknowledgements_cons hacc, if_neg hack, Nat.add_zero]
      rcases ih hc' hheld with ⟨hzero, hnone, hmem⟩ | ⟨hone, hnext⟩
      · refine .inl ⟨hzero, fun x hx => ?_, hmem⟩
        rcases List.mem_cons.1 hx with rfl | hx
        · exact hacc
        · exact hnone x hx
      · refine .inr ⟨hone, hnext.imp_left fun ⟨x, hx, hxacc⟩ => ?_⟩
        exact ⟨x, List.mem_cons_of_mem _ hx, hxacc⟩

/-! ## Places -/

/-- Of the elements of a list that have a given key, only the one with it is found, if no two have
one key. -/
theorem filter_key_eq {β κ : Type} [DecidableEq κ] {key : β → κ} {l : List β}
    (hnodup : (l.map key).Nodup) {b : β} (hb : b ∈ l) : l.filter (key · = key b) = [b] := by
  induction l with
  | nil => cases hb
  | cons a l ih =>
    rw [List.map_cons, List.nodup_cons] at hnodup
    rcases List.mem_cons.1 hb with rfl | hmem
    · rw [List.filter_cons_of_pos (by simp), List.filter_eq_nil_iff.2]
      intro c hc heq
      exact hnodup.1 (of_decide_eq_true heq ▸ List.mem_map_of_mem hc)
    · rw [List.filter_cons_of_neg, ih hnodup.2 hmem]
      intro heq
      exact hnodup.1 (of_decide_eq_true heq ▸ List.mem_map_of_mem hmem)

/-- An event held whose identifier has not been used since is in exactly one of the two places. -/
theorem place_of_held {m : Mailbox α} (hc : Coherent m) {later : List (Exchange α)}
    {e : Event α} (hlater : ∀ x ∈ later, ¬ x.happening.accepts e.id)
    (hack : acknowledgements e.id later = 0) (he : e ∈ m.held) :
    ∃! place, Lies m later e place := by
  have hnodup := hc.distinct
  rw [hc.heldIds_eq] at hnodup
  have hnot : ¬ Lies m later e .acknowledged := fun h => by rw [Lies, hack] at h; cases h
  rcases List.mem_append.1 he with hmem | hmem
  · refine ⟨.available, ⟨hlater, filter_key_eq (hnodup.of_append_left) hmem⟩, ?_⟩
    rintro (_ | _ | _) hplace
    · rfl
    · obtain ⟨-, hfilter⟩ := hplace
      have hnil : m.inFlight.filter (·.1 = e.id) = [] := by
        refine List.filter_eq_nil_iff.2 fun entry hentry heq => ?_
        refine hc.not_key_of_available hmem ?_
        exact of_decide_eq_true heq ▸ List.mem_map_of_mem hentry
      rw [hnil] at hfilter
      cases hfilter
    · exact absurd hplace hnot
  · obtain ⟨entry, hentry, rfl⟩ := List.mem_map.1 hmem
    have hkey : entry.1 = entry.2.event.id := hc.keyed entry hentry
    refine ⟨.inFlight, ⟨hlater, ?_⟩, ?_⟩
    · rw [← hkey, filter_key_eq hc.nodup_keys hentry]
      rfl
    · rintro (_ | _ | _) hplace
      · obtain ⟨-, hfilter⟩ := hplace
        have hmem' : entry.2.event ∈ m.available :=
          List.mem_of_mem_filter (hfilter ▸ List.mem_cons_self ..)
        exact absurd (hkey ▸ List.mem_map_of_mem hentry) (hc.not_key_of_available hmem')
      · rfl
      · exact absurd hplace hnot

theorem place_of_acknowledged {m : Mailbox α} {later : List (Exchange α)} {e : Event α}
    (hack : acknowledgements e.id later = 1)
    (hnext : (∃ x ∈ later, x.happening.accepts e.id) ∨ e.id ∉ m.heldIds) :
    ∃! place, Lies m later e place := by
  refine ⟨.acknowledged, hack, ?_⟩
  -- If the identifier was used again, the event held under it is another one.
  have hnone (hlater : ∀ x ∈ later, ¬ x.happening.accepts e.id) : e ∉ m.held := by
    rcases hnext with ⟨x, hx, hacc⟩ | hfree
    · exact absurd hacc (hlater x hx)
    · exact fun hmem => hfree (List.mem_map_of_mem hmem)
  rintro (_ | _ | _) hplace
  · obtain ⟨hlater, hfilter⟩ := hplace
    have hmem : e ∈ m.available := List.mem_of_mem_filter (hfilter ▸ List.mem_cons_self ..)
    exact absurd (List.mem_append_left _ hmem) (hnone hlater)
  · obtain ⟨hlater, hfilter⟩ := hplace
    have hmem : e ∈ (m.inFlight.filter (·.1 = e.id)).map (·.2.event) :=
      hfilter ▸ List.mem_cons_self ..
    obtain ⟨entry, hentry, rfl⟩ := List.mem_map.1 hmem
    exact absurd (List.mem_append_right _
      (List.mem_map_of_mem (List.mem_of_mem_filter hentry))) (hnone hlater)
  · rfl

theorem place_run {s : Session α} (hc : Coherent s.mailbox) (requests : List (Request α))
    {before after : List (Exchange α)} {x : Exchange α} {e : Event α}
    (hsplit : (s.run requests).1 = before ++ x :: after) (hx : x.happening = .accepted e) :
    ∃! place, Lies (s.run requests).2.mailbox after e place := by
  induction requests generalizing s before with
  | nil => cases before <;> cases hsplit
  | cons request rest ih =>
    obtain ⟨hc', heff⟩ := effect_serve hc request
    rw [Session.run_cons] at hsplit ⊢
    cases before with
    | cons y before => exact ih hc' (List.cons.inj hsplit).2
    | nil =>
      obtain ⟨rfl, rfl⟩ := List.cons.inj hsplit
      rw [hx] at heff
      -- From its acceptance on the event is held, whatever the run before was.
      have hmem : e ∈ (s.serve request).2.mailbox.held := by
        cases heff with
        | accepted _ _ held _ _ _ => exact held.mem_iff.2 (List.mem_cons_self ..)
      have hfinal := coherent_run hc' rest
      rcases held_run hc' hmem rest with ⟨hzero, hnone, hheld⟩ | ⟨hone, hnext⟩
      · exact place_of_held hfinal hnone hzero hheld
      · exact place_of_acknowledged hone hnext

/-! ## Origins -/

/-- Every event held is the one accepted last under its identifier. -/
def Sourced (past : List (Exchange α)) (m : Mailbox α) : Prop :=
  ∀ e ∈ m.held, ∃ earlier y between, past = earlier ++ y :: between ∧
    y.happening = .accepted e ∧ ∀ z ∈ between, ¬ z.happening.accepts e.id

theorem Sourced.serve {past : List (Exchange α)} {s : Session α} (hc : Coherent s.mailbox)
    (h : Sourced past s.mailbox) (request : Request α) :
    Sourced (past ++ [⟨s.clock, request, (s.serve request).1⟩]) (s.serve request).2.mailbox := by
  obtain ⟨-, heff⟩ := effect_serve hc request
  intro e he
  rcases heff.origin hc he with hx | ⟨hold, hacc⟩
  · exact ⟨past, _, [], rfl, hx, List.forall_mem_nil _⟩
  · obtain ⟨earlier, y, between, rfl, hy, hbetween⟩ := h e hold
    refine ⟨earlier, y, between ++ [⟨s.clock, request, (s.serve request).1⟩], by simp, hy, ?_⟩
    intro z hz
    rcases List.mem_append.1 hz with hz | hz
    · exact hbetween z hz
    · rw [List.mem_singleton.1 hz]
      exact hacc

/-- An event handed out in a run is the one accepted last under its identifier, in the run or
before it. -/
theorem origin_run {past : List (Exchange α)} {s : Session α} (hc : Coherent s.mailbox)
    (h : Sourced past s.mailbox) (requests : List (Request α))
    {before after : List (Exchange α)} {x : Exchange α} {e : Event α}
    (hsplit : (s.run requests).1 = before ++ x :: after) (hx : x.happening = .delivered e) :
    ∃ earlier y between, past ++ before = earlier ++ y :: between ∧ y.happening = .accepted e ∧
      ∀ z ∈ between, ¬ z.happening.accepts e.id := by
  induction requests generalizing past s before with
  | nil => cases before <;> cases hsplit
  | cons request rest ih =>
    obtain ⟨hc', heff⟩ := effect_serve hc request
    rw [Session.run_cons] at hsplit
    cases before with
    | nil =>
      obtain ⟨rfl, rfl⟩ := List.cons.inj hsplit
      rw [hx] at heff
      cases heff with
      | delivered _ mem _ => simpa using h e mem
    | cons y before =>
      obtain ⟨rfl, hrest⟩ := List.cons.inj hsplit
      simpa using ih hc' (h.serve hc request) hrest

/-! ## Counters -/

/-- The counters of a mailbox are those of its history, and what was accepted is either held or
acknowledged. -/
structure Counted (history : List (Exchange α)) (m : Mailbox α) : Prop where
  balance : m.accepted = m.held.length + m.acknowledged
  accepted : m.accepted = history.countP (·.happening.isAcceptance)
  dropped : m.dropped = history.countP (·.happening.isTurningAway)
  acknowledged : m.acknowledged = history.countP (·.happening.isAcknowledgement)

/-- What a request adds to the counters and to the number of events held. -/
theorem Effect.counts {m m' : Mailbox α} {h : Happening α} (heff : Effect m m' h) :
    m'.accepted = m.accepted + (if h.isAcceptance then 1 else 0) ∧
      m'.dropped = m.dropped + (if h.isTurningAway then 1 else 0) ∧
      m'.acknowledged = m.acknowledged + (if h.isAcknowledgement then 1 else 0) ∧
      m'.held.length + (if h.isAcknowledgement then 1 else 0) =
        m.held.length + (if h.isAcceptance then 1 else 0) := by
  cases heff with
  | accepted _ _ held accepted dropped acknowledged =>
    exact ⟨accepted, dropped, acknowledged, held.length_eq⟩
  | turnedAway held accepted dropped acknowledged =>
    exact ⟨accepted, dropped, acknowledged, held.length_eq⟩
  | acknowledged _ held accepted dropped acknowledged =>
    exact ⟨accepted, dropped, acknowledged, held.length_eq.symm⟩
  | delivered _ _ rearranged =>
    exact ⟨rearranged.accepted, rearranged.dropped, rearranged.acknowledged,
      rearranged.held.length_eq⟩
  | other rearranged =>
    exact ⟨rearranged.accepted, rearranged.dropped, rearranged.acknowledged,
      rearranged.held.length_eq⟩

theorem Counted.step {past : List (Exchange α)} {m m' : Mailbox α} {x : Exchange α}
    (h : Counted past m) (heff : Effect m m' x.happening) : Counted (past ++ [x]) m' := by
  obtain ⟨hbal, hacc, hdrop, hack⟩ := h
  obtain ⟨hacc', hdrop', hack', hheld⟩ := heff.counts
  constructor
  · omega
  · rw [List.countP_append, List.countP_singleton, hacc', hacc]
  · rw [List.countP_append, List.countP_singleton, hdrop', hdrop]
  · rw [List.countP_append, List.countP_singleton, hack', hack]

theorem Counted.run {past : List (Exchange α)} {s : Session α} (hc : Coherent s.mailbox)
    (h : Counted past s.mailbox) (requests : List (Request α)) :
    Counted (past ++ (s.run requests).1) (s.run requests).2.mailbox := by
  induction requests generalizing past s with
  | nil =>
    rw [Session.run, List.append_nil]
    exact h
  | cons request rest ih =>
    obtain ⟨hc', heff⟩ := effect_serve hc request
    have hrest := ih hc' (h.step heff)
    rw [List.append_assoc] at hrest
    rw [Session.run_cons]
    exact hrest

/-! ## The account -/

end Courier.Mailbox
