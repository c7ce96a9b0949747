import Courier.Proofs.Mailbox.Redelivery
import Mathlib

/-!
# The order in which events return

A sweep returns every event that is overdue, be it that a request asks for it or that the requeue
loop does it. The events return by their deadlines, that is, by the instants at which they were
handed out; and of events that were handed out at one instant, the one with the smaller identifier
comes first, in whatever order they were taken.

> `Trail.sweeps`: what every turn keeps holds before every sweep of a run, of the log so far.

> `swept_run`: in what order two events return, by when they were handed out.

> `swapped_run`: a run in which two events return in the opposite order.
-/

namespace Courier.Mailbox

variable {α : Type}

/-! ## Sweeps -/

/-- A return of all overdue events. -/
structure Sweep (α : Type) where
  /-- What was noted before it. -/
  log : List (Note α)
  instant : Instant
  before : Mailbox α
  after : Mailbox α

/-- The sweeps that the firings of the requeue loop are. -/
def sweepsOf (log : List (Note α)) : List (Instant × Mailbox α) → List (Sweep α)
  | [] => []
  | (t, m) :: rest => ⟨log, t, m, m.pass t⟩ :: sweepsOf (log ++ returns t m) rest

/-- The sweeps while a request is answered. -/
def Session.sweepsIn (s : Session α) (log : List (Note α)) (request : Request α) :
    List (Sweep α) :=
  match request with
  | .returnOverdue =>
    [⟨log, s.clock.monotonic, s.mailbox, (s.serve .returnOverdue).2.mailbox⟩]
  | request => sweepsOf log (s.passesIn request)

/-- The sweeps of a run. -/
def Session.sweeps (s : Session α) (log : List (Note α)) : List (Request α) → List (Sweep α)
  | [] => []
  | request :: rest =>
    s.sweepsIn log request ++ (s.serve request).2.sweeps (log ++ s.notes request) rest

section Trail

variable {settings : QueueSettings} {P : Instant → List (Note α) → Mailbox α → Prop}

/-- What holds of a sweep in a run that keeps `P`. -/
structure Sweep.Within (settings : QueueSettings)
    (P : Instant → List (Note α) → Mailbox α → Prop) (w : Sweep α) : Prop where
  coherent : Coherent w.before
  fixed : w.before.settings = settings
  holds : P w.instant w.log w.before
  available : w.after.available = w.before.available ++ w.before.overdue w.instant

theorem available_pass {m : Mailbox α} {now d : Instant} (h : m.nextPass? = some d) :
    (m.pass now).available = m.available ++ m.overdue now := by
  unfold pass
  split
  next hl =>
    unfold nextPass? at h
    rw [hl] at h
    cases h
  next => rfl

theorem Trail.sweepsOf (hP : Trail settings P) {log : List (Note α)} {limit now : Instant}
    {m : Mailbox α} (hc : Coherent m) (hfixed : m.settings = settings) (h : P now log m) :
    ∀ w ∈ sweepsOf log ((passes α).firings limit now m), w.Within settings P := by
  fun_induction (passes α).firings limit now m generalizing log with
  | case1 => exact List.forall_mem_nil _
  | case2 now m d hdue hd ih =>
    have hlater : now ≤ now.later d := by
      rw [Instant.le_iff, Instant.nanos_later]
      exact Nat.le_max_left _ _
    have hbefore := hP.later hlater h
    have hafter := hP.turned hc hfixed hbefore (turned_pass hdue)
    rw [← returns_eq] at hafter
    refine List.forall_mem_cons.2 ⟨⟨hc, hfixed, hbefore, available_pass hdue⟩, ?_⟩
    exact ih (rearranged_pass hc _).1 ((settings_pass m _).trans hfixed) hafter
  | case3 => exact List.forall_mem_nil _

theorem Trail.sweepsIn (hP : Trail settings P) {log : List (Note α)} {s : Session α}
    (hc : Coherent s.mailbox) (hfixed : s.mailbox.settings = settings)
    (h : P s.clock.monotonic log s.mailbox) (request : Request α) :
    ∀ w ∈ s.sweepsIn log request, w.Within settings P := by
  cases request with
  | returnOverdue =>
    exact List.forall_mem_singleton.2 ⟨hc, hfixed, h, rfl⟩
  | pass nanos => exact hP.sweepsOf hc hfixed h
  | _ => exact List.forall_mem_nil _

/-- What every turn keeps holds before every sweep of a run. -/
theorem Trail.sweeps (hP : Trail settings P) {log : List (Note α)} {s : Session α}
    (hc : Coherent s.mailbox) (hfixed : s.mailbox.settings = settings)
    (h : P s.clock.monotonic log s.mailbox) (requests : List (Request α)) :
    ∀ w ∈ s.sweeps log requests, w.Within settings P := by
  induction requests generalizing log s with
  | nil => exact List.forall_mem_nil _
  | cons request rest ih =>
    refine List.forall_mem_append.2 ⟨hP.sweepsIn hc hfixed h request, ?_⟩
    exact ih (effect_serve hc request).1 ((motion_serve s request).settings.trans hfixed)
      (hP.serve hc hfixed h request)

end Trail

/-! ## When an event in flight was handed out -/

/-- The log tells that `x` was handed out at `t` and `y` after it at `u`, and neither of them again
since. -/
def HandedOutInTurn (log : List (Note α)) (x y : Event α) (t u : Instant) : Prop :=
  ∃ front middle back,
    log = front ++ ⟨t, .delivered x⟩ :: (middle ++ ⟨u, .delivered y⟩ :: back) ∧
      (∀ note ∈ middle ++ ⟨u, .delivered y⟩ :: back, ¬ note.turn.delivers x.id) ∧
      ∀ note ∈ back, ¬ note.turn.delivers y.id

/-- An event is out because the last turn under its identifier was its delivery. -/
theorem Life.Leads.ends_with_delivery {timeout : Span} {life : Life α} {notes : List (Note α)}
    {e : Event α} {t : Instant} (h : Leads timeout life notes (.out e t)) :
    (notes = [] ∧ life = .out e t) ∨ ∃ earlier, notes = earlier ++ [⟨t, .delivered e⟩] := by
  generalize hend : Life.out e t = life' at h
  induction h with
  | nil life =>
    subst hend
    exact .inl ⟨rfl, rfl⟩
  | cons next _ ih =>
    rcases ih hend with ⟨rfl, hlife⟩ | ⟨earlier, rfl⟩
    · rw [hlife, ← hend] at next
      cases next with
      | delivered => exact .inr ⟨[], rfl⟩
    · exact .inr ⟨_ :: earlier, rfl⟩

/-- The deadline of an event in flight counts from its latest delivery. -/
theorem Ordered.deadline_eq {settings : QueueSettings} {now t : Instant} {m : Mailbox α}
    {front back : List (Note α)} {e : Event α}
    (h : Ordered settings now (front ++ ⟨t, .delivered e⟩ :: back) m) (hc : Coherent m)
    (hlatest : ∀ note ∈ back, ¬ note.turn.delivers e.id) {entry : Event.Id × InFlight α}
    (hentry : entry ∈ m.inFlight) (hevent : entry.2.event = e) :
    entry.2.deadline = t.after settings.ackTimeout := by
  obtain ⟨life, hleads, hstands⟩ := h.lives e.id
  obtain ⟨u, rfl, hdeadline⟩ := hstands.of_inFlight hc hentry (hevent ▸ hc.keyed entry hentry)
  have hid : (Turn.delivered e).id = e.id := rfl
  rw [hdeadline]
  rw [about_append, about_cons hid, hevent] at hleads
  rcases hleads.ends_with_delivery with ⟨hnil, -⟩ | ⟨earlier, hsplit⟩
  · cases (List.append_eq_nil_iff.1 hnil).2
  · -- The delivery that ends the turns cannot come after the latest one.
    rcases List.eq_nil_or_concat (about e.id back) with hnone | ⟨rest, last, hrest⟩
    · rw [hnone] at hsplit
      cases (List.append_inj' hsplit rfl).2
      rfl
    · rw [hrest, List.concat_eq_append, ← List.cons_append, ← List.append_assoc] at hsplit
      obtain ⟨-, hlast⟩ := List.append_inj' hsplit rfl
      have hmem : last ∈ about e.id back := by
        rw [hrest]
        simp
      refine absurd ?_ (hlatest last (List.mem_of_mem_filter hmem))
      rw [(List.cons.inj hlast).1]
      exact decide_eq_true rfl

/-- Of two events in flight the log tells which one was handed out first, and when their deadlines
are. -/
theorem Ordered.handedOutInTurn {settings : QueueSettings} {now t u : Instant} {m : Mailbox α}
    {log : List (Note α)} {x y : Event α} (h : Ordered settings now log m) (hc : Coherent m)
    (hturn : HandedOutInTurn log x y t u) {a b : Event.Id × InFlight α} (ha : a ∈ m.inFlight)
    (hb : b ∈ m.inFlight) (hx : a.2.event = x) (hy : b.2.event = y) :
    t ≤ u ∧ x.id ≠ y.id ∧ a.2.deadline = t.after settings.ackTimeout ∧
      b.2.deadline = u.after settings.ackTimeout := by
  obtain ⟨front, middle, back, rfl, hxlatest, hylatest⟩ := hturn
  have hadeadline := h.deadline_eq hc hxlatest ha hx
  rw [← List.cons_append, ← List.append_assoc] at h
  have hbdeadline := h.deadline_eq hc hylatest hb hy
  refine ⟨?_, ?_, hadeadline, hbdeadline⟩
  · exact (List.pairwise_append.1 h.sorted).2.2 ⟨t, .delivered x⟩
      (List.mem_append_right _ List.mem_cons_self) ⟨u, .delivered y⟩ List.mem_cons_self
  · intro hid
    refine hxlatest ⟨u, .delivered y⟩ (List.mem_append_right _ List.mem_cons_self) ?_
    exact decide_eq_true hid.symm

/-! ## The order of returns -/

theorem returnsBefore_iff {a b : Event.Id × InFlight α} :
    returnsBefore a b = true ↔
      a.2.deadline < b.2.deadline ∨ (a.2.deadline = b.2.deadline ∧ a.1 ≤ b.1) :=
  decide_eq_true_iff

theorem returnsBefore_trans (a b c : Event.Id × InFlight α) (hab : returnsBefore a b = true)
    (hbc : returnsBefore b c = true) : returnsBefore a c = true := by
  rw [returnsBefore_iff] at *
  rcases hab with hab | ⟨hab, hid⟩ <;> rcases hbc with hbc | ⟨hbc, hid'⟩
  · exact .inl (Nat.lt_trans hab hbc)
  · exact .inl (hbc ▸ hab)
  · exact .inl (hab ▸ hbc)
  · exact .inr ⟨hab.trans hbc, Nat.le_trans hid hid'⟩

theorem returnsBefore_total (a b : Event.Id × InFlight α) :
    (returnsBefore a b || returnsBefore b a) = true := by
  rw [Bool.or_eq_true, returnsBefore_iff, returnsBefore_iff]
  rcases Nat.lt_trichotomy a.2.deadline.nanos b.2.deadline.nanos with hlt | heq | hlt
  · exact .inl (.inl hlt)
  · have hdeadline : a.2.deadline = b.2.deadline := congrArg Instant.mk heq
    rcases Nat.le_total a.1.bits.toNat b.1.bits.toNat with hid | hid
    · exact .inl (.inr ⟨hdeadline, hid⟩)
    · exact .inr (.inr ⟨hdeadline.symm, hid⟩)
  · exact .inr (.inl hlt)

/-- Of two members of a list one stands before the other. -/
theorem pair_sublist_or {β : Type} {a b : β} {l : List β} (ha : a ∈ l) (hb : b ∈ l)
    (hne : a ≠ b) : [a, b].Sublist l ∨ [b, a].Sublist l := by
  obtain ⟨front, back, rfl⟩ := List.append_of_mem ha
  rcases List.mem_append.1 hb with hfront | hback
  · refine .inr ?_
    exact (List.singleton_sublist.2 hfront).append (List.singleton_sublist.2 List.mem_cons_self)
  · have hmem := (List.mem_cons.1 hback).resolve_left hne.symm
    have hpair := (List.singleton_sublist.2 hmem).cons_cons a
    exact .inl (hpair.trans (List.sublist_append_right front _))

/-- Of two overdue events, the one whose record comes first in the order of returns returns
first. -/
theorem sublist_overdue {m : Mailbox α} {now : Instant} {a b : Event.Id × InFlight α}
    (ha : a ∈ m.inFlight) (hb : b ∈ m.inFlight) (hadue : a.2.deadline ≤ now)
    (hbdue : b.2.deadline ≤ now) (hne : a ≠ b) (hbefore : returnsBefore b a = false) :
    [a.2.event, b.2.event].Sublist (m.overdue now) := by
  unfold overdue
  have hsorted := List.pairwise_mergeSort (returnsBefore_trans (α := α)) returnsBefore_total
    (m.inFlight.filter (InFlight.isOverdue ·.2 now))
  have hmem {entry : Event.Id × InFlight α} (hentry : entry ∈ m.inFlight)
      (hdue : entry.2.deadline ≤ now) :
      entry ∈ (m.inFlight.filter (InFlight.isOverdue ·.2 now)).mergeSort returnsBefore :=
    List.mem_mergeSort.2 (List.mem_filter.2 ⟨hentry, decide_eq_true hdue⟩)
  rcases pair_sublist_or (hmem ha hadue) (hmem hb hbdue) hne with hpair | hpair
  · exact hpair.map (·.2.event)
  · -- The other order would contradict that the records are sorted.
    have hother := List.pairwise_iff_forall_sublist.1 hsorted hpair
    rw [hbefore] at hother
    cases hother

/-! ## Whole runs -/

/-- In what order a sweep of a run returns two events. -/
structure Swept (settings : QueueSettings) (w : Sweep α) : Prop where
  /-- What is returned joins the end of the available events. -/
  available : w.after.available = w.before.available ++ w.before.overdue w.instant
  overdue : ∀ e, e ∈ w.before.overdue w.instant ↔
    ∃ entry ∈ w.before.inFlight, entry.2.deadline ≤ w.instant ∧ entry.2.event = e
  /-- The event that was handed out first returns first, but of events that were handed out at one
  instant the one with the smaller identifier does. -/
  order : ∀ x y t u, HandedOutInTurn w.log x y t u → x ∈ w.before.overdue w.instant →
    y ∈ w.before.overdue w.instant →
      if t = u ∧ y.id < x.id then [y, x].Sublist w.after.available
      else [x, y].Sublist w.after.available

theorem Sweep.Within.swept {settings : QueueSettings} {w : Sweep α}
    (h : w.Within settings (Ordered settings)) : Swept settings w := by
  obtain ⟨hc, -, hordered, havailable⟩ := h
  refine ⟨havailable, fun _ => mem_overdue, ?_⟩
  intro x y t u hturn hx hy
  obtain ⟨a, ha, hadue, rfl⟩ := mem_overdue.1 hx
  obtain ⟨b, hb, hbdue, rfl⟩ := mem_overdue.1 hy
  obtain ⟨hle, hne, hadeadline, hbdeadline⟩ := hordered.handedOutInTurn hc hturn ha hb rfl rfl
  have hpair {x y : Event α} (h : [x, y].Sublist (w.before.overdue w.instant)) :
      [x, y].Sublist w.after.available := by
    rw [havailable]
    exact h.trans (List.sublist_append_right _ _)
  have hentries : a ≠ b := fun heq => hne (by rw [heq])
  split
  next hswap =>
    obtain ⟨rfl, hid⟩ := hswap
    refine hpair (sublist_overdue hb ha hbdue hadue hentries.symm ?_)
    rw [Bool.eq_false_iff, ne_eq, returnsBefore_iff, hc.keyed a ha, hc.keyed b hb, hadeadline,
      hbdeadline]
    rintro (hlt | ⟨-, hle⟩)
    · exact Nat.lt_irrefl _ hlt
    · exact Nat.lt_irrefl _ (Nat.lt_of_lt_of_le hid hle)
  next hkeep =>
    refine hpair (sublist_overdue ha hb hadue hbdue hentries ?_)
    rw [Bool.eq_false_iff, ne_eq, returnsBefore_iff, hc.keyed a ha, hc.keyed b hb, hadeadline,
      hbdeadline]
    rintro (hlt | ⟨heq, hid⟩)
    · exact Nat.lt_irrefl _ (Nat.lt_of_lt_of_le (Nat.lt_of_add_lt_add_right hlt) hle)
    · have hnanos := Nat.add_right_cancel (congrArg Instant.nanos heq.symm)
      refine hkeep ⟨congrArg Instant.mk hnanos, Nat.lt_of_le_of_ne hid ?_⟩
      exact fun hbits => hne (congrArg Event.Id.mk (BitVec.eq_of_toNat_eq hbits)).symm

/-- In every sweep of a run events return by the instants at which they were handed out, and then
by their identifiers. -/
theorem swept_run {settings : QueueSettings} {clock : Clock} {s : Session α}
    (h : Session.create settings clock = .ok s) (requests : List (Request α)) :
    ∀ w ∈ s.sweeps [] requests, Swept settings w := by
  obtain ⟨loop, rfl⟩ := eq_of_sessionCreate h
  intro w hw
  exact ((ordered_trail settings).sweeps (s := ⟨_, clock, none⟩) (coherent_empty settings loop) rfl
    (ordered_empty settings clock.monotonic loop) requests w hw).swept

/-- Two events are handed out at one instant and a third one later; all of them return in one
sweep. -/
theorem swept_run_together :
    ∃ s : Session Nat, Session.create brisk ⟨⟨5⟩, 0⟩ = .ok s ∧
      let requests := [.post (.ofNat 8) ⟨"Order"⟩ 1 none, .post (.ofNat 7) ⟨"Order"⟩ 2 none,
        .post (.ofNat 3) ⟨"Order"⟩ 3 none, .takeAny, .takeAny, .pass 300000000, .takeAny,
        .pass 1200000000]
      (s.sweeps [] requests).map (fun w => w.after.available.map fun e => e.id.bits.toNat) =
          [[], [7, 8, 3]] ∧
        ∀ w ∈ s.sweeps [] requests, Swept brisk w := by
  refine ⟨_, rfl, ?_⟩
  intro requests
  exact ⟨by cbv, @swept_run Nat brisk ⟨⟨5⟩, 0⟩ _ rfl requests⟩

/-- Settings with which events return when they are asked to. -/
def plain : QueueSettings := { ackTimeoutMs := 1000 }

/-- The event with a number that is posted at the beginning. -/
def early (n : Nat) : Event Nat :=
  posted ⟨⟨0⟩, 0⟩ (.ofNat n) ⟨"Order"⟩ n none

/-- Events need not return in the order in which they were handed out: of two that were handed out
at one instant, the second one returns first, because its identifier is smaller. -/
theorem swapped_run :
    ∃ s : Session Nat, Session.create plain ⟨⟨0⟩, 0⟩ = .ok s ∧
      ∃ w ∈ s.sweeps [] [.post (.ofNat 8) ⟨"Order"⟩ 8 none, .post (.ofNat 7) ⟨"Order"⟩ 7 none,
          .takeAny, .takeAny, .pass 1000000000, .returnOverdue],
        HandedOutInTurn w.log (early 8) (early 7) ⟨0⟩ ⟨0⟩ ∧
          early 8 ∈ w.before.overdue w.instant ∧ early 7 ∈ w.before.overdue w.instant ∧
            ¬ [early 8, early 7].Sublist w.after.available := by
  refine ⟨_, rfl, ?_⟩
  generalize hsweeps : Session.sweeps _ _ _ = sweeps
  cbv at hsweeps
  subst hsweeps
  refine ⟨_, List.mem_singleton_self _, ⟨[_, _], [], [], rfl, ?_, List.forall_mem_nil _⟩, ?_, ?_,
    ?_⟩
  · exact List.forall_mem_singleton.2 (by decide)
  · exact mem_overdue.2 ⟨_, List.mem_cons_of_mem _ List.mem_cons_self, Nat.le_refl _, rfl⟩
  · exact mem_overdue.2 ⟨_, List.mem_cons_self, Nat.le_refl _, rfl⟩
  · intro hpair
    have hids := hpair.map fun e => e.id.bits.toNat
    revert hids
    decide

end Courier.Mailbox
