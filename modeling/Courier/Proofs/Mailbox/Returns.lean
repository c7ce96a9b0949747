import Courier.Proofs.Mailbox.Reorderings

/-!
# What a sweep does

A sweep appends the overdue events to the available ones, by their deadlines and then by their
identifiers, and keeps the records of the others. It can be done in one go, or by collecting the
overdue records, sorting them and returning one event after the other; neither depends on the order
in which the records are listed.

> `foldl_returnOne`: to return events one by one takes away their records and no other.

> `requeued_run`: what a sweep does at any instant after any run.
-/

namespace Courier.Mailbox

variable {α : Type}

/-! ## One by one -/

/-- Returns one event, if it is in flight. -/
def returnOne (m : Mailbox α) (id : Event.Id) : Mailbox α :=
  match m.inFlight.lookup id with
  | none => m
  | some f =>
    { m with available := m.available ++ [f.event], inFlight := m.inFlight.filter (·.1 ≠ id) }

theorem lookup_of_mem {m : Mailbox α} (hkeys : (m.inFlight.map (·.1)).Nodup)
    {entry : Event.Id × InFlight α} (hentry : entry ∈ m.inFlight) :
    m.inFlight.lookup entry.1 = some entry.2 := by
  obtain ⟨front, back, hsplit⟩ := List.append_of_mem hentry
  refine List.lookup_eq_some_iff.2 ⟨front, back, hsplit, fun other hother => ?_⟩
  rw [hsplit, List.map_append] at hkeys
  refine bne_iff_ne.2 fun heq => ?_
  refine List.disjoint_of_nodup_append hkeys (List.mem_map_of_mem hother) ?_
  exact heq ▸ List.mem_map_of_mem List.mem_cons_self

/-- Events that are returned one by one follow each other, and the other records stay. -/
theorem foldl_returnOne {m : Mailbox α} (hkeys : (m.inFlight.map (·.1)).Nodup)
    {entries : List (Event.Id × InFlight α)} (hsub : entries ⊆ m.inFlight)
    (hentries : (entries.map (·.1)).Nodup) :
    entries.foldl (fun m entry => m.returnOne entry.1) m =
      { m with
        available := m.available ++ entries.map (·.2.event)
        inFlight := m.inFlight.filter (·.1 ∉ entries.map (·.1)) } := by
  induction entries generalizing m with
  | nil => simp
  | cons entry rest ih =>
    obtain ⟨hentry, hrest⟩ := List.cons_subset.1 hsub
    obtain ⟨hfirst, hnodup⟩ := List.nodup_cons.1 hentries
    have hreturn : m.returnOne entry.1 =
        { m with
          available := m.available ++ [entry.2.event]
          inFlight := m.inFlight.filter (·.1 ≠ entry.1) } := by
      unfold returnOne
      rw [lookup_of_mem hkeys hentry]
    have hstay : rest ⊆ m.inFlight.filter (·.1 ≠ entry.1) := by
      intro other hother
      refine List.mem_filter.2 ⟨hrest hother, decide_eq_true fun heq => hfirst ?_⟩
      exact List.mem_map.2 ⟨other, hother, heq⟩
    rw [List.foldl_cons, hreturn, ih (hkeys.sublist (List.filter_sublist.map _)) hstay hnodup]
    have hkept : (m.inFlight.filter (·.1 ≠ entry.1)).filter (·.1 ∉ rest.map (·.1)) =
        m.inFlight.filter (·.1 ∉ (entry :: rest).map (·.1)) := by
      rw [List.filter_filter]
      refine List.filter_congr fun other _ => ?_
      rw [← Bool.decide_and, decide_eq_decide, List.map_cons, List.mem_cons, not_or, and_comm]
    rw [hkept, List.append_assoc]
    rfl

/-! ## Collecting and sorting -/

/-- `expired` lists the deadlines and identifiers of the overdue records, sorted. -/
structure Collected (m : Mailbox α) (now : Instant) (expired : List (Instant × Event.Id)) :
    Prop where
  perm : expired.Perm ((m.inFlight.filter (·.2.deadline ≤ now)).map returnKey)
  sorted : expired.Pairwise Precedes

theorem collected_returning (m : Mailbox α) (now : Instant) :
    Collected m now ((m.returning now).map returnKey) :=
  ⟨(List.mergeSort_perm ..).map _, List.pairwise_map.2 (pairwise_returning m now)⟩

/-- However the overdue records are collected and sorted, the result is the order of returns. -/
theorem Collected.eq {m : Mailbox α} {now : Instant} {expired : List (Instant × Event.Id)}
    (h : Collected m now expired) : expired = (m.returning now).map returnKey := by
  have hreturning := collected_returning m now
  exact List.Perm.eq_of_pairwise (fun _ _ _ _ => Precedes.antisymm) h.sorted hreturning.sorted
    (h.perm.trans hreturning.perm.symm)

/-- A record whose key is that of an overdue one is overdue. -/
theorem Coherent.filter_returning {m : Mailbox α} (hc : Coherent m) (now : Instant) :
    m.inFlight.filter (·.1 ∉ (m.returning now).map (·.1)) =
      m.inFlight.filter (fun entry => ! InFlight.isOverdue entry.2 now) := by
  refine List.filter_congr fun entry hentry => ?_
  unfold InFlight.isOverdue
  rw [← decide_not, decide_eq_decide, not_iff_not]
  constructor
  · intro hkey
    obtain ⟨other, hother, heq⟩ := List.mem_map.1 hkey
    obtain ⟨hmem, hdue⟩ := mem_returning.1 hother
    rwa [← List.inj_on_of_nodup_map hc.nodup_keys hmem hentry heq]
  · exact fun hdue => List.mem_map_of_mem (mem_returning.2 ⟨hentry, hdue⟩)

/-- A sweep in one go does what a sweep does that returns one event after the other. -/
theorem Coherent.returnOverdue_eq_foldl {m : Mailbox α} (hc : Coherent m) {now : Instant}
    {expired : List (Instant × Event.Id)} (h : Collected m now expired) :
    m.returnOverdue now =
      (expired.length,
        { expired.foldl (fun m key => m.returnOne key.2) m with
          returned := m.returned + expired.length }) := by
  have hsub : m.returning now ⊆ m.inFlight := fun entry hentry => (mem_returning.1 hentry).1
  rw [returnOverdue_eq, h.eq, List.length_map, List.foldl_map]
  rw [show (fun (m : Mailbox α) entry => m.returnOne (returnKey entry).2) =
    fun m entry => m.returnOne entry.1 from rfl]
  rw [foldl_returnOne hc.nodup_keys hsub (hc.nodup_returning now), hc.filter_returning]

/-- Right after a sweep no event is overdue. -/
theorem returning_returnOverdue (m : Mailbox α) (now : Instant) :
    (m.returnOverdue now).2.returning now = [] := by
  refine List.eq_nil_iff_forall_not_mem.2 fun entry hentry => ?_
  obtain ⟨hmem, hdue⟩ := mem_returning.1 hentry
  have hkept := List.of_mem_filter hmem
  rw [InFlight.isOverdue, decide_eq_true hdue] at hkept
  cases hkept

/-- If nothing is overdue, a sweep does nothing. -/
theorem returnOverdue_of_nil {m : Mailbox α} {now : Instant} (h : m.returning now = []) :
    m.returnOverdue now = (0, m) := by
  have hkept : m.inFlight.filter (fun entry => ! InFlight.isOverdue entry.2 now) = m.inFlight := by
    refine List.filter_eq_self.2 fun entry hentry => ?_
    have hnot : ¬ entry.2.deadline ≤ now := fun hdue =>
      List.not_mem_nil (h ▸ mem_returning.2 ⟨hentry, hdue⟩)
    rw [InFlight.isOverdue, decide_eq_false hnot]
    rfl
  rw [returnOverdue_eq, h, hkept, List.map_nil, List.append_nil]
  rfl

/-! ## Whole runs -/

/-- What a sweep of `m` at `now` does, by the records `back` of the overdue events. -/
structure Requeued (m : Mailbox α) (now : Instant) (back : List (Event.Id × InFlight α)) :
    Prop where
  overdue : ∀ entry, entry ∈ back ↔ entry ∈ m.inFlight ∧ entry.2.deadline ≤ now
  order : back.Pairwise fun a b =>
    a.2.deadline < b.2.deadline ∨ (a.2.deadline = b.2.deadline ∧ a.1 < b.1)
  /-- Whatever the order of the records, these events return and the other records stay. -/
  atOnce : ∀ n, Reordered m n →
    ∃ kept, kept.Perm (m.inFlight.filter (now < ·.2.deadline)) ∧
      n.returnOverdue now =
        (back.length,
          { m with
            available := m.available ++ back.map (·.2.event)
            inFlight := kept
            returned := m.returned + back.length })
  /-- It is the same to collect what is overdue and to return one event after the other. -/
  oneByOne : ∀ n, Reordered m n → (∃ expired, Collected n now expired) ∧
    ∀ expired, Collected n now expired →
      n.returnOverdue now =
        (expired.length,
          { expired.foldl (fun m key => m.returnOne key.2) n with
            returned := n.returned + expired.length })
  /-- A second sweep at the same instant moves nothing. -/
  again : ∀ n, Reordered (m.returnOverdue now).2 n → n.returnOverdue now = (0, n)

theorem Coherent.requeued {m : Mailbox α} (hc : Coherent m) (now : Instant) :
    Requeued m now (m.returning now) := by
  refine ⟨fun _ => mem_returning, ?_, ?_, ?_, ?_⟩
  · have hdistinct := List.pairwise_map.1 (hc.nodup_returning now)
    refine ((pairwise_returning m now).and hdistinct).imp ?_
    rintro a b ⟨hlt | ⟨hdeadline, hle⟩, hne⟩
    · exact .inl hlt
    · refine .inr ⟨hdeadline, Nat.lt_of_le_of_ne hle fun hbits => hne ?_⟩
      exact congrArg Event.Id.mk (BitVec.eq_of_toNat_eq hbits)
  · intro n h
    have hback := h.returning_eq hc now
    obtain ⟨records, hperm, rfl⟩ := h
    refine ⟨records.filter fun entry => ! InFlight.isOverdue entry.2 now, ?_, ?_⟩
    · refine (hperm.filter _).trans (.of_eq (List.filter_congr fun entry _ => ?_))
      unfold InFlight.isOverdue
      rw [← decide_not, decide_eq_decide]
      exact Nat.not_le
    · rw [returnOverdue_eq, hback]
  · exact fun n h => ⟨⟨_, collected_returning n now⟩, fun expired hexpired =>
      (h.coherent hc).returnOverdue_eq_foldl hexpired⟩
  · intro n h
    refine returnOverdue_of_nil ?_
    rw [h.returning_eq (hc.returnOverdue now), returning_returnOverdue]

/-- What a sweep does at any instant after any run of a new mailbox. -/
theorem requeued_run {settings : QueueSettings} {clock : Clock} {s : Session α}
    (h : Session.create settings clock = .ok s) (requests : List (Request α)) (now : Instant) :
    ∃ back, Requeued (s.run requests).2.mailbox now back := by
  exact ⟨_, (coherent_run (coherent_of_create h) requests).requeued now⟩

/-- Of three events in flight two are overdue, and return behind the one that is available. -/
theorem requeued_run_two :
    ∃ s : Session Nat, Session.create plain ⟨⟨0⟩, 0⟩ = .ok s ∧
      let m := (s.run [.post (.ofNat 8) ⟨"Order"⟩ 1 none, .post (.ofNat 7) ⟨"Order"⟩ 2 none,
        .post (.ofNat 3) ⟨"Order"⟩ 3 none, .post (.ofNat 9) ⟨"Order"⟩ 4 none, .takeAny, .takeAny,
        .pass 5, .takeAny]).2.mailbox
      (m.returnOverdue ⟨1000000000⟩).1 = 2 ∧
        (m.returnOverdue ⟨1000000000⟩).2.available.map (fun e => e.id.bits.toNat) = [9, 7, 8] ∧
        ∃ back, Requeued m ⟨1000000000⟩ back :=
  ⟨_, rfl, by decide +kernel, by cbv, @requeued_run Nat plain ⟨⟨0⟩, 0⟩ _ rfl _ _⟩

end Courier.Mailbox
