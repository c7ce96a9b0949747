import Courier.Proofs.Mailbox.Sweeps
import Courier.Proofs.Tables

/-!
# Records in any order

The records of the events in flight are kept by identifier; in which order a mailbox lists them is
of no account. A sweep collects what is overdue in that order, but then sorts it, and no two records
are equal under the order of returns: one of two deadlines is earlier, or else one of two
identifiers is smaller.

> `Reordered.returning_eq`: the order in which events return does not depend on the order of the
records.

> `Reordered.run`: mailboxes that list their records in another order answer every run alike.
-/

namespace Courier.Mailbox

variable {α : Type}

/-- `n` is `m` with its records listed in another order. -/
def Reordered (m n : Mailbox α) : Prop :=
  ∃ records, records.Perm m.inFlight ∧ n = { m with inFlight := records }

namespace Reordered

variable {m n o : Mailbox α}

theorem refl (m : Mailbox α) : Reordered m m := ⟨_, .refl _, rfl⟩

theorem symm (h : Reordered m n) : Reordered n m := by
  obtain ⟨records, hperm, rfl⟩ := h
  exact ⟨m.inFlight, hperm.symm, rfl⟩

theorem trans (h : Reordered m n) (h' : Reordered n o) : Reordered m o := by
  obtain ⟨records, hperm, rfl⟩ := h
  obtain ⟨records', hperm', rfl⟩ := h'
  exact ⟨records', hperm'.trans hperm, rfl⟩

/-- What holds of a coherent mailbox does not depend on the order. -/
theorem coherent (h : Reordered m n) (hc : Coherent m) : Coherent n := by
  obtain ⟨records, hperm, rfl⟩ := h
  refine hc.of_perm ?_ (fun entry hentry => hc.keyed entry (hperm.mem_iff.1 hentry)) rfl
  exact (hperm.map _).append_left _

end Reordered

/-! ## The order of returns -/

/-- By what an event in flight returns: its deadline, and then its identifier. -/
def returnKey (entry : Event.Id × InFlight α) : Instant × Event.Id := (entry.2.deadline, entry.1)

/-- The order of returns. -/
def Precedes (a b : Instant × Event.Id) : Prop := a.1 < b.1 ∨ (a.1 = b.1 ∧ a.2 ≤ b.2)

/-- Two events do not precede each other. -/
theorem Precedes.antisymm {a b : Instant × Event.Id} (hab : Precedes a b) (hba : Precedes b a) :
    a = b := by
  rcases hab with hlt | ⟨hdeadline, hle⟩
  · rcases hba with hlt' | ⟨hdeadline, -⟩
    · exact absurd hlt (Nat.lt_asymm hlt')
    · rw [hdeadline] at hlt
      exact absurd hlt (Nat.lt_irrefl _)
  · rcases hba with hlt | ⟨-, hle'⟩
    · rw [hdeadline] at hlt
      exact absurd hlt (Nat.lt_irrefl _)
    · have hbits := BitVec.eq_of_toNat_eq (Nat.le_antisymm hle hle')
      exact Prod.ext hdeadline (congrArg Event.Id.mk hbits)

/-- The records of the overdue events, in the order in which these return. -/
def returning (m : Mailbox α) (now : Instant) : List (Event.Id × InFlight α) :=
  (m.inFlight.filter (InFlight.isOverdue ·.2 now)).mergeSort returnsBefore

/-- What returns is what is in flight and overdue. -/
theorem mem_returning {m : Mailbox α} {now : Instant} {entry : Event.Id × InFlight α} :
    entry ∈ m.returning now ↔ entry ∈ m.inFlight ∧ entry.2.deadline ≤ now := by
  unfold returning
  rw [List.mem_mergeSort, List.mem_filter, InFlight.isOverdue, decide_eq_true_iff]

/-- It returns in order. -/
theorem pairwise_returning (m : Mailbox α) (now : Instant) :
    (m.returning now).Pairwise fun a b => Precedes (returnKey a) (returnKey b) :=
  (List.pairwise_mergeSort returnsBefore_trans returnsBefore_total _).imp returnsBefore_iff.1

/-- No event returns twice. -/
theorem Coherent.nodup_returning {m : Mailbox α} (hc : Coherent m) (now : Instant) :
    ((m.returning now).map (·.1)).Nodup := by
  refine (((List.mergeSort_perm ..).map _).nodup_iff).2 ?_
  exact hc.nodup_keys.sublist (List.filter_sublist.map _)

/-- The order in which events return does not depend on the order of the records. -/
theorem Reordered.returning_eq {m n : Mailbox α} (h : Reordered m n) (hc : Coherent m)
    (now : Instant) : n.returning now = m.returning now := by
  obtain ⟨records, hperm, rfl⟩ := h
  refine List.Perm.eq_of_pairwise ?_ (pairwise_returning _ now) (pairwise_returning m now) ?_
  · intro a b ha hb hab hba
    have ha' := hperm.mem_iff.1 (mem_returning.1 ha).1
    have hb' := (mem_returning.1 hb).1
    exact List.inj_on_of_nodup_map hc.nodup_keys ha' hb' (congrArg Prod.snd (hab.antisymm hba))
  · refine (List.mergeSort_perm ..).trans (List.Perm.trans ?_ (List.mergeSort_perm ..).symm)
    exact hperm.filter _

/-- A sweep appends what returns, in its order. -/
theorem returnOverdue_eq (m : Mailbox α) (now : Instant) :
    m.returnOverdue now =
      ((m.returning now).length,
        { m with
          available := m.available ++ (m.returning now).map (·.2.event)
          inFlight := m.inFlight.filter (fun entry => ! InFlight.isOverdue entry.2 now)
          returned := m.returned + (m.returning now).length }) := by
  unfold returning
  rw [List.length_mergeSort]
  rfl

/-! ## Requests -/

/-- Two operations have the same answer, and afterwards the mailboxes differ in the order of their
records at most. -/
def Alike {β : Type} (x y : β × Mailbox α) : Prop := y.1 = x.1 ∧ Reordered x.2 y.2

/-- A choice between alike results is alike, if it is the same choice. -/
theorem Alike.ite {β : Type} (p : Prop) [Decidable p] {x x' y y' : β × Mailbox α} (h : Alike x y)
    (h' : Alike x' y') : Alike (if p then x else x') (if p then y else y') := by
  split
  next => exact h
  next => exact h'

namespace Reordered

variable {m n : Mailbox α}

/-- An event that is put in flight joins the records of both mailboxes. -/
theorem track (h : Reordered m n) (e : Event α) (now : Instant) :
    Reordered (m.track e now) (n.track e now) := by
  obtain ⟨records, hperm, rfl⟩ := h
  exact ⟨_, (hperm.filter _).cons _, rfl⟩

/-- The available events do not matter. -/
theorem withAvailable (h : Reordered m n) (available : List (Event α)) :
    Reordered { m with available } { n with available } := by
  obtain ⟨records, hperm, rfl⟩ := h
  exact ⟨records, hperm, rfl⟩

theorem withLoop (h : Reordered m n) (loop : Option RequeueLoop) :
    Reordered { m with loop } { n with loop } := by
  obtain ⟨records, hperm, rfl⟩ := h
  exact ⟨records, hperm, rfl⟩

/-- A post has the same answer, whatever the order of the records. -/
theorem post (h : Reordered m n) (clock : Clock) (fresh : Event.Id) (kind : Event.Kind) (data : α)
    (supplied : Option Event.Properties) :
    Alike (m.post clock fresh kind data supplied) (n.post clock fresh kind data supplied) := by
  obtain ⟨records, hperm, rfl⟩ := h
  refine .ite _ ⟨rfl, _, hperm, rfl⟩ (.ite _ ⟨rfl, _, hperm, rfl⟩ ?_)
  exact .ite _ ⟨rfl, _, hperm, rfl⟩ ⟨rfl, _, hperm, rfl⟩

theorem takeAny (h : Reordered m n) (now : Instant) : Alike (m.takeAny now) (n.takeAny now) := by
  have havailable : n.available = m.available := by
    obtain ⟨records, -, rfl⟩ := h
    rfl
  unfold Mailbox.takeAny
  rw [havailable]
  cases m.available with
  | nil => exact ⟨rfl, h⟩
  | cons e rest => exact ⟨rfl, (h.withAvailable rest).track e now⟩

theorem take (h : Reordered m n) (kind : Event.Kind) (now : Instant) :
    Alike (m.take kind now) (n.take kind now) := by
  have havailable : n.available = m.available := by
    obtain ⟨records, -, rfl⟩ := h
    rfl
  unfold Mailbox.take
  rw [havailable]
  cases m.available.find? (·.kind = kind) with
  | none => exact ⟨rfl, h⟩
  | some e =>
    dsimp only
    cases e.ofKind? kind with
    | none => exact ⟨rfl, h⟩
    | some typed => exact ⟨rfl, (h.withAvailable _).track e now⟩

theorem poll (h : Reordered m n) (stream : Stream) (now : Instant) :
    Reordered (stream.poll m now).2.2 (stream.poll n now).2.2 ∧
      (stream.poll n now).1 = (stream.poll m now).1 ∧
      (stream.poll n now).2.1 = (stream.poll m now).2.1 := by
  obtain ⟨hanswer, hmailbox⟩ := h.takeAny now
  unfold Stream.poll
  split
  next => exact ⟨h, rfl, rfl⟩
  next =>
    split
    next => exact ⟨h, rfl, rfl⟩
    next =>
      generalize m.takeAny now = x at hanswer hmailbox ⊢
      generalize n.takeAny now = y at hanswer hmailbox ⊢
      obtain ⟨event, m'⟩ := x
      obtain ⟨event', n'⟩ := y
      cases hanswer
      cases event with
      | none => exact ⟨hmailbox, rfl, rfl⟩
      | some e => exact ⟨hmailbox, rfl, rfl⟩

/-- Records are found by their identifier. -/
theorem lookup (h : Reordered m n) (hc : Coherent m) (id : Event.Id) :
    n.inFlight.lookup id = m.inFlight.lookup id := by
  obtain ⟨records, hperm, rfl⟩ := h
  exact (lookup_perm hperm.symm hc.nodup_keys id).symm

/-- An acknowledgement has the same answer, as records are found by their identifier. -/
theorem acknowledge (h : Reordered m n) (hc : Coherent m) (id : Event.Id) :
    Alike (m.acknowledge id) (n.acknowledge id) := by
  have hlookup := h.lookup hc id
  obtain ⟨records, hperm, rfl⟩ := h
  unfold Mailbox.acknowledge
  rw [hlookup]
  cases m.inFlight.lookup id with
  | none => exact ⟨rfl, records, hperm, rfl⟩
  | some f => exact ⟨rfl, _, hperm.filter _, rfl⟩

/-- A sweep has the same answer, whatever the order. -/
theorem returnOverdue (h : Reordered m n) (hc : Coherent m) (now : Instant) :
    Alike (m.returnOverdue now) (n.returnOverdue now) := by
  rw [returnOverdue_eq, returnOverdue_eq, h.returning_eq hc]
  obtain ⟨records, hperm, rfl⟩ := h
  exact ⟨rfl, _, hperm.filter _, rfl⟩

/-- Deadlines are found by identifier too. -/
theorem deadline? (h : Reordered m n) (hc : Coherent m) (id : Event.Id) :
    n.deadline? id = m.deadline? id := by
  unfold Mailbox.deadline?
  rw [h.lookup hc id]

theorem dispose (h : Reordered m n) : Reordered m.dispose n.dispose := by
  obtain ⟨records, hperm, rfl⟩ := h
  unfold Mailbox.dispose
  by_cases hdisposed : m.disposed = true
  · rw [if_pos hdisposed, if_pos hdisposed]
    exact ⟨records, hperm, rfl⟩
  · rw [if_neg hdisposed, if_neg hdisposed]
    exact ⟨records, hperm, rfl⟩

/-- When the next pass comes does not depend on the records. -/
theorem nextPass? (h : Reordered m n) : n.nextPass? = m.nextPass? := by
  obtain ⟨records, -, rfl⟩ := h
  rfl

/-- A pass returns the same events. -/
theorem pass (h : Reordered m n) (hc : Coherent m) (now : Instant) :
    Reordered (m.pass now) (n.pass now) := by
  have hreturn := (h.returnOverdue hc now).2
  have hloop : n.loop = m.loop := by
    obtain ⟨records, -, rfl⟩ := h
    rfl
  have hdisposed : n.disposed = m.disposed := by
    obtain ⟨records, -, rfl⟩ := h
    rfl
  unfold Mailbox.pass
  rw [hloop]
  cases m.loop with
  | none => exact h
  | some l =>
    dsimp only
    rw [hdisposed]
    exact hreturn.withLoop _

theorem passes (h : Reordered m n) (hc : Coherent m) (limit now : Instant) :
    Reordered ((passes α).runUntil limit now m) ((passes α).runUntil limit now n) := by
  have hdue : (Mailbox.passes α).due n = (Mailbox.passes α).due m := h.nextPass?
  fun_induction (Mailbox.passes α).runUntil limit now m generalizing n with
  | case1 now m hnone =>
    rw [Recurring.runUntil_of_none _ (hdue.trans hnone)]
    exact h
  | case2 now m d hd hle ih =>
    rw [Recurring.runUntil_of_some _ (hdue.trans hd), if_pos hle]
    have hpass := h.pass hc (now.later d)
    exact ih hpass (rearranged_pass hc _).1 hpass.nextPass?
  | case3 now m d hd hle =>
    rw [Recurring.runUntil_of_some _ (hdue.trans hd), if_neg hle]
    exact h

end Reordered

/-- The session with another mailbox in it. -/
def Session.withMailbox (s : Session α) (mailbox : Mailbox α) : Session α := { s with mailbox }

/-- A request to a mailbox that lists its records in another order. -/
theorem Reordered.serve {s : Session α} {n : Mailbox α} (h : Reordered s.mailbox n)
    (hc : Coherent s.mailbox) (request : Request α) :
    ((s.withMailbox n).serve request).1 = (s.serve request).1 ∧
      ∃ n', Reordered (s.serve request).2.mailbox n' ∧
        ((s.withMailbox n).serve request).2 = (s.serve request).2.withMailbox n' := by
  cases request with
  | post fresh kind data supplied =>
    obtain ⟨hanswer, hmailbox⟩ := h.post s.clock fresh kind data supplied
    exact ⟨congrArg Reply.posted hanswer, _, hmailbox, rfl⟩
  | take kind =>
    obtain ⟨hanswer, hmailbox⟩ := h.take kind s.clock.monotonic
    have hevent := congrArg (Option.map Subtype.val) hanswer
    exact ⟨congrArg Reply.taken hevent, _, hmailbox, rfl⟩
  | takeAny =>
    obtain ⟨hanswer, hmailbox⟩ := h.takeAny s.clock.monotonic
    exact ⟨congrArg Reply.taken hanswer, _, hmailbox, rfl⟩
  | acknowledge id =>
    obtain ⟨hanswer, hmailbox⟩ := h.acknowledge hc id
    exact ⟨congrArg Reply.acknowledged hanswer, _, hmailbox, rfl⟩
  | returnOverdue =>
    obtain ⟨hanswer, hmailbox⟩ := h.returnOverdue hc s.clock.monotonic
    exact ⟨congrArg Reply.returned hanswer, _, hmailbox, rfl⟩
  | deadline id => exact ⟨congrArg Reply.deadline (h.deadline? hc id), _, h, rfl⟩
  | dispose => exact ⟨rfl, _, h.dispose, rfl⟩
  | pass nanos => exact ⟨rfl, _, h.passes hc _ _, rfl⟩
  | settings =>
    have hsettings : n.settings = s.mailbox.settings := by
      obtain ⟨records, -, rfl⟩ := h
      rfl
    exact ⟨congrArg Reply.settings hsettings, _, h, rfl⟩
  | openStream => exact ⟨rfl, _, h, rfl⟩
  | cancelStream => exact ⟨rfl, _, h, rfl⟩
  | pollStream =>
    rcases hstream : s.stream with _ | stream
    · simp only [Session.serve, Session.withMailbox, hstream]
      exact ⟨trivial, n, h, rfl⟩
    · obtain ⟨hmailbox, hanswer, hpolled⟩ := h.poll stream s.clock.monotonic
      simp only [Session.serve, Session.withMailbox, hstream, hanswer, hpolled]
      exact ⟨trivial, _, hmailbox, rfl⟩

/-- Every run has the same answers, and the mailboxes differ in the order of their records at
most. -/
theorem Reordered.run {s : Session α} {n : Mailbox α} (h : Reordered s.mailbox n)
    (hc : Coherent s.mailbox) (requests : List (Request α)) :
    ((s.withMailbox n).run requests).1 = (s.run requests).1 ∧
      ∃ n', Reordered (s.run requests).2.mailbox n' ∧
        ((s.withMailbox n).run requests).2 = (s.run requests).2.withMailbox n' := by
  induction requests generalizing s n with
  | nil => exact ⟨rfl, n, h, rfl⟩
  | cons request rest ih =>
    obtain ⟨hreply, n', hn', hnext⟩ := h.serve hc request
    obtain ⟨hhistory, hrest⟩ := ih hn' (effect_serve hc request).1
    rw [Session.run_cons, Session.run_cons, hnext, hreply, hhistory]
    exact ⟨rfl, hrest⟩

end Courier.Mailbox
