import Courier.Proofs.Mailbox.Limit
import Courier.Proofs.Mailbox.Passes

/-!
# What becomes of a post

A post is decided by three checks in a fixed order: whether the mailbox has been disposed, whether
an event with the same identifier is available or in flight, and whether there is room. A post that
does not pass them leaves no trace but the count of the events for which there was no room; above
all, its identifier stays free.

> `become_post`: what a post can come to, and when.

> `disposed_run`: a mailbox is disposed exactly if a request has asked for it.

> `decided_run`: how a post is decided after any run, and that an event that was turned away is
> accepted later on, when there is room.
-/

namespace Courier.Mailbox

variable {α : Type}

/-! ## One post -/

/-- What becomes of the event `e` when it is posted to `m`. -/
inductive Becomes (m : Mailbox α) (e : Event α) :
    Except Failure (Option Event.Id) → Mailbox α → Prop where
  | disposed (ended : m.disposed = true) : Becomes m e (.error (.disposed .mailbox)) m
  | tracked (running : m.disposed = false) (held : e.id ∈ m.heldIds) :
      Becomes m e (.error (.alreadyTracked e.id)) m
  | turnedAway (running : m.disposed = false) (free : e.id ∉ m.heldIds) (full : m.isFull = true) :
      Becomes m e (.ok none) { m with dropped := m.dropped + 1 }
  | accepted (running : m.disposed = false) (free : e.id ∉ m.heldIds) (room : m.isFull = false) :
      Becomes m e (.ok (some e.id))
        { m with
          available := m.available ++ [e]
          tracked := e.id :: m.tracked
          accepted := m.accepted + 1 }

theorem become_post {m : Mailbox α} (hc : Coherent m) (clock : Clock) (fresh : Event.Id)
    (kind : Event.Kind) (data : α) (supplied : Option Event.Properties) :
    Becomes m (posted clock fresh kind data supplied)
      (m.post clock fresh kind data supplied).1 (m.post clock fresh kind data supplied).2 := by
  have htracked : (posted clock fresh kind data supplied).id ∈ m.tracked ↔
      (posted clock fresh kind data supplied).id ∈ m.heldIds := hc.tracked.mem_iff
  unfold post
  split
  next hdisposed => exact .disposed hdisposed
  next hdisposed =>
    have hrunning : m.disposed = false := by simpa using hdisposed
    dsimp only
    split
    next hmem => exact .tracked hrunning (htracked.1 hmem)
    next hmem =>
      have hfree := fun hheld => hmem (htracked.2 hheld)
      split
      next hfull => exact .turnedAway hrunning hfree hfull
      next hroom => exact .accepted hrunning hfree (by simpa using hroom)

/-- The identifier of a posted event is the one supplied, or else the fresh one. -/
theorem id_posted (clock : Clock) (fresh : Event.Id) (kind : Event.Kind) (data : α)
    (supplied : Option Event.Properties) :
    (posted clock fresh kind data supplied).id = (supplied.map (·.id)).getD fresh := by
  cases supplied <;> rfl

theorem isFull_iff (m : Mailbox α) :
    m.isFull = true ↔
      ∃ limit, m.settings.queueLimit = some limit ∧ limit.toNat ≤ m.available.length := by
  unfold isFull
  cases m.settings.queueLimit with
  | none => simp
  | some limit => simp

/-! ## Disposal in a run -/

theorem disposed_pass (m : Mailbox α) (now : Instant) : (m.pass now).disposed = m.disposed := by
  unfold pass
  split
  next => rfl
  next => rfl

theorem disposed_passes (m : Mailbox α) (limit now : Instant) :
    ((passes α).runUntil limit now m).disposed = m.disposed := by
  have hrun : ∃ _ : Instant, ((passes α).runUntil limit now m).disposed = m.disposed :=
    (passes α).runUntil_invariant (P := fun _ m' => m'.disposed = m.disposed)
      (fun {now d m'} h _ _ => (disposed_pass m' (now.later d)).trans h) rfl
  obtain ⟨_, h⟩ := hrun
  exact h

theorem disposed_serve (s : Session α) (request : Request α) :
    (s.serve request).2.mailbox.disposed = true ↔
      s.mailbox.disposed = true ∨ request = .dispose := by
  by_cases hdispose : request = .dispose
  · subst hdispose
    refine iff_of_true ?_ (.inr rfl)
    show s.mailbox.dispose.disposed = true
    unfold dispose
    split
    next h => exact h
    next => rfl
  · have hsame : (s.serve request).2.mailbox.disposed = s.mailbox.disposed := by
      rcases loop_cases s request with ⟨-, hsame, -⟩ | ⟨nanos, rfl⟩ | rfl
      · exact hsame.disposed
      · exact disposed_passes ..
      · exact absurd rfl hdispose
    rw [hsame]
    exact ⟨.inl, fun h => h.resolve_right hdispose⟩

/-- A mailbox is disposed if it was so before, or if a request has asked for it. -/
theorem disposed_run (s : Session α) (requests : List (Request α)) :
    (s.run requests).2.mailbox.disposed = true ↔
      s.mailbox.disposed = true ∨ .dispose ∈ requests := by
  induction requests generalizing s with
  | nil => exact ⟨.inl, fun h => h.resolve_right List.not_mem_nil⟩
  | cons request rest ih =>
    rw [Session.run_cons, ih, disposed_serve, List.mem_cons, or_assoc, @eq_comm _ _ request]

/-! ## Posts after a run -/

/-- There is no room for another event if `m` has these settings. -/
def NoRoom (settings : QueueSettings) (m : Mailbox α) : Prop :=
  ∃ limit, settings.queueLimit = some limit ∧ limit.toNat ≤ m.available.length

/-- How the post of `e` is decided in the session `t`, which has answered `past`: the answer is
`result`, and the session goes on as `t'`. -/
structure Decided (settings : QueueSettings) (past : List (Request α)) (t : Session α) (e : Event α)
    (result : Except Failure (Option Event.Id)) (t' : Session α) : Prop where
  disposed : result = .error (.disposed .mailbox) ↔ .dispose ∈ past
  tracked : result = .error (.alreadyTracked e.id) ↔
    .dispose ∉ past ∧ e.id ∈ t.mailbox.heldIds
  full : result = .ok none ↔
    .dispose ∉ past ∧ e.id ∉ t.mailbox.heldIds ∧ NoRoom settings t.mailbox
  accepted : result = .ok (some e.id) ↔
    .dispose ∉ past ∧ e.id ∉ t.mailbox.heldIds ∧ ¬ NoRoom settings t.mailbox
  refused : ∀ failure, result = .error failure → t' = t
  turnedAway : result = .ok none →
    t' = { t with mailbox := { t.mailbox with dropped := t.mailbox.dropped + 1 } }
  appended : ∀ id, result = .ok (some id) → id = e.id ∧
    t' = { t with mailbox :=
      { t.mailbox with
        available := t.mailbox.available ++ [e]
        tracked := e.id :: t.mailbox.tracked
        accepted := t.mailbox.accepted + 1 } }
  /-- The identifier of an event that was turned away stays free until it is accepted, and it is
  accepted as soon as there is room. -/
  later : result = .ok none → ∀ requests,
    (∀ x ∈ (t'.run requests).1, ¬ x.happening.accepts e.id) →
      let u := (t'.run requests).2
      e.id ∉ u.mailbox.heldIds ∧
        (.dispose ∉ requests → ¬ NoRoom settings u.mailbox → ∀ fresh kind data supplied,
          (posted u.clock fresh kind data supplied).id = e.id →
            (u.serve (.post fresh kind data supplied)).1 = .posted (.ok (some e.id)))

theorem settings_run {settings : QueueSettings} {s : Session α}
    (h : s.mailbox.settings = settings) (requests : List (Request α)) :
    (s.run requests).2.mailbox.settings = settings := by
  induction requests generalizing s with
  | nil => exact h
  | cons request rest ih =>
    rw [Session.run_cons]
    exact ih ((motion_serve s request).settings.trans h)

/-- A free identifier is accepted as long as the mailbox is not disposed and has room. -/
theorem Coherent.accepts {settings : QueueSettings} {u : Session α} (hc : Coherent u.mailbox)
    (hsettings : u.mailbox.settings = settings) (hrunning : ¬ u.mailbox.disposed = true)
    (hroom : ¬ NoRoom settings u.mailbox) {fresh : Event.Id} {kind : Event.Kind} {data : α}
    {supplied : Option Event.Properties}
    (hfree : (posted u.clock fresh kind data supplied).id ∉ u.mailbox.heldIds) :
    (u.serve (.post fresh kind data supplied)).1 =
      .posted (.ok (some (posted u.clock fresh kind data supplied).id)) := by
  have hbecomes := become_post hc u.clock fresh kind data supplied
  unfold NoRoom at hroom
  rw [← hsettings, ← isFull_iff] at hroom
  simp only [Session.serve]
  generalize u.mailbox.post u.clock fresh kind data supplied = r at hbecomes ⊢
  obtain ⟨result, m'⟩ := r
  cases hbecomes with
  | disposed ended => exact absurd ended hrunning
  | tracked _ held => exact absurd held hfree
  | turnedAway _ _ full => exact absurd full hroom
  | accepted => rfl

/-- A free identifier stays free until it is accepted, and it is accepted as soon as there is
room. -/
theorem later_of_free {settings : QueueSettings} {t : Session α} (hc : Coherent t.mailbox)
    (hsettings : t.mailbox.settings = settings) (hrunning : t.mailbox.disposed = false)
    {id : Event.Id} (hfree : id ∉ t.mailbox.heldIds) (requests : List (Request α))
    (hnone : ∀ x ∈ (t.run requests).1, ¬ x.happening.accepts id) :
    let u := (t.run requests).2
    id ∉ u.mailbox.heldIds ∧
      (.dispose ∉ requests → ¬ NoRoom settings u.mailbox → ∀ fresh kind data supplied,
        (posted u.clock fresh kind data supplied).id = id →
          (u.serve (.post fresh kind data supplied)).1 = .posted (.ok (some id))) := by
  have hstill := (free_run hc hfree requests).2.resolve_left
    fun ⟨x, hx, haccepts⟩ => hnone x hx haccepts
  refine ⟨hstill, fun hrequests hroom fresh kind data supplied hid => ?_⟩
  rw [← hid] at hstill ⊢
  refine (coherent_run hc requests).accepts (settings_run hsettings requests) ?_ hroom hstill
  rw [disposed_run, hrunning]
  exact not_or.2 ⟨Bool.false_ne_true, hrequests⟩

/-- How a post is decided in a session that has answered `past`. -/
theorem Becomes.decided {settings : QueueSettings} {past : List (Request α)} {t : Session α}
    {e : Event α} {result : Except Failure (Option Event.Id)} {m' : Mailbox α}
    (h : Becomes t.mailbox e result m') (hc : Coherent t.mailbox)
    (hsettings : t.mailbox.settings = settings)
    (hdisposed : t.mailbox.disposed = true ↔ .dispose ∈ past) :
    Decided settings past t e result { t with mailbox := m' } := by
  have hroom : t.mailbox.isFull = true ↔ NoRoom settings t.mailbox :=
    hsettings ▸ isFull_iff t.mailbox
  have hlive : t.mailbox.disposed = false → .dispose ∉ past := by
    intro running
    rw [← hdisposed, running]
    exact Bool.false_ne_true
  cases h with
  | disposed ended =>
    have hpast := hdisposed.1 ended
    refine ⟨iff_of_true rfl hpast, iff_of_false nofun fun h => h.1 hpast,
      iff_of_false nofun fun h => h.1 hpast, iff_of_false nofun fun h => h.1 hpast,
      fun _ _ => rfl, nofun, nofun, nofun⟩
  | tracked running held =>
    have hpast := hlive running
    refine ⟨iff_of_false nofun hpast, iff_of_true rfl ⟨hpast, held⟩,
      iff_of_false nofun fun h => h.2.1 held, iff_of_false nofun fun h => h.2.1 held,
      fun _ _ => rfl, nofun, nofun, nofun⟩
  | turnedAway running free full =>
    have hpast := hlive running
    refine ⟨iff_of_false nofun hpast, iff_of_false nofun fun h => free h.2,
      iff_of_true rfl ⟨hpast, free, hroom.1 full⟩,
      iff_of_false nofun fun h => h.2.2 (hroom.1 full), nofun, fun _ => rfl, nofun, ?_⟩
    -- Only the count of dropped events is another one, so the identifier stays free.
    have hc' : Coherent { t.mailbox with dropped := t.mailbox.dropped + 1 } :=
      ⟨hc.distinct, hc.keyed, hc.tracked⟩
    exact fun _ => later_of_free (t := ⟨_, t.clock, t.stream⟩) hc' hsettings running free
  | accepted running free room =>
    have hpast := hlive running
    have hnot : ¬ NoRoom settings t.mailbox := by
      rw [← hroom, room]
      exact Bool.false_ne_true
    refine ⟨iff_of_false nofun hpast, iff_of_false nofun fun h => free h.2,
      iff_of_false nofun fun h => hnot h.2.2, iff_of_true rfl ⟨hpast, free, hnot⟩, nofun, nofun, ?_,
      nofun⟩
    intro id hid
    cases hid
    exact ⟨rfl, rfl⟩

/-- How a post is decided after any run of a new mailbox. -/
theorem decided_run {settings : QueueSettings} {clock : Clock} {s : Session α}
    (h : Session.create settings clock = .ok s) (requests : List (Request α)) (fresh : Event.Id)
    (kind : Event.Kind) (data : α) (supplied : Option Event.Properties) :
    let t := (s.run requests).2
    let e := posted t.clock fresh kind data supplied
    e.id = (supplied.map (·.id)).getD fresh ∧
      ∃ result t', t.serve (.post fresh kind data supplied) = (.posted result, t') ∧
        Decided settings requests t e result t' := by
  have hc := coherent_run (coherent_of_create h) requests
  obtain ⟨loop, rfl⟩ := eq_of_sessionCreate h
  have hdisposed := disposed_run (α := α) ⟨{ settings, loop }, clock, none⟩ requests
  have hsettings := settings_run (α := α) (s := ⟨{ settings, loop }, clock, none⟩) rfl requests
  refine ⟨id_posted .., _, _, rfl, ?_⟩
  refine (become_post hc _ fresh kind data supplied).decided hc hsettings ?_
  rw [hdisposed]
  exact or_iff_right Bool.false_ne_true

/-- With one event waiting, a second one is turned away; as soon as the first one is in flight, the
same post is accepted. -/
theorem decided_run_single :
    ∃ s t t' : Session Nat,
      Session.create single ⟨⟨0⟩, 0⟩ = .ok s ∧
        (s.run [.post (.ofNat 7) ⟨"Order"⟩ 1 none]).2 = t ∧
        t.serve (.post (.ofNat 8) ⟨"Order"⟩ 2 none) = (.posted (.ok none), t') ∧
        Decided single [.post (.ofNat 7) ⟨"Order"⟩ 1 none] t
          (posted t.clock (.ofNat 8) ⟨"Order"⟩ 2 none) (.ok none) t' ∧
        ((t'.run [.takeAny]).2.serve (.post (.ofNat 8) ⟨"Order"⟩ 2 none)).1 =
          .posted (.ok (some (.ofNat 8))) := by
  obtain ⟨-, result, t', hserve, hdecided⟩ := @decided_run Nat single ⟨⟨0⟩, 0⟩ _ rfl
    [.post (.ofNat 7) ⟨"Order"⟩ 1 none] (.ofNat 8) ⟨"Order"⟩ 2 none
  have hresult : Reply.posted (.ok none) = Reply.posted result := congrArg Prod.fst hserve
  obtain rfl : .ok none = result := Reply.posted.inj hresult
  obtain rfl := hdecided.turnedAway rfl
  exact ⟨_, _, _, rfl, rfl, rfl, hdecided, rfl⟩

end Courier.Mailbox
