import Courier.Proofs.Collector.Calls
import Courier.Proofs.Collector.History
import Courier.Proofs.Collector.Retries
import Mathlib.Algebra.BigOperators.Group.List.Basic
import Mathlib.Data.List.Defs

/-!
# A cycle hands over chunks

A cycle hands its items over in chunks: first what was staged when it began, then the items of the
backlog that the sink wants, in batches of the most items that one may have. The last batch may be
shorter; if none is, the sink hears at the end that there is nothing to take.

This is so while the sink emits nothing and does not panic over an item. What the sink says of an
item may depend on everything that it was called with before.

> `called_turn`: what one call does then.

> `Filling.again`: the batches so far are chunks, and what is staged begins the next one.

> `judgements_cycle`: what is judged in a cycle are the verdicts of the sink.

> `chunked_cycle`: the batches of a cycle are the chunks of its items, up to the first one that the
> sink fails to take, which is staged when the calls are over.

> `chunked_of_rule`: so they are for the items that a rule wants, if the sink judges by one.
-/

namespace Courier.Collector

variable {α σ : Type}

/-! ## Chunks -/

/-- What is being chunked goes first into the chunk that is being filled. -/
theorem toChunks_go {size : Nat} (hsize : 0 < size) (items : List α) (chunk : Array α)
    (chunks : Array (List α)) (hroom : chunk.size ≤ size) :
    List.toChunks.go size items chunk chunks =
      chunks.toList ++ (chunk.toList ++ items).take size ::
        ((chunk.toList ++ items).drop size).toChunks size := by
  induction items generalizing chunk chunks with
  | nil =>
    rw [List.append_nil, List.take_of_length_le hroom, List.drop_eq_nil_of_le hroom]
    exact Array.toList_push
  | cons item items ih =>
    have hstart : (item :: items).toChunks size = List.toChunks.go size items #[item] #[] := by
      cases size with
      | zero => cases hsize
      | succ n => rfl
    rw [List.toChunks.go]
    split
    next hfull =>
      -- The chunk is full, so the item begins the next one.
      have hlength : chunk.toList.length = size := by simpa using hfull
      show List.toChunks.go size items #[item] (chunks.push chunk.toList) = _
      rw [ih #[item] _ hsize, List.take_left' hlength, List.drop_left' hlength, hstart,
        ih #[item] _ hsize, Array.toList_push, List.append_assoc]
      rfl
    next hnot =>
      have hmore : chunk.size < size := Nat.lt_of_le_of_ne hroom (by simpa using hnot)
      rw [ih (chunk.push item) chunks (by rw [Array.size_push]; exact hmore), Array.toList_push,
        List.append_assoc, List.singleton_append]

/-- The first chunk, and the chunks of what follows it. -/
theorem toChunks_eq {size : Nat} (hsize : 0 < size) {items : List α} (hne : items ≠ []) :
    items.toChunks size = items.take size :: (items.drop size).toChunks size := by
  obtain ⟨item, rest, rfl⟩ := List.exists_cons_of_ne_nil hne
  have hgo := toChunks_go hsize rest #[item] #[] hsize
  cases size with
  | zero => cases hsize
  | succ n => exact hgo

/-- What fits into one chunk is one. -/
theorem toChunks_of_length_le {size : Nat} {items : List α} (hne : items ≠ [])
    (h : items.length ≤ size) : items.toChunks size = [items] := by
  have hsize : 0 < size := Nat.lt_of_lt_of_le (List.length_pos_iff.2 hne) h
  rw [toChunks_eq hsize hne, List.take_of_length_le h, List.drop_eq_nil_of_le h]
  rfl

/-- A full chunk is split off. -/
theorem toChunks_append {size : Nat} (hsize : 0 < size) {chunk : List α}
    (hchunk : chunk.length = size) (items : List α) :
    (chunk ++ items).toChunks size = chunk :: items.toChunks size := by
  have hne : chunk ++ items ≠ [] := by
    intro hnil
    rw [(List.append_eq_nil_iff.1 hnil).1, List.length_nil] at hchunk
    omega
  rw [toChunks_eq hsize hne, List.take_left' hchunk, List.drop_left' hchunk]

/-- Full chunks are split off, however many there are. -/
theorem toChunks_flatten_append {size : Nat} (hsize : 0 < size) {full : List (List α)}
    (hfull : ∀ chunk ∈ full, chunk.length = size) (items : List α) :
    (full.flatten ++ items).toChunks size = full ++ items.toChunks size := by
  induction full with
  | nil => rfl
  | cons chunk full ih =>
    obtain ⟨hchunk, hrest⟩ := List.forall_mem_cons.1 hfull
    rw [List.flatten_cons, List.append_assoc, toChunks_append hsize hchunk, ih hrest,
      List.cons_append]

/-! ## Verdicts -/

/-- The items that the sink wants. -/
def wanted (marked : List (α × Bool)) : List α := (marked.filter Prod.snd).map Prod.fst

/-- What is wanted of two parts is wanted of the whole. -/
@[simp] theorem wanted_append (marked more : List (α × Bool)) :
    wanted (marked ++ more) = wanted marked ++ wanted more := by
  simp [wanted]

/-- The items after the first ones, with `count` wanted items among them. -/
def beyond : Nat → List (α × Bool) → List α
  | 0, marked => marked.map Prod.fst
  | _ + 1, [] => []
  | count + 1, (_, true) :: rest => beyond count rest
  | count + 1, (_, false) :: rest => beyond (count + 1) rest

/-- If the first part has fewer wanted items than that, the rest of them are counted behind it. -/
theorem beyond_append (count : Nat) (marked rest : List (α × Bool)) :
    beyond ((wanted marked).length + (count + 1)) (marked ++ rest) = beyond (count + 1) rest := by
  induction marked with
  | nil =>
    show beyond (0 + (count + 1)) rest = _
    rw [Nat.zero_add]
  | cons mark marked ih =>
    obtain ⟨item, wants⟩ := mark
    cases wants with
    | true =>
      show beyond ((wanted marked).length + 1 + (count + 1)) _ = _
      rw [Nat.add_right_comm]
      exact ih
    | false => exact ih

/-- If the last of the first items is wanted, the others come right after it. -/
theorem beyond_wanted {marked : List (α × Bool)}
    (hlast : ∀ mark ∈ marked.getLast?, mark.2 = true) (rest : List (α × Bool)) :
    beyond (wanted marked).length (marked ++ rest) = rest.map Prod.fst := by
  rcases List.eq_nil_or_concat marked with rfl | ⟨front, ⟨item, wants⟩, rfl⟩
  · show beyond 0 rest = _
    rw [beyond]
  · obtain rfl : wants = true := hlast (item, wants) (by simp)
    rw [List.concat_eq_append, wanted_append, List.length_append, List.append_assoc]
    refine (beyond_append 0 front ((item, true) :: rest)).trans ?_
    rw [beyond, beyond]

/-- The item that the sink judges, and whether it wants it. -/
def Entry.judgement? : Entry α → Option (α × Bool)
  | .kept item => some (item, true)
  | .filtered item => some (item, false)
  | _ => none

/-- The batch that the sink is handed, and what the call comes to. -/
def Entry.batch? : Entry α → Option (List α × Sink.Outcome)
  | .flushed _ batch _ outcome => some (batch, outcome)
  | _ => none

/-- The items that the sink judges, in order. -/
def judgements (entries : List (Entry α)) : List (α × Bool) :=
  entries.reverse.filterMap Entry.judgement?

/-- The batches that the sink is handed, in order. -/
def handedOver (entries : List (Entry α)) : List (List α × Sink.Outcome) :=
  entries.reverse.filterMap Entry.batch?

/-- Judgements are read off a journal part by part. -/
theorem judgements_append (later earlier : List (Entry α)) :
    judgements (later ++ earlier) = judgements earlier ++ judgements later := by
  simp [judgements]

theorem handedOver_append (later earlier : List (Entry α)) :
    handedOver (later ++ earlier) = handedOver earlier ++ handedOver later := by
  simp [handedOver]

/-- The latest entry comes last, if it is a judgement. -/
theorem judgements_cons (entry : Entry α) (earlier : List (Entry α)) :
    judgements (entry :: earlier) = judgements earlier ++ entry.judgement?.toList := by
  cases entry <;> simp [judgements, Entry.judgement?]

theorem handedOver_cons (entry : Entry α) (earlier : List (Entry α)) :
    handedOver (entry :: earlier) = handedOver earlier ++ entry.batch?.toList := by
  cases entry <;> simp [handedOver, Entry.batch?]

/-- The item that the sink judges in an act, and whether it wants it. -/
def Act.judgement? : Act α → Option (α × Bool)
  | .judged _ item _ .keep => some (item, true)
  | .judged _ item _ .discard => some (item, false)
  | _ => none

/-- What is noted of an act says how an item has been judged in it. -/
theorem judgement?_entries (act : Act α) :
    act.entries.filterMap Entry.judgement? = act.judgement?.toList := by
  have hoffers : act.offers.filterMap Entry.judgement? = [] := by
    refine List.filterMap_eq_nil_iff.2 fun entry hentry => ?_
    have hoffer := isOffer_of_mem_offers hentry
    cases entry with
    | kept item => cases hoffer
    | filtered item => cases hoffer
    | _ => rfl
  rw [Act.entries, List.filterMap_append, hoffers, List.nil_append]
  cases act with
  | judged instant item said verdict => cases verdict <;> rfl
  | _ => rfl

/-- The judgements that a journal notes are those of the history that it notes. -/
theorem judgements_of_written {journal : List (Entry α)} {history : List (Act α)}
    (h : written journal = history.flatMap Act.entries) :
    judgements journal = history.filterMap Act.judgement? := by
  have hmarks : judgements journal = (written journal).filterMap Entry.judgement? := by
    unfold judgements written
    rw [List.filterMap_filter]
    refine List.filterMap_congr fun entry _ => ?_
    cases entry <;> rfl
  rw [hmarks, h]
  clear hmarks h
  induction history with
  | nil => rfl
  | cons act history ih =>
    rw [List.flatMap_cons, List.filterMap_append, ih, judgement?_entries, List.filterMap_cons]
    cases act.judgement? <;> rfl

/-! ## One call -/

/-- Neither an offer nor a panic over an item. -/
def Entry.isQuiet (entry : Entry α) : Bool := !entry.isOffer && !entry.isFilterPanic

/-- What a call leaves that is noted in `entry`. -/
structure Leaves (c d : Collector α σ) (staged backlog : List α) (entry : Entry α) : Prop where
  settings : d.settings = c.settings
  staged : d.staged = staged
  backlog : d.backlog.items = backlog
  journal : d.journal = entry :: c.journal

/-- What one call of the sink does if it emits nothing and does not panic over an item. -/
inductive Called (now : Instant) (c : Collector α σ) : Turn α σ → Prop where
  | kept {d : Collector α σ} (item : α) (rest : List α) (room : c.staged.length < c.batchSize)
      (next : c.backlog.items = item :: rest)
      (leaves : Leaves c d (c.staged ++ [item]) rest (.kept item)) : Called now c (.again d)
  | filtered {d : Collector α σ} (item : α) (rest : List α) (room : c.staged.length < c.batchSize)
      (next : c.backlog.items = item :: rest)
      (leaves : Leaves c d c.staged rest (.filtered item)) : Called now c (.again d)
  /-- The sink takes a full batch. -/
  | full {d : Collector α σ} (replies : List Reply) (full : c.batchSize ≤ c.staged.length)
      (leaves : Leaves c d [] c.backlog.items (.flushed now c.staged replies .ok)) :
      Called now c (.again d)
  /-- The sink takes the last batch. -/
  | last {d : Collector α σ} (replies : List Reply) (staged : c.staged ≠ [])
      (room : c.staged.length < c.batchSize) (next : c.backlog.items = [])
      (leaves : Leaves c d [] [] (.flushed now c.staged replies .ok)) :
      Called now c (.ended true d)
  /-- The sink does not take a batch. -/
  | failed {d : Collector α σ} (replies : List Reply) (outcome : Sink.Outcome)
      (fault : outcome ≠ .ok) (staged : c.staged ≠ [])
      (next : c.staged.length < c.batchSize → c.backlog.items = [])
      (leaves : Leaves c d c.staged c.backlog.items (.flushed now c.staged replies outcome)) :
      Called now c (.ended false d)
  /-- The sink hears that there is nothing to take. -/
  | idled {d : Collector α σ} (replies : List Reply) (outcome : Sink.Outcome)
      (staged : c.staged = []) (next : c.backlog.items = [])
      (leaves : Leaves c d [] [] (.idled now replies outcome)) :
      Called now c (.ended (outcome != .panic) d)

/-- If all is quiet, the call itself is all that is noted. -/
theorem Noted.quiet {c d : Collector α σ} {offers : List (Entry α)} {entry : Entry α}
    {staged backlog : List α} (h : Noted c d offers entry staged backlog)
    {entries : List (Entry α)} (hjournal : d.journal = entries ++ c.journal)
    (hquiet : ∀ e ∈ entries, e.isQuiet = true) :
    entry.isQuiet = true ∧ Leaves c d staged backlog entry := by
  rw [h.journal, ← List.cons_append] at hjournal
  obtain rfl := List.append_cancel_right hjournal
  obtain ⟨hentry, hnone⟩ := List.forall_mem_cons.1 hquiet
  obtain rfl : offers = [] := by
    refine List.eq_nil_iff_forall_not_mem.2 fun offer hoffer => ?_
    have hoffered := hnone offer hoffer
    rw [Entry.isQuiet, h.offered offer hoffer] at hoffered
    cases hoffered
  exact ⟨hentry, h.settings, h.staged, h.backlog.trans (List.append_nil _), h.journal⟩

/-- What one call of the sink does, read off what it notes. -/
theorem called_turn {S : Sink α σ} {now : Instant} {c : Collector α σ} {entries : List (Entry α)}
    (hjournal : (turn S now c).collector.journal = entries ++ c.journal)
    (hquiet : ∀ entry ∈ entries, entry.isQuiet = true) : Called now c (turn S now c) := by
  have hcalls := (Conduct.of S).calls_turn now c
  rw [Conduct.of_turn] at hcalls
  generalize turn S now c = called at hcalls hjournal ⊢
  cases hcalls with
  | kept item rest room next noted =>
    exact .kept item rest room next (noted.quiet hjournal hquiet).2
  | filtered item rest room next noted =>
    exact .filtered item rest room next (noted.quiet hjournal hquiet).2
  | panicked item rest room next noted => cases (noted.quiet hjournal hquiet).1
  | full replies full noted => exact .full replies full (noted.quiet hjournal hquiet).2
  | last replies staged room next noted =>
    exact .last replies staged room next (noted.quiet hjournal hquiet).2
  | failed replies outcome fault staged next noted =>
    exact .failed replies outcome fault staged next (noted.quiet hjournal hquiet).2
  | idled replies outcome staged next noted =>
    exact .idled replies outcome staged next (noted.quiet hjournal hquiet).2

/-! ## The calls of a cycle -/

/-- The calls since `w` was staged and `q` was the backlog, while the cycle goes on: the sink has
taken the chunks `done`, all of them full. -/
structure Filling (limit : Nat) (w q : List α) (entries : List (Entry α)) (done : List (List α))
    (c : Collector α σ) : Prop where
  fixed : c.batchSize = limit
  backlog : (judgements entries).map Prod.fst ++ c.backlog.items = q
  items : w ++ wanted (judgements entries) = done.flatten ++ c.staged
  handed : handedOver entries = done.map (·, .ok)
  full : ∀ chunk ∈ done, chunk.length = limit
  room : c.staged.length ≤ limit
  /-- A batch is filled by a wanted item. -/
  filled : c.staged.length = limit → ∀ mark ∈ (judgements entries).getLast?, mark.2 = true
  idles : entries.countP Entry.isIdle = 0

section Filling

variable {now : Instant} {limit : Nat} {w q : List α} {entries : List (Entry α)}
  {done : List (List α)} {c d : Collector α σ}

/-- A call after which the cycle goes on fills the batch further, or begins the next one. -/
theorem Filling.again (h : Filling limit w q entries done c) (hlimit : 0 < limit)
    (hcalled : Called now c (.again d)) :
    ∃ entry done', d.journal = entry :: c.journal ∧
      Filling limit w q (entry :: entries) done' d := by
  have hfixed (hsettings : d.settings = c.settings) : d.batchSize = limit :=
    (congrArg (fun settings : BatchSettings => settings.batchSizeLimit.toNat) hsettings).trans
      h.fixed
  cases hcalled with
  | kept item rest room next leaves =>
    refine ⟨_, done, leaves.journal, ?_⟩
    refine { h with fixed := hfixed leaves.settings, backlog := ?backlog, items := ?items,
                    handed := ?handed, room := ?room, filled := ?filled, idles := h.idles }
    case backlog =>
      rw [← h.backlog, judgements_cons, leaves.backlog, next]
      simp [Entry.judgement?]
    case items =>
      rw [leaves.staged, judgements_cons, wanted_append, ← List.append_assoc, h.items,
        List.append_assoc]
      rfl
    case handed =>
      rw [handedOver_cons, h.handed]
      exact List.append_nil _
    case room =>
      rw [leaves.staged, List.length_append, ← h.fixed]
      exact room
    case filled =>
      intro _ mark hmark
      rw [judgements_cons] at hmark
      simp [Entry.judgement?] at hmark
      rw [← hmark]
  | filtered item rest room next leaves =>
    refine ⟨_, done, leaves.journal, ?_⟩
    refine { h with fixed := hfixed leaves.settings, backlog := ?backlog, items := ?items,
                    handed := ?handed, room := ?room, filled := ?filled, idles := h.idles }
    case backlog =>
      rw [← h.backlog, judgements_cons, leaves.backlog, next]
      simp [Entry.judgement?]
    case items =>
      rw [leaves.staged, judgements_cons, wanted_append, ← h.items]
      simp [Entry.judgement?, wanted]
    case handed =>
      rw [handedOver_cons, h.handed]
      exact List.append_nil _
    case room =>
      rw [leaves.staged]
      exact h.room
    case filled =>
      -- Nothing is staged, and there was room before.
      intro hfull
      rw [leaves.staged, ← h.fixed] at hfull
      exact absurd hfull (Nat.ne_of_lt room)
  | full replies full leaves =>
    have hlength : c.staged.length = limit := Nat.le_antisymm h.room (h.fixed ▸ full)
    refine ⟨_, done ++ [c.staged], leaves.journal, ?_⟩
    refine { fixed := hfixed leaves.settings, backlog := ?backlog, items := ?items,
             handed := ?handed, full := ?chunks, room := ?room, filled := ?filled,
             idles := h.idles }
    case backlog =>
      rw [← h.backlog, judgements_cons, leaves.backlog]
      simp [Entry.judgement?]
    case items =>
      rw [leaves.staged, judgements_cons, wanted_append, ← List.append_assoc, h.items]
      simp [Entry.judgement?, wanted]
    case handed =>
      rw [handedOver_cons, h.handed, List.map_append]
      rfl
    case chunks =>
      intro chunk hchunk
      rcases List.mem_append.1 hchunk with hchunk | hchunk
      · exact h.full chunk hchunk
      · rw [List.mem_singleton.1 hchunk]
        exact hlength
    case room =>
      rw [leaves.staged]
      exact Nat.zero_le _
    case filled =>
      intro hfull
      rw [leaves.staged] at hfull
      exact absurd hfull (Nat.ne_of_lt hlimit)

/-- How a cycle hands its items over: `w` is staged when it begins, and `marked` is the backlog,
each item with whether the sink wants it. There is `d` when the calls are over, and `e` at the end
of the cycle. -/
inductive Chunked (limit : Nat) (w : List α) (marked : List (α × Bool)) (d e : Collector α σ)
    (batches : List (List α × Sink.Outcome)) (idles : Nat) : Prop where
  /-- The sink has taken all chunks. -/
  | finished
      (handed : batches = ((w ++ wanted marked).toChunks limit).map (·, .ok))
      (heard : idles = if (w ++ wanted marked).length % limit = 0 then 1 else 0)
      (staged : d.staged = [] ∧ e.staged = [])
      (backlog : d.backlog.items = [] ∧ e.backlog.items = [])
  /-- The sink has not taken `chunk`. -/
  | failed (before after : List (List α)) (chunk : List α) (outcome : Sink.Outcome)
      (fault : outcome ≠ .ok)
      (chunks : (w ++ wanted marked).toChunks limit = before ++ chunk :: after)
      (handed : batches = before.map (·, .ok) ++ [(chunk, outcome)])
      (heard : idles = 0)
      (staged : d.staged = chunk)
      (backlog : d.backlog.items =
        if chunk.length = limit then beyond ((before.length + 1) * limit - w.length) marked else [])
      (concluded : e = conclude false d)

variable {marked : List (α × Bool)}

/-- What is staged begins the next chunk. -/
theorem Filling.toChunks (h : Filling limit w q entries done c) (hlimit : 0 < limit)
    (rest : List (α × Bool)) :
    (w ++ wanted (judgements entries ++ rest)).toChunks limit =
      done ++ (c.staged ++ wanted rest).toChunks limit := by
  rw [wanted_append, ← List.append_assoc, h.items, List.append_assoc]
  exact toChunks_flatten_append hlimit h.full _

/-- How many items have been staged so far. -/
theorem Filling.length_wanted (h : Filling limit w q entries done c) :
    w.length + (wanted (judgements entries)).length = done.length * limit + c.staged.length := by
  have hfull : done.flatten.length = done.length * limit := by
    rw [List.length_flatten, List.map_congr_left h.full, List.map_const', List.sum_const_nat]
  rw [← hfull, ← List.length_append, ← List.length_append, h.items]

/-- A batch that the sink does not take is the chunk at which the cycle fails. -/
theorem Filling.failed {rest : List (α × Bool)} {replies : List Reply} {outcome : Sink.Outcome}
    {e : Collector α σ} (h : Filling limit w q entries done c) (hlimit : 0 < limit)
    (hrest : rest.map Prod.fst = c.backlog.items) (fault : outcome ≠ .ok) (staged : c.staged ≠ [])
    (next : c.staged.length < c.batchSize → c.backlog.items = [])
    (leaves : Leaves c d c.staged c.backlog.items (.flushed now c.staged replies outcome))
    (concluded : e = conclude false d) :
    Chunked limit w (judgements entries ++ rest) d e
      (handedOver (.flushed now c.staged replies outcome :: entries))
      ((Entry.flushed now c.staged replies outcome :: entries).countP Entry.isIdle) := by
  have hchunks := h.toChunks hlimit rest
  have hhanded : handedOver (.flushed now c.staged replies outcome :: entries) =
      done.map (·, .ok) ++ [(c.staged, outcome)] := by
    rw [handedOver_cons, h.handed]
    rfl
  by_cases hfull : c.staged.length = limit
  · refine .failed done ((wanted rest).toChunks limit) c.staged outcome fault ?_ hhanded h.idles
      leaves.staged ?_ concluded
    · refine hchunks.trans ?_
      exact congrArg _ (toChunks_append hlimit hfull _)
    · have hlength := h.length_wanted
      have hcount : (done.length + 1) * limit - w.length =
          (wanted (judgements entries)).length := by
        rw [Nat.add_mul, Nat.one_mul]
        omega
      rw [if_pos hfull, leaves.backlog, hcount, beyond_wanted (h.filled hfull), hrest]
  · -- A batch that is not full was the last one.
    have hnone := next (h.fixed ▸ Nat.lt_of_le_of_ne h.room hfull)
    obtain rfl := List.map_eq_nil_iff.1 (hrest.trans hnone)
    refine .failed done [] c.staged outcome fault ?_ hhanded h.idles leaves.staged ?_ concluded
    · rw [hchunks]
      show _ ++ (c.staged ++ []).toChunks limit = _
      rw [List.append_nil, toChunks_of_length_le staged h.room]
    · rw [if_neg hfull, leaves.backlog, hnone]

/-- The last call of a cycle. -/
theorem Filling.ended {ok : Bool} (h : Filling limit w q entries done c) (hlimit : 0 < limit)
    (hcalled : Called now c (.ended ok d)) (hmarked : marked.map Prod.fst = q)
    (hverdicts : judgements entries <+: marked) {e : Collector α σ}
    (hconcluded : ok = false → e = conclude false d)
    (hempty : d.staged = [] → d.backlog.items = [] → e.staged = [] ∧ e.backlog.items = []) :
    ∃ entry, d.journal = entry :: c.journal ∧
      Chunked limit w marked d e (handedOver (entry :: entries))
        ((entry :: entries).countP Entry.isIdle) := by
  obtain ⟨rest, rfl⟩ := hverdicts
  have hchunks := h.toChunks hlimit rest
  have hlength := h.length_wanted
  have hrest : rest.map Prod.fst = c.backlog.items := by
    rw [← h.backlog, List.map_append] at hmarked
    exact List.append_cancel_left hmarked
  have hjudged (hnone : c.backlog.items = []) : rest = [] := by
    rw [hnone] at hrest
    exact List.map_eq_nil_iff.1 hrest
  cases hcalled with
  | last replies staged room next leaves =>
    obtain rfl := hjudged next
    obtain ⟨hestaged, hebacklog⟩ := hempty leaves.staged leaves.backlog
    rw [h.fixed] at room
    refine ⟨_, leaves.journal, .finished ?_ ?_ ⟨leaves.staged, hestaged⟩
      ⟨leaves.backlog, hebacklog⟩⟩
    · rw [hchunks, handedOver_cons, h.handed, List.map_append]
      show _ = _ ++ ((c.staged ++ []).toChunks limit).map _
      rw [List.append_nil, toChunks_of_length_le staged (Nat.le_of_lt room)]
      rfl
    · have hpos := List.length_pos_iff.2 staged
      rw [List.append_nil, List.length_append, hlength, Nat.mul_add_mod_of_lt room,
        if_neg (Nat.ne_of_gt hpos)]
      exact h.idles
  | failed replies outcome fault staged next leaves =>
    exact ⟨_, leaves.journal,
      h.failed hlimit hrest fault staged next leaves (hconcluded rfl)⟩
  | idled replies outcome staged next leaves =>
    obtain rfl := hjudged next
    obtain ⟨hestaged, hebacklog⟩ := hempty leaves.staged leaves.backlog
    refine ⟨_, leaves.journal, .finished ?_ ?_ ⟨leaves.staged, hestaged⟩
      ⟨leaves.backlog, hebacklog⟩⟩
    · rw [hchunks, handedOver_cons, h.handed, staged]
      show _ = (done ++ [].toChunks limit).map _
      rw [List.toChunks, List.append_nil]
      exact List.append_nil _
    · -- Nothing is staged, so what was handed over fills whole batches.
      rw [List.append_nil, List.length_append, hlength, staged, List.countP_cons, h.idles]
      simp [Entry.isIdle]

end Filling

/-! ## The cycle -/

/-- What is known of a cycle that goes on: if all has been quiet since it began, the sink has taken
full chunks. -/
def GoesOn (c d : Collector α σ) : Prop :=
  ∃ entries, d.journal = entries ++ c.journal ∧
    ((∀ entry ∈ entries, entry.isQuiet = true) →
      ∃ done, Filling c.batchSize c.staged c.backlog.items entries done d)

/-- At the beginning of a cycle nothing is handed over yet. -/
theorem goesOn_began (now : Instant) (final : Bool) {c : Collector α σ}
    (hroom : c.staged.length ≤ c.batchSize) : GoesOn c (c.note (.cycleBegan now final)) :=
  ⟨[.cycleBegan now final], rfl, fun _ =>
    ⟨[], rfl, rfl, List.append_nil _, rfl, List.forall_mem_nil _, hroom, fun _ => nofun, rfl⟩⟩

/-- A quiet call, seen from the beginning of the cycle. -/
theorem GoesOn.called {c d : Collector α σ} (h : GoesOn c d) (S : Sink α σ) (now : Instant) :
    ∃ before more, d.journal = before ++ c.journal ∧
      (turn S now d).collector.journal = more ++ before ++ c.journal ∧
      ((∀ entry ∈ more ++ before, entry.isQuiet = true) → Called now d (turn S now d) ∧
        ∃ done, Filling c.batchSize c.staged c.backlog.items before done d) := by
  obtain ⟨before, hbefore, hfilling⟩ := h
  obtain ⟨more, hmore, -⟩ := faults_of_turn S now d
  refine ⟨before, more, hbefore, ?_, ?_⟩
  · rw [hmore, hbefore, List.append_assoc]
  · intro hquiet
    obtain ⟨hquiet, hquiet'⟩ := List.forall_mem_append.1 hquiet
    exact ⟨called_turn hmore hquiet, hfilling hquiet'⟩

/-- If the cycle goes on after a call, all that is known goes on with it. -/
theorem GoesOn.again {S : Sink α σ} {now : Instant} {c d e : Collector α σ} (h : GoesOn c d)
    (hturn : turn S now d = .again e) : GoesOn c e := by
  obtain ⟨before, more, hbefore, hjournal, hcalled⟩ := h.called S now
  rw [hturn] at hjournal hcalled
  refine ⟨more ++ before, hjournal, ?_⟩
  intro hquiet
  obtain ⟨hcalled, done, hfilling⟩ := hcalled hquiet
  obtain ⟨entry, done, hentry, hfilling⟩ :=
    hfilling.again (BatchSettings.Valid.batchSizeLimit_pos c.valid) hcalled
  rw [hbefore, ← List.cons_append] at hentry
  rw [List.append_cancel_right (hjournal.symm.trans hentry)]
  exact ⟨done, hfilling⟩

/-- The last call of a quiet cycle, and what has been filled before it. -/
theorem exists_last_call {S : Sink α σ} {now : Instant} {final : Bool} {c d : Collector α σ}
    {ok : Bool} (hwork : work S now (c.note (.cycleBegan now final)) = (ok, d))
    (hroom : c.staged.length ≤ c.batchSize) {entries : List (Entry α)}
    (hjournal : d.journal = entries ++ c.journal)
    (hquiet : ∀ entry ∈ entries, entry.isQuiet = true) :
    ∃ last before more done, entries = more ++ before ∧ last.journal = before ++ c.journal ∧
      Called now last (.ended ok d) ∧
      Filling c.batchSize c.staged c.backlog.items before done last := by
  obtain ⟨last, hlast, hturn⟩ := exists_last_turn S now GoesOn.again (goesOn_began now final hroom)
  rw [hwork] at hturn
  obtain ⟨before, more, hbefore, hmore, hcalled⟩ := hlast.called S now
  rw [hturn] at hmore hcalled
  obtain rfl := List.append_cancel_right (hmore.symm.trans hjournal)
  obtain ⟨hcalled, done, hfilling⟩ := hcalled hquiet
  exact ⟨last, before, more, done, rfl, hbefore, hcalled, hfilling⟩

/-- How a quiet cycle goes until its calls are over. -/
theorem chunked_work {S : Sink α σ} {now : Instant} {final : Bool} {c d e : Collector α σ}
    {ok : Bool} (hwork : work S now (c.note (.cycleBegan now final)) = (ok, d))
    (hroom : c.staged.length ≤ c.batchSize) {entries : List (Entry α)}
    (hjournal : d.journal = entries ++ c.journal)
    (hquiet : ∀ entry ∈ entries, entry.isQuiet = true) {marked : List (α × Bool)}
    (hmarked : marked.map Prod.fst = c.backlog.items) (hverdicts : judgements entries <+: marked)
    (hconcluded : ok = false → e = conclude false d)
    (hempty : d.staged = [] → d.backlog.items = [] → e.staged = [] ∧ e.backlog.items = []) :
    Chunked c.batchSize c.staged marked d e (handedOver entries)
      (entries.countP Entry.isIdle) := by
  obtain ⟨last, before, more, done, rfl, hbefore, hcalled, hfilling⟩ :=
    exists_last_call hwork hroom hjournal hquiet
  rw [judgements_append] at hverdicts
  obtain ⟨entry, hentry, hchunked⟩ :=
    hfilling.ended (BatchSettings.Valid.batchSizeLimit_pos c.valid) hcalled hmarked
      ((List.prefix_append _ _).trans hverdicts) hconcluded hempty
  rw [hbefore, ← List.cons_append] at hentry
  rw [List.append_cancel_right (hjournal.symm.trans hentry)]
  exact hchunked

/-- What a quiet cycle has its sink judge are the first items of the backlog. -/
theorem judged_work {S : Sink α σ} {now : Instant} {final : Bool} {c d : Collector α σ}
    {ok : Bool} (hwork : work S now (c.note (.cycleBegan now final)) = (ok, d))
    (hroom : c.staged.length ≤ c.batchSize) {entries : List (Entry α)}
    (hjournal : d.journal = entries ++ c.journal)
    (hquiet : ∀ entry ∈ entries, entry.isQuiet = true) :
    (judgements entries).map Prod.fst <+: c.backlog.items := by
  obtain ⟨last, before, more, done, rfl, hbefore, hcalled, hfilling⟩ :=
    exists_last_call hwork hroom hjournal hquiet
  obtain ⟨entry, hentry, hnone⟩ :
      ∃ entry, d.journal = entry :: last.journal ∧ entry.judgement? = none := by
    cases hcalled with
    | last replies staged room next leaves => exact ⟨_, leaves.journal, rfl⟩
    | failed replies outcome fault staged next leaves => exact ⟨_, leaves.journal, rfl⟩
    | idled replies outcome staged next leaves => exact ⟨_, leaves.journal, rfl⟩
  rw [hbefore, ← List.cons_append] at hentry
  rw [List.append_cancel_right (hjournal.symm.trans hentry), judgements_cons, hnone]
  exact ⟨last.backlog.items, by rw [← hfilling.backlog]; simp⟩

/-- Whether an entry belongs to the end of a cycle. -/
def Entry.isClosing : Entry α → Bool
  | .cycleFailed | .batchDropped _ | .backlogDropped _ => true
  | _ => false

/-- From `c` to `d` the journal has grown by entries that belong to the end of a cycle. -/
def Closes (c d : Collector α σ) : Prop :=
  ∃ closing, d.journal = closing ++ c.journal ∧ ∀ entry ∈ closing, entry.isClosing = true

theorem Closes.refl (c : Collector α σ) : Closes c c := ⟨[], rfl, List.forall_mem_nil _⟩

/-- One entry more may be noted at the end, if it belongs there. -/
theorem Closes.note {c d e : Collector α σ} {entry : Entry α} (h : Closes c d)
    (hjournal : e.journal = entry :: d.journal) (hentry : entry.isClosing = true) :
    Closes c e := by
  obtain ⟨closing, hclosing, hclosings⟩ := h
  refine ⟨entry :: closing, ?_, List.forall_mem_cons.2 ⟨hentry, hclosings⟩⟩
  rw [hjournal, hclosing, List.cons_append]

/-- The end of a cycle notes only what belongs there. -/
theorem closes_conclude (ok : Bool) (c : Collector α σ) : Closes c (conclude ok c) := by
  have hbatch {d : Collector α σ} (h : Closes c d) : Closes c d.dropBatch := by
    unfold dropBatch
    split
    next => exact h.note rfl rfl
    next => exact h
  have hbacklog {d : Collector α σ} (h : Closes c d) : Closes c d.dropBacklog := by
    unfold dropBacklog
    split
    next => exact h.note rfl rfl
    next => exact h
  cases ok with
  | true => exact hbacklog (hbatch (.refl c))
  | false => exact hbacklog (hbatch ((Closes.refl c).note rfl rfl))

/-- The end of a cycle has no part in what is judged and handed over. -/
theorem views_closing {closing : List (Entry α)}
    (h : ∀ entry ∈ closing, entry.isClosing = true) :
    judgements closing = [] ∧ handedOver closing = [] ∧ closing.countP Entry.isIdle = 0 := by
  have hentry (entry : Entry α) (he : entry.isClosing = true) :
      entry.judgement? = none ∧ entry.batch? = none ∧ entry.isIdle = false := by
    cases entry with
    | cycleFailed => exact ⟨rfl, rfl, rfl⟩
    | batchDropped items => exact ⟨rfl, rfl, rfl⟩
    | backlogDropped items => exact ⟨rfl, rfl, rfl⟩
    | _ => cases he
  refine ⟨?_, ?_, ?_⟩
  · refine List.filterMap_eq_nil_iff.2 fun entry he => ?_
    exact (hentry entry (h entry (List.mem_reverse.1 he))).1
  · refine List.filterMap_eq_nil_iff.2 fun entry he => ?_
    exact (hentry entry (h entry (List.mem_reverse.1 he))).2.1
  · refine List.countP_eq_zero.2 fun entry he => ?_
    rw [(hentry entry (h entry he)).2.2]
    exact Bool.false_ne_true

/-- Where nothing is left, nothing is given up. -/
theorem conclude_empty (ok : Bool) {c : Collector α σ} (hstaged : c.staged = [])
    (hbacklog : c.backlog.items = []) :
    (conclude ok c).staged = [] ∧ (conclude ok c).backlog.items = [] := by
  have hempty {d : Collector α σ} (hd : d.staged = []) (hd' : d.backlog.items = []) :
      d.dropBatch.dropBacklog.staged = [] ∧ d.dropBatch.dropBacklog.backlog.items = [] := by
    have hsame : d.dropBatch = d := if_neg fun hdrop => hdrop.2 hd
    rw [hsame, staged_dropBacklog]
    refine ⟨hd, ?_⟩
    unfold dropBacklog
    split
    next => rfl
    next => exact hd'
  cases ok with
  | true => exact hempty hstaged hbacklog
  | false => exact hempty hstaged hbacklog

/-- What is judged and handed over in a cycle is so in its calls. -/
theorem exists_calls_of_cycle (S : Sink α σ) (now : Instant) (final : Bool) {c : Collector α σ}
    {entries : List (Entry α)} (hjournal : (c.cycle S now final).journal = entries ++ c.journal) :
    ∃ calls, (work S now (c.note (.cycleBegan now final))).2.journal = calls ++ c.journal ∧
      calls <:+ entries ∧ judgements calls = judgements entries ∧
      handedOver calls = handedOver entries ∧
      calls.countP Entry.isIdle = entries.countP Entry.isIdle := by
  obtain ⟨calls, hcalls, -⟩ := faults_of_work S now (c.note (.cycleBegan now final))
  obtain ⟨closing, hclosing, hclosings⟩ :=
    closes_conclude (work S now (c.note (.cycleBegan now final))).1
      (work S now (c.note (.cycleBegan now final))).2
  have hbegan : (work S now (c.note (.cycleBegan now final))).2.journal =
      (calls ++ [.cycleBegan now final]) ++ c.journal := by
    rw [hcalls, List.append_assoc]
    rfl
  rw [cycle_of_work rfl, hclosing, hbegan, ← List.append_assoc] at hjournal
  obtain rfl := List.append_cancel_right hjournal
  obtain ⟨hjudged, hhanded, hidles⟩ := views_closing hclosings
  refine ⟨_, hbegan, List.suffix_append _ _, ?_, ?_, ?_⟩
  · rw [judgements_append closing, hjudged, List.append_nil]
  · rw [handedOver_append closing, hhanded, List.append_nil]
  · refine (List.countP_append.trans ?_).symm
    rw [hidles, Nat.zero_add]

/-- The judgements of a cycle are the verdicts of its sink, each in the state in which the calls
before it have left the sink. -/
theorem judgements_cycle (S : Sink α σ) (now : Instant) (final : Bool) {c : Collector α σ}
    {entries : List (Entry α)} (hjournal : (c.cycle S now final).journal = entries ++ c.journal) :
    let history := Start.history S ⟨now, final, c⟩
    judgements entries = history.filterMap Act.judgement? ∧
      Spoken S c.sink history (c.cycle S now final).sink := by
  have hwritten : Written c (Start.history S ⟨now, final, c⟩) (c.cycle S now final) :=
    (written_chronicle S).cycle ⟨now, final, c⟩
  unfold Written at hwritten
  rw [hjournal, written_append] at hwritten
  exact ⟨judgements_of_written (List.append_cancel_left hwritten),
    (spoken_chronicle S).cycle ⟨now, final, c⟩⟩

/-- A cycle in which the sink emits nothing and does not panic over an item hands over the chunks of
what is staged and what it wants of the backlog, up to the first one that the sink does not take.
What it wants is said by `marked`, which agrees with the sink on every item that it has judged. -/
theorem chunked_cycle (S : Sink α σ) (now : Instant) (final : Bool) {c : Collector α σ}
    (hroom : c.staged.length ≤ c.batchSize) {entries : List (Entry α)}
    (hjournal : (c.cycle S now final).journal = entries ++ c.journal)
    (hquiet : ∀ entry ∈ entries, entry.isQuiet = true) {marked : List (α × Bool)}
    (hmarked : marked.map Prod.fst = c.backlog.items)
    (hverdicts : judgements entries <+: marked) :
    Chunked c.batchSize c.staged marked (work S now (c.note (.cycleBegan now final))).2
      (c.cycle S now final) (handedOver entries) (entries.countP Entry.isIdle) := by
  obtain ⟨calls, hcalls, hsuffix, hjudged, hhanded, hidles⟩ :=
    exists_calls_of_cycle S now final hjournal
  rw [← hhanded, ← hidles]
  refine chunked_work rfl hroom hcalls (fun entry hentry => hquiet entry (hsuffix.subset hentry))
    hmarked (hjudged ▸ hverdicts) ?_ (conclude_empty _)
  intro hfailed
  rw [cycle_of_work rfl, hfailed]

/-- A sink that judges by a rule wants the items that the rule says. -/
theorem Spoken.judgements {S : Sink α σ} {wants : α → Bool}
    (hwants : ∀ s item, (S.judge s item).outcome = if wants item then .keep else .discard)
    {s t : σ} {acts : List (Act α)} (h : Spoken S s acts t) :
    ∀ mark ∈ acts.filterMap Act.judgement?, mark.2 = wants mark.1 := by
  induction h with
  | nil => exact List.forall_mem_nil _
  | @judged s t acts instant item said commands rest ih =>
    rw [hwants, List.filterMap_cons]
    cases hitem : wants item with
    | true => exact List.forall_mem_cons.2 ⟨hitem.symm, ih⟩
    | false => exact List.forall_mem_cons.2 ⟨hitem.symm, ih⟩
  | handed instant batch said commands rest ih => exact ih
  | idled instant said commands rest ih => exact ih
  | @aside s t acts act uncalled rest ih =>
    cases act with
    | judged instant item said verdict => cases uncalled
    | _ => exact ih

/-- A sink that judges by a rule, and emits nothing in the cycle, is handed the chunks of what is
staged and of the items of the backlog that the rule wants. -/
theorem chunked_of_rule (S : Sink α σ) {wants : α → Bool}
    (hwants : ∀ s item, (S.judge s item).outcome = if wants item then .keep else .discard)
    (now : Instant) (final : Bool) {c : Collector α σ} (hroom : c.staged.length ≤ c.batchSize)
    {entries : List (Entry α)}
    (hjournal : (c.cycle S now final).journal = entries ++ c.journal)
    (hquiet : ∀ entry ∈ entries, entry.isQuiet = true) :
    Chunked c.batchSize c.staged (c.backlog.items.map fun item => (item, wants item))
      (work S now (c.note (.cycleBegan now final))).2 (c.cycle S now final) (handedOver entries)
      (entries.countP Entry.isIdle) := by
  obtain ⟨calls, hcalls, hsuffix, hjudged, hhanded, hidles⟩ :=
    exists_calls_of_cycle S now final hjournal
  have hquiet' : ∀ entry ∈ calls, entry.isQuiet = true :=
    fun entry hentry => hquiet entry (hsuffix.subset hentry)
  have hverdicts : judgements calls <+: c.backlog.items.map fun item => (item, wants item) := by
    obtain ⟨hhistory, hspoken⟩ := judgements_cycle S now final hjournal
    -- An item and the verdict about it are the item and what the rule says of it.
    have hmarks : judgements calls =
        ((judgements calls).map Prod.fst).map fun item => (item, wants item) := by
      rw [List.map_map]
      refine (List.map_id _).symm.trans (List.map_congr_left fun mark hmark => ?_)
      rw [hjudged, hhistory] at hmark
      exact Prod.ext rfl (hspoken.judgements hwants mark hmark)
    rw [hmarks]
    exact (judged_work rfl hroom hcalls hquiet').map _
  rw [← hhanded, ← hidles]
  refine chunked_work rfl hroom hcalls hquiet' ?_ hverdicts ?_ (conclude_empty _)
  · rw [List.map_map]
    exact List.map_id _
  · intro hfailed
    rw [cycle_of_work rfl, hfailed]

/-- A collector that has kept a full batch, with a sink that will fail to take the second one that
it is handed. -/
def laden : Collector Nat (Sink.Script Nat) where
  settings := { batchSizeLimit := 2, periodMs := 1000 }
  valid := by decide
  sink := { takes := [⟨[], .ok⟩, ⟨[], .error⟩] }
  backlog := { items := [3, 4, 5, 6, 7] }
  staged := [1, 2]
  failures := 1

/-- A sink that wants odd numbers only. -/
def picky : Sink Nat (Sink.Script Nat) :=
  .scripted fun n => if n % 2 = 1 then .keep else .discard

/-- The batch that `laden` has kept is taken. The next one lies across an item that the sink does
not want, and fails; what comes after it stays in the backlog. -/
theorem chunked_cycle_laden :
    ∃ entries, (laden.cycle picky ⟨0⟩ false).journal = entries ++ laden.journal ∧
      laden.staged.length ≤ laden.batchSize ∧ (∀ entry ∈ entries, entry.isQuiet = true) ∧
      let marked := [(3, true), (4, false), (5, true), (6, false), (7, true)]
      marked.map Prod.fst = laden.backlog.items ∧ judgements entries <+: marked ∧
        handedOver entries = [([1, 2], .ok), ([3, 5], .error)] ∧
        Chunked laden.batchSize laden.staged marked
          (work picky ⟨0⟩ (laden.note (.cycleBegan ⟨0⟩ false))).2 (laden.cycle picky ⟨0⟩ false)
          (handedOver entries) (entries.countP Entry.isIdle) := by
  have hverdicts : judgements (laden.cycle picky ⟨0⟩ false).journal <+:
      [(3, true), (4, false), (5, true), (6, false), (7, true)] := by
    decide +kernel
  refine ⟨_, (List.append_nil _).symm, by decide, by decide +kernel, rfl, hverdicts,
    by decide +kernel, ?_⟩
  exact chunked_cycle picky ⟨0⟩ false (by decide) (List.append_nil _).symm (by decide +kernel) rfl
    hverdicts

end Courier.Collector
