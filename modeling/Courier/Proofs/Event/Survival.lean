import Courier.Event.Properties
import Courier.Proofs.Event.Identifiers
import Courier.Proofs.Json.Records
import Courier.Proofs.Tables

/-!
# Properties that are written and read again

The properties of an event are read from their text as they were: an identifier of any bits, any
time below the bound, any strings, and headers that are strings or whole numbers of 64 bits, in
whatever order they are printed. Of the six fields all but the identifier and the time may be left
out.

> `conveys_headers`: headers are read as they were, without those that are left out.

> `exists_record_of_wellFormed`: what is left of the record is read field by field.

> `ofDocument?_of_lacking`: whatever the record, it needs an identifier and a time.

> `survives_json`: all of this together, of texts.
-/

namespace Courier.Event.Properties

open Json (Value Document Member Reads Conveys Holds piece)

/-! ## Headers -/

/-- What a header holds here: a string, or a whole number of 64 bits with or without a sign. -/
inductive Plain : Value → Prop
  | text (s : String) : Plain (.string s)
  | whole {n : Int} (hlower : -2 ^ 63 ≤ n) (hupper : n < 2 ^ 64) : Plain (.number (.integer n))

namespace Plain

variable {v : Value}

/-- Nothing can be left out of a plain value. -/
theorem without (h : Plain v) (gone : List String → Bool) : v.without gone = v := by
  cases h <;> rfl

/-- The value is read again, at any depth. -/
theorem exists_document (h : Plain v) :
    ∃ d, Reads v.chars d ∧ ∀ depth, d.value? depth = some v := by
  cases h with
  | text s =>
    refine ⟨_, Json.reads_string s, fun depth => ?_⟩
    rw [Document.value?, Json.string?_map_piece, Option.map_some]
  | whole hlower hupper =>
    refine ⟨_, Json.reads_integer _, fun depth => ?_⟩
    rw [Document.value?, Json.number?_numeral hlower hupper, Option.map_some]

end Plain

variable {headers : List (String × Value)}

/-- Headers can be left out one by one. -/
theorem membersWithout_of_plain (hplain : ∀ header ∈ headers, Plain header.2)
    (gone : List String → Bool) :
    Json.membersWithout gone headers = headers.filter fun header => !gone [header.1] := by
  induction headers with
  | nil => rw [Json.membersWithout, List.filter_nil]
  | cons header headers ih =>
    obtain ⟨hheader, hrest⟩ := List.forall_mem_cons.1 hplain
    obtain ⟨name, value⟩ := header
    rw [Json.membersWithout, hheader.without, ih hrest]
    cases hgone : gone [name] <;> simp [hgone]

/-- Plain headers are read as they were. -/
theorem exists_members (hplain : ∀ header ∈ headers, Plain header.2) :
    ∃ members : List Member, members.map Member.written = headers ∧
      (∀ m ∈ members, Reads m.value.chars m.document) ∧
        ∀ depth, Json.memberValues? depth (members.map Member.read) = some headers := by
  induction headers with
  | nil =>
    refine ⟨[], rfl, List.forall_mem_nil _, fun depth => ?_⟩
    rw [List.map_nil, Json.memberValues?]
  | cons header headers ih =>
    obtain ⟨hheader, hrest⟩ := List.forall_mem_cons.1 hplain
    obtain ⟨members, hwritten, hreads, hvalues⟩ := ih hrest
    obtain ⟨d, hd, hvalue⟩ := hheader.exists_document
    refine ⟨⟨header.1, header.2, d⟩ :: members, ?_, List.forall_mem_cons.2 ⟨hd, hreads⟩,
      fun depth => ?_⟩
    · rw [List.map_cons, hwritten]
      rfl
    · rw [List.map_cons, Member.read, Json.memberValues?, Json.string?_map_piece, hvalue, hvalues]
      rfl

/-- A header with a new name comes last. -/
theorem setEntry_of_notMem {name : String} (h : name ∉ headers.map (·.1)) (value : Value) :
    setEntry name value headers = headers ++ [(name, value)] := by
  induction headers with
  | nil => rfl
  | cons header headers ih =>
    rw [List.map_cons, List.mem_cons, not_or] at h
    rw [setEntry, if_neg (Ne.symm h.1), ih h.2]
    rfl

/-- Headers whose names are not repeated are set one behind the other. -/
theorem foldl_setEntry {front : List (String × Value)}
    (hnodup : ((front ++ headers).map (·.1)).Nodup) :
    headers.foldl (fun headers (name, value) => setEntry name value headers) front =
      front ++ headers := by
  induction headers generalizing front with
  | nil => rw [List.foldl_nil, List.append_nil]
  | cons header headers ih =>
    have happend : front ++ header :: headers = (front ++ [header]) ++ headers := by simp
    have hnew : header.1 ∉ front.map (·.1) := by
      intro hmem
      rw [List.map_append, List.map_cons] at hnodup
      exact List.disjoint_of_nodup_append hnodup hmem List.mem_cons_self
    rw [List.foldl_cons, happend]
    show headers.foldl _ (setEntry header.1 header.2 front) = _
    rw [setEntry_of_notMem hnew]
    exact ih (happend ▸ hnodup)

/-- Headers are read as they were, without those that are left out. -/
theorem conveys_headers (hplain : ∀ header ∈ headers, Plain header.2)
    (hnodup : (headers.map (·.1)).Nodup) (gone : List String → Bool) :
    Conveys ((Value.object headers).without gone) headersOfDocument?
      (headers.filter fun header => !gone [header.1]) := by
  have hleft : ∀ header ∈ headers.filter fun header => !gone [header.1], Plain header.2 :=
    fun header hheader => hplain header (List.mem_filter.1 hheader).1
  have hnames : ((headers.filter fun header => !gone [header.1]).map (·.1)).Nodup :=
    hnodup.sublist (List.filter_sublist.map _)
  obtain ⟨members, hwritten, hreads, hvalues⟩ := exists_members hleft
  refine ⟨.object (members.map Member.read), ?_, ?_⟩
  · rw [Value.without, membersWithout_of_plain hplain, ← hwritten]
    exact Json.reads_object hreads
  · rw [headersOfDocument?, hvalues]
    exact congrArg some (foldl_setEntry hnames)

/-! ## The record -/

/-- Properties that can be written as they are: the time is below the bound, no header is named
twice, and each is a string or a whole number of 64 bits. -/
structure WellFormed (p : Properties) : Prop where
  time : p.createdAtMs < 2 ^ 128
  names : (p.headers.map (·.1)).Nodup
  values : ∀ header ∈ p.headers, Plain header.2

/-- The properties with the fields that are gone absent or empty. -/
def resetting (gone : List String → Bool) (p : Properties) : Properties :=
  { p with
    traceId := if gone ["trace_id"] then none else p.traceId
    source := if gone ["event_source"] then none else p.source
    kindName := if gone ["event_type"] then none else p.kindName
    headers :=
      if gone ["headers"] then []
      else p.headers.filter fun header => !gone ["headers", header.1] }

/-- If nothing is gone, nothing is reset. -/
theorem resetting_nothing (p : Properties) : p.resetting (fun _ => false) = p := by
  cases p
  simp [resetting]

theorem conveys_id (gone : List String → Bool) (id : Id) :
    Conveys ((Value.string id.toString).without gone) idOfDocument? id := by
  refine ⟨_, Json.reads_string id.toString, ?_⟩
  rw [idOfDocument?, Document.text?, Json.string?_map_piece, Option.bind_some, Id.parse?_toString]

theorem conveys_text (gone : List String → Bool) (text : Option String) :
    Conveys ((Value.optional .string text).without gone) (·.optional? (·.text?)) text := by
  have hstring (s : String) : Conveys ((Value.string s).without gone) (·.text?) s :=
    ⟨_, Json.reads_string s, Json.string?_map_piece s⟩
  exact Json.conveys_optional gone rfl hstring text

/-- What is left of the record is read field by field. -/
theorem exists_record_of_wellFormed {p : Properties} (h : p.WellFormed)
    (gone : List String → Bool) :
    ∃ d id createdAtMs traceId source kindName headers,
      Reads (p.toValue.without gone).chars d ∧
        d.fields? fieldNames =
          some [if gone ["event_id"] then none else some id,
            if gone ["event_at_ms"] then none else some createdAtMs,
            traceId, source, kindName, headers] ∧
        idOfDocument? id = some p.id ∧ createdAtMs.naturalBelow? timeBound = some p.createdAtMs ∧
        Holds traceId (·.optional? (·.text?)) (gone ["trace_id"]) p.traceId ∧
        Holds source (·.optional? (·.text?)) (gone ["event_source"]) p.source ∧
        Holds kindName (·.optional? (·.text?)) (gone ["event_type"]) p.kindName ∧
        Holds headers headersOfDocument? (gone ["headers"])
          (p.headers.filter fun header => !gone ["headers", header.1]) := by
  obtain ⟨d₁, hreads₁, h₁⟩ := conveys_id (fun path => gone ("event_id" :: path)) p.id
  obtain ⟨d₂, hreads₂, h₂⟩ :=
    Json.conveys_natural (fun path => gone ("event_at_ms" :: path)) h.time
  obtain ⟨d₃, hreads₃, h₃⟩ := conveys_text (fun path => gone ("trace_id" :: path)) p.traceId
  obtain ⟨d₄, hreads₄, h₄⟩ := conveys_text (fun path => gone ("event_source" :: path)) p.source
  obtain ⟨d₅, hreads₅, h₅⟩ := conveys_text (fun path => gone ("event_type" :: path)) p.kindName
  obtain ⟨d₆, hreads₆, h₆⟩ :=
    conveys_headers h.values h.names fun path => gone ("headers" :: path)
  have hmembers : ∀ m ∈ ([⟨"event_id", .string p.id.toString, d₁⟩,
      ⟨"event_at_ms", .natural p.createdAtMs, d₂⟩,
      ⟨"trace_id", .optional .string p.traceId, d₃⟩,
      ⟨"event_source", .optional .string p.source, d₄⟩,
      ⟨"event_type", .optional .string p.kindName, d₅⟩,
      ⟨"headers", .object p.headers, d₆⟩] : List Member),
      Reads (m.without gone).value.chars m.document := by
    simp only [List.forall_mem_cons]
    exact ⟨hreads₁, hreads₂, hreads₃, hreads₄, hreads₅, hreads₆, List.forall_mem_nil _⟩
  obtain ⟨d, hreads, hfields⟩ :=
    Json.exists_record gone hmembers (by decide : fieldNames.Nodup)
  exact ⟨d, d₁, d₂, _, _, _, _, hreads, hfields, h₁, h₂, Json.holds_ite h₃ _,
    Json.holds_ite h₄ _, Json.holds_ite h₅ _, Json.holds_ite h₆ _⟩

/-- If the identifier and the time are left, so are the properties. -/
theorem conveys_without {p : Properties} (h : p.WellFormed) (gone : List String → Bool)
    (hid : gone ["event_id"] = false) (htime : gone ["event_at_ms"] = false) :
    Conveys (p.toValue.without gone) ofDocument? (p.resetting gone) := by
  obtain ⟨d, id, createdAtMs, traceId, source, kindName, headers, hreads, hfields, h₁, h₂, h₃, h₄,
    h₅, h₆⟩ := exists_record_of_wellFormed h gone
  refine ⟨d, hreads, ?_⟩
  rw [hid, htime] at hfields
  unfold ofDocument?
  rw [hfields]
  rw [if_neg Bool.false_ne_true, if_neg Bool.false_ne_true]
  dsimp only [Option.bind_eq_bind]
  rw [h₁, h₂, h₃, h₄, h₅, h₆]
  rfl

/-- Whatever is left out of the record, it needs an identifier and a time. -/
theorem ofDocument?_of_lacking {d : Document}
    (h : d.hasField fieldNames "event_id" = false ∨ d.hasField fieldNames "event_at_ms" = false) :
    ofDocument? d = none := by
  unfold ofDocument?
  split
  next hfields =>
    -- The identifier is the first field, and the time the second.
    rcases h with h | h
    · cases Json.fields?_of_lacking (by decide) h hfields
    · cases Json.fields?_of_lacking (by decide) h hfields
  next => rfl

/-- What is left of the record, if the identifier or the time is not, is refused. -/
theorem refused_without {p : Properties} (h : p.WellFormed) {gone : List String → Bool}
    (hgone : gone ["event_id"] = true ∨ gone ["event_at_ms"] = true) :
    parse? (p.toValue.without gone).render = none := by
  obtain ⟨d, id, createdAtMs, traceId, source, kindName, headers, hreads, hfields, -⟩ :=
    exists_record_of_wellFormed h gone
  rw [parse?, Json.read?_render hreads, Option.bind_some, ofDocument?, hfields]
  rcases hgone with hgone | hgone
  · rw [hgone]
    rfl
  · rw [hgone]
    cases gone ["event_id"] <;> rfl

/-! ## Texts -/

/-- The same properties: headers count as a map, in which each name stands once. -/
structure Same (q p : Properties) : Prop where
  id : q.id = p.id
  createdAtMs : q.createdAtMs = p.createdAtMs
  traceId : q.traceId = p.traceId
  source : q.source = p.source
  kindName : q.kindName = p.kindName
  names : (q.headers.map (·.1)).Nodup
  headers : ∀ name, q.headers.lookup name = p.headers.lookup name

section Printed

variable {p : Properties} {printed : List (String × Value)}

/-- The order in which headers are printed does not matter to what can be written. -/
theorem WellFormed.printing (h : p.WellFormed) (hprinted : printed.Perm p.headers) :
    WellFormed { p with headers := printed } where
  time := h.time
  names := (hprinted.map _).nodup_iff.2 h.names
  values := fun header hheader => h.values header (hprinted.mem_iff.1 hheader)

/-- Properties stay well formed if some of them are reset. -/
theorem WellFormed.resetting (h : p.WellFormed) (gone : List String → Bool) :
    (p.resetting gone).WellFormed where
  time := h.time
  names := by
    show ((if gone ["headers"] then [] else p.headers.filter _).map _).Nodup
    split
    next => exact List.nodup_nil
    next => exact h.names.sublist (List.filter_sublist.map _)
  values := by
    show ∀ header ∈ if gone ["headers"] then [] else p.headers.filter _, _
    split
    next => exact List.forall_mem_nil _
    next => exact fun header hheader => h.values header (List.mem_filter.1 hheader).1

/-- The order in which headers are written does not matter. -/
theorem same_printing (h : p.WellFormed) (hprinted : printed.Perm p.headers)
    (gone : List String → Bool) :
    Same (resetting gone { p with headers := printed }) (p.resetting gone) := by
  have hheaders : (resetting gone { p with headers := printed }).headers.Perm
      (p.resetting gone).headers := by
    show (if gone ["headers"] then [] else printed.filter _).Perm
      (if gone ["headers"] then [] else p.headers.filter _)
    split
    next => exact .nil
    next => exact hprinted.filter _
  have hnames := ((h.printing hprinted).resetting gone).names
  exact ⟨rfl, rfl, rfl, rfl, rfl, hnames, fun name => lookup_perm hheaders hnames name⟩

end Printed

/-- What becomes of properties that are written and read again. -/
structure Survives (p : Properties) : Prop where
  /-- In whatever order the headers are printed, the same properties are read. -/
  whole : ∀ {printed}, printed.Perm p.headers →
    ∃ q, parse? (toValue { p with headers := printed }).render = some q ∧ Same q p
  /-- If fields or headers are left out, but not the identifier or the time, the same properties
  are read with these absent or empty. -/
  rest : ∀ {printed}, printed.Perm p.headers → ∀ {gone : List String → Bool},
    gone ["event_id"] = false → gone ["event_at_ms"] = false →
      ∃ q, parse? ((toValue { p with headers := printed }).without gone).render = some q ∧
        Same q (p.resetting gone)
  /-- If the identifier or the time is left out, nothing is read. -/
  refused : ∀ {printed}, printed.Perm p.headers → ∀ {gone : List String → Bool},
    gone ["event_id"] = true ∨ gone ["event_at_ms"] = true →
      parse? ((toValue { p with headers := printed }).without gone).render = none
  /-- Nothing is read from any other text either that has no identifier or no time. -/
  needed : ∀ {text d}, Document.read? text = some d →
    d.hasField fieldNames "event_id" = false ∨ d.hasField fieldNames "event_at_ms" = false →
      parse? text = none

/-- Properties survive being written and read again, up to what is left out; without an identifier
or a time there are none. -/
theorem survives_json (p : Properties) (h : p.WellFormed) : Survives p where
  whole := by
    intro printed hprinted
    obtain ⟨d, hreads, hd⟩ := conveys_without (h.printing hprinted) (fun _ => false) rfl rfl
    have hsame := same_printing h hprinted fun _ => false
    rw [Value.without_nothing] at hreads
    rw [resetting_nothing] at hd
    rw [resetting_nothing, resetting_nothing] at hsame
    refine ⟨_, ?_, hsame⟩
    rw [parse?, Json.read?_render hreads, Option.bind_some, hd]
  rest := by
    intro printed hprinted gone hid htime
    obtain ⟨d, hreads, hd⟩ := conveys_without (h.printing hprinted) gone hid htime
    refine ⟨_, ?_, same_printing h hprinted gone⟩
    rw [parse?, Json.read?_render hreads, Option.bind_some, hd]
  refused := fun hprinted => refused_without (h.printing hprinted)
  needed := by
    intro text d hread hlacks
    rw [parse?, hread, Option.bind_some, ofDocument?_of_lacking hlacks]

/-- All bits of the identifier and of the time are set, and the headers are at the bounds of what
whole numbers they can hold; one has no name, and its text needs escapes. -/
def utmost : Properties where
  id := ⟨BitVec.allOnes 128⟩
  createdAtMs := 2 ^ 128 - 1
  source := some "\"süd\"\t\x01"
  headers := [("lowest", .number (.integer (-2 ^ 63))), ("", .string "\\\r\n"),
    ("highest", .number (.integer (2 ^ 64 - 1)))]

theorem survives_json_utmost :
    utmost.WellFormed ∧
      (∃ q, parse? (toValue { utmost with headers := utmost.headers.reverse }).render = some q ∧
        Same q utmost) ∧
      parse? (utmost.toValue.without (decide <| · = ["event_at_ms"])).render = none := by
  have hformed : utmost.WellFormed := by
    refine ⟨by decide, by decide, ?_⟩
    simp only [utmost, List.forall_mem_cons]
    exact ⟨.whole (by decide) (by decide), .text _, .whole (by decide) (by decide),
      List.forall_mem_nil _⟩
  have hsurvives := survives_json utmost hformed
  exact ⟨hformed, hsurvives.whole (List.reverse_perm _),
    hsurvives.refused (.refl _) (Or.inr (by decide))⟩

/-- An array has its fields by position. -/
example : (parse? "[\"00000000-0000-0000-0000-00000000002A\", 7]").map (·.createdAtMs) =
    some 7 := by
  decide +kernel

end Courier.Event.Properties
