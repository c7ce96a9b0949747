import Courier.Proofs.Json.Reading
import Courier.Proofs.Tables
import Mathlib.Data.List.Nodup

/-!
# Records with fields left out

`Value.without` leaves members of objects out, at any depth: whether a member is gone may depend on
its whole path. `Conveys` says what a value stands for when it is read again.

> `fields?_table`: the fields of a record are looked up.

> `exists_record`: what is left of a record is read field by field, and what is gone as left out.

> `exists_fields`: the same for a record of four fields, with what the fields stand for.
-/

namespace Courier.Json

/-! ## Leaving members out -/

mutual

/-- The value without the members whose path is gone. -/
def Value.without (gone : List String → Bool) : Value → Value
  | .object members => .object (membersWithout gone members)
  | .null => .null
  | .bool b => .bool b
  | .number n => .number n
  | .string s => .string s
  | .array items => .array items

/-- The members of an object whose path is not gone, each without those of its own. -/
def membersWithout (gone : List String → Bool) : List (String × Value) → List (String × Value)
  | [] => []
  | (name, value) :: rest =>
    if gone [name] then membersWithout gone rest
    else (name, value.without fun path => gone (name :: path)) :: membersWithout gone rest

end

mutual

theorem Value.without_nothing (v : Value) : v.without (fun _ => false) = v := by
  cases v with
  | object members => rw [Value.without, membersWithout_nothing members]
  | _ => rfl

/-- Where nothing is gone, everything is left. -/
theorem membersWithout_nothing (members : List (String × Value)) :
    membersWithout (fun _ => false) members = members := by
  cases members with
  | nil => rfl
  | cons member rest =>
    obtain ⟨name, value⟩ := member
    rw [membersWithout, if_neg Bool.false_ne_true, Value.without_nothing value,
      membersWithout_nothing rest]

end

namespace Member

/-- The member without the members of its own that are gone. -/
def without (gone : List String → Bool) (m : Member) : Member :=
  { m with value := m.value.without fun path => gone (m.name :: path) }

end Member

theorem membersWithout_written (gone : List String → Bool) (members : List Member) :
    membersWithout gone (members.map Member.written) =
      ((members.filter fun m => !gone [m.name]).map (Member.without gone)).map Member.written := by
  induction members with
  | nil => rw [List.map_nil, membersWithout]; rfl
  | cons m members ih =>
    rw [List.map_cons, Member.written, membersWithout, ih]
    cases hgone : gone [m.name] with
    | true => simp [hgone]
    | false => simp [hgone, Member.without, Member.written]

/-! ## Fields -/

theorem getElem?_of_mapM {α β : Type} {f : α → Option β} {l : List α} {r : List β}
    (h : l.mapM f = some r) (i : Nat) : r[i]? = l[i]?.bind f := by
  induction l generalizing r i with
  | nil =>
    obtain rfl := Option.some.inj h
    rfl
  | cons a l ih =>
    rw [List.mapM_cons] at h
    obtain ⟨b, hb, h⟩ := Option.bind_eq_some_iff.1 h
    obtain ⟨rest, hrest, h⟩ := Option.bind_eq_some_iff.1 h
    obtain rfl := Option.some.inj h
    cases i with
    | zero => exact hb.symm
    | succ i => exact ih hrest i

section Tables

variable {α : Type}

/-- An object that lists the entries of a table is read if each of them is. -/
theorem reads_table {write : α → Value} {document : α → Document}
    (h : ∀ a, Reads (write a).chars (document a)) (table : List (String × α)) :
    Reads (Value.object (table.map fun entry => (entry.1, write entry.2))).chars
      (.object (table.map fun entry => (entry.1.toList.map piece, document entry.2))) := by
  have hmembers : ∀ m ∈ table.map fun entry => Member.mk entry.1 (write entry.2) (document entry.2),
      Reads m.value.chars m.document := by
    intro m hm
    obtain ⟨entry, -, rfl⟩ := List.mem_map.1 hm
    exact h entry.2
  have hreads := reads_object hmembers
  rw [List.map_map, List.map_map] at hreads
  exact hreads

variable {table : List (String × α)} (hnodup : (table.map (·.1)).Nodup) (document : α → Document)

include hnodup

theorem theMember?_table (name : String) :
    Document.theMember? (table.map fun entry => (entry.1, document entry.2)) name =
      some ((table.lookup name).map document) := by
  rw [Document.theMember?, List.filter_map, Function.comp_def, filter_key hnodup]
  cases table.lookup name <;> rfl

/-- In a table without repeated names the fields of a record are looked up. -/
theorem fields?_table (names : List String) :
    (Document.object (table.map fun entry => (entry.1.toList.map piece, document entry.2))).fields?
        names = some (names.map fun name => (table.lookup name).map document) := by
  have hnamed : Document.namedMembers?
      (table.map fun entry => (entry.1.toList.map piece, document entry.2)) =
        some (table.map fun entry => (entry.1, document entry.2)) := by
    have hread (entry : String × α) : (string? (entry.1.toList.map piece)).map
        (fun name => (name, document entry.2)) = some (entry.1, document entry.2) := by
      rw [string?_map_piece, Option.map_some]
    rw [Document.namedMembers?, List.mapM_map]
    exact (congrArg (List.mapM · table) (funext hread)).trans List.mapM_pure
  rw [Document.fields?, hnamed]
  show names.mapM (Document.theMember? _) = _
  rw [funext (theMember?_table hnodup document)]
  exact List.mapM_pure

end Tables

/-- The members that are there are found under their names, and no others. -/
theorem fields?_object {members : List Member} (hnodup : (members.map Member.name).Nodup)
    (gone : String → Bool) :
    (Document.object ((members.filter fun m => !gone m.name).map Member.read)).fields?
        (members.map Member.name) =
      some (members.map fun m => if gone m.name then none else some m.document) := by
  have htable (members : List Member) : (members.filter fun m => !gone m.name).map Member.read =
      (members.filterMap fun m => (if gone m.name then none else some m.document).map
        (m.name, ·)).map fun entry => (entry.1.toList.map piece, entry.2) := by
    induction members with
    | nil => rfl
    | cons m members ih => cases hgone : gone m.name <;> simp [hgone, ih, Member.read]
  rw [htable, fields?_table (nodup_filterMap hnodup _) fun d => d, List.map_map]
  refine congrArg some (List.map_congr_left fun m hm => ?_)
  rw [Function.comp_apply, lookup_filterMap hnodup _ hm]
  cases gone m.name <;> rfl

/-- Whether a record has one of its fields: an object has it by name, an array by position. -/
def Document.hasField (names : List String) (name : String) : Document → Bool
  | .object members => members.any fun m => string? m.1 == some name
  | .array items => decide (names.idxOf name < items.length)
  | _ => false

/-- A field that a record does not have is read as left out. -/
theorem fields?_of_lacking {names : List String} {name : String} (hname : name ∈ names)
    {d : Document} (hlacks : d.hasField names name = false) {fields : List (Option Document)}
    (hfields : d.fields? names = some fields) : fields[names.idxOf name]? = some none := by
  have hindex : names[names.idxOf name]? = some name := List.getElem?_idxOf hname
  cases d with
  | object members =>
    obtain ⟨named, hnamed, hfound⟩ := Option.bind_eq_some_iff.1 hfields
    have hnone : named.filter (·.1 = name) = [] := by
      refine List.filter_eq_nil_iff.2 fun entry hentry hsame => ?_
      obtain ⟨i, hi⟩ := List.getElem?_of_mem hentry
      rw [getElem?_of_mapM hnamed] at hi
      obtain ⟨m, hm, hentry⟩ := Option.bind_eq_some_iff.1 hi
      obtain ⟨read, hread, rfl⟩ := Option.map_eq_some_iff.1 hentry
      have hsame : read = name := of_decide_eq_true hsame
      refine List.any_eq_false.1 hlacks m (List.mem_of_getElem? hm) ?_
      rw [hread, hsame, beq_self_eq_true]
    rw [getElem?_of_mapM hfound, hindex, Option.bind_some, Document.theMember?, hnone]
  | array items =>
    have hposition : items.length ≤ names.idxOf name := Nat.le_of_not_lt (of_decide_eq_false hlacks)
    have hlength : names.idxOf name < names.length := List.idxOf_lt_length_of_mem hname
    rw [Document.fields?, if_pos (by omega)] at hfields
    obtain rfl := Option.some.inj hfields
    rw [List.getElem?_append_right (by rwa [List.length_map]), List.getElem?_replicate,
      if_pos (by rw [List.length_map]; omega)]
  | _ => cases hfields

/-- What is left of a record is read field by field. -/
theorem exists_record (gone : List String → Bool) {members : List Member}
    (hmembers : ∀ m ∈ members, Reads (m.without gone).value.chars m.document)
    (hnodup : (members.map Member.name).Nodup) :
    ∃ d, Reads ((Value.object (members.map Member.written)).without gone).chars d ∧
      d.fields? (members.map Member.name) =
        some (members.map fun m => if gone [m.name] then none else some m.document) := by
  refine ⟨.object ((members.filter fun m => !gone [m.name]).map Member.read), ?_,
    fields?_object hnodup fun name => gone [name]⟩
  rw [Value.without, membersWithout_written]
  have hread : (members.filter fun m => !gone [m.name]).map Member.read =
      ((members.filter fun m => !gone [m.name]).map (Member.without gone)).map Member.read := by
    rw [List.map_map]
    rfl
  rw [hread]
  refine reads_object fun m hm => ?_
  obtain ⟨kept, hkept, rfl⟩ := List.mem_map.1 hm
  exact hmembers kept (List.mem_filter.1 hkept).1

/-! ## What values stand for -/

/-- The text of a value is read as a document that stands for `a`. -/
def Conveys {α : Type} (v : Value) (read : Document → Option α) (a : α) : Prop :=
  ∃ d, Reads v.chars d ∧ read d = some a

section Plain

/-! Of a value that is no object, nothing can be left out. -/

variable (gone : List String → Bool)

theorem conveys_bool (b : Bool) : Conveys ((Value.bool b).without gone) (·.bool?) b :=
  ⟨_, reads_bool b, rfl⟩

theorem conveys_natural {n bound : Nat} (h : n < bound) :
    Conveys ((Value.natural n).without gone) (·.naturalBelow? bound) n :=
  ⟨_, reads_integer n, naturalBelow?_numeral h⟩

/-- An absent value is kept apart from the others as long as these are not written as `null`. -/
theorem conveys_optional {α : Type} {write : α → Value} {read : Document → Option α}
    (hnull : read .null = none) (h : ∀ a, Conveys ((write a).without gone) read a)
    (value : Option α) :
    Conveys ((Value.optional write value).without gone) (·.optional? read) value := by
  cases value with
  | none => exact ⟨_, reads_null, rfl⟩
  | some a =>
    obtain ⟨d, hreads, hd⟩ := h a
    refine ⟨d, hreads, ?_⟩
    show d.optional? read = _
    unfold Document.optional?
    split
    next =>
      rw [hnull] at hd
      cases hd
    next => rw [hd, Option.map_some]

end Plain

/-- What is found in a field: its value, or the default if the field is gone. -/
def Holds {α : Type} (field : Option Document) (read : Document → Option α) (gone : Bool)
    (value : α) : Prop :=
  ∀ default, Document.fieldOr default read field = some (if gone then default else value)

theorem holds_ite {α : Type} {read : Document → Option α} {d : Document} {value : α}
    (h : read d = some value) (gone : Bool) :
    Holds (if gone then none else some d) read gone value := by
  intro default
  cases gone with
  | true => rfl
  | false => exact h

/-- What is left of a record with four fields. -/
theorem exists_fields {α β γ δ : Type} (gone : List String → Bool) {a b c d : String}
    (hnodup : [a, b, c, d].Nodup) {v w x y : Value} {f : Document → Option α}
    {g : Document → Option β} {h : Document → Option γ} {k : Document → Option δ} {p : α} {q : β}
    {r : γ} {s : δ} (hv : Conveys (v.without fun path => gone (a :: path)) f p)
    (hw : Conveys (w.without fun path => gone (b :: path)) g q)
    (hx : Conveys (x.without fun path => gone (c :: path)) h r)
    (hy : Conveys (y.without fun path => gone (d :: path)) k s) :
    ∃ document field₁ field₂ field₃ field₄,
      Reads ((Value.object [(a, v), (b, w), (c, x), (d, y)]).without gone).chars document ∧
        document.fields? [a, b, c, d] = some [field₁, field₂, field₃, field₄] ∧
        Holds field₁ f (gone [a]) p ∧ Holds field₂ g (gone [b]) q ∧ Holds field₃ h (gone [c]) r ∧
        Holds field₄ k (gone [d]) s := by
  obtain ⟨d₁, hv, hp⟩ := hv
  obtain ⟨d₂, hw, hq⟩ := hw
  obtain ⟨d₃, hx, hr⟩ := hx
  obtain ⟨d₄, hy, hs⟩ := hy
  have hmembers : ∀ m ∈ ([⟨a, v, d₁⟩, ⟨b, w, d₂⟩, ⟨c, x, d₃⟩, ⟨d, y, d₄⟩] : List Member),
      Reads (m.without gone).value.chars m.document := by
    simp only [List.forall_mem_cons]
    exact ⟨hv, hw, hx, hy, List.forall_mem_nil _⟩
  obtain ⟨document, hreads, hfields⟩ := exists_record gone hmembers hnodup
  exact ⟨document, _, _, _, _, hreads, hfields, holds_ite hp _, holds_ite hq _, holds_ite hr _,
    holds_ite hs _⟩

end Courier.Json
