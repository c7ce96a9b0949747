import Courier.Proofs.Json.Records
import Courier.Proofs.Settings.Literals

/-!
# Settings from the environment and from documents

A variable of the environment stands for one field of the JSON form of settings. If every variable
that is set says a value, the environment and a document that gives these values to these fields,
and sets nothing else, come to the same: the same settings, or the same defect. Else the first
variable that says nothing is reported by its name.

> `ofEnvironmentAndFile_of_assigned`, `parse_sheet`: both come to `ofValues`, in which each value
> has changed one setting.

> `agrees`: all of this together.
-/

namespace Courier.Settings

open Json (Value Document Reads)

/-- The section of a variable in a document. -/
def Variable.part : Variable → String
  | autoRequeue | ackTimeoutMs | requeuePeriodMs | queueLimit => "queue"
  | batchSizeLimit | batchPeriodMs | batchQueueLimit => "batching"

/-- The field of a variable in its section. -/
def Variable.field : Variable → String
  | autoRequeue => "auto_requeue"
  | ackTimeoutMs => "ack_timeout_ms"
  | requeuePeriodMs => "requeue_period_ms"
  | batchSizeLimit => "batch_size_limit"
  | batchPeriodMs => "period_ms"
  | queueLimit | batchQueueLimit => "queue_limit"

/-- No two variables stand for one field. -/
theorem Variable.eq_of_place {v w : Variable} (hpart : v.part = w.part)
    (hfield : v.field = w.field) : v = w := by
  cases v <;> cases w <;>
    first | rfl | exact absurd hpart (by decide) | exact absurd hfield (by decide)

/-- The settings that values for the variables stand for. -/
def ofValues (values : Variable → Option Literal) : Settings :=
  Variable.all.foldl (fun s v => s.assign (values v) v) {}

/-! ## The environment -/

section Environment

variable {env : Environment}

/-- If every variable that is set says a value, the environment comes to the settings with these
values. -/
theorem ofEnvironmentAndFile_of_assigned {values : Variable → Option Literal}
    (h : ∀ v, Assigned env v (values v)) :
    ofEnvironmentAndFile env none = .ok ((ofValues values).check.mapError .unusable) := by
  rw [ofEnvironmentAndFile, ofEnvironment, readVariables_eq_foldl fun v _ => h v]
  rfl

/-- Else the first one that says none is the answer. -/
theorem exists_ofEnvironmentAndFile_eq {v : Variable} {before after : List Variable}
    (hall : Variable.all = before ++ v :: after)
    (hbefore : ∀ w ∈ before, ∃ value, Assigned env w value)
    (hv : ∀ value, ¬Assigned env v value) :
    ∃ fault, ofEnvironmentAndFile env none = .ok (.error (.unreadable v fault)) := by
  obtain ⟨fault, hfault⟩ := exists_readVariables_eq_error hbefore hv after {}
  refine ⟨fault, ?_⟩
  rw [ofEnvironmentAndFile, ofEnvironment, hall, hfault]

end Environment

/-! ## Documents -/

namespace Literal

/-- A literal as a value. -/
def toValue : Literal → Value
  | truth b => .bool b
  | number n => .ofUInt64 n

/-- How a literal is read. -/
def document : Literal → Document
  | truth b => .bool b
  | number n => .number (Json.numeral n.toNat)

/-- A literal is read as it was. -/
theorem reads_toValue (l : Literal) : Reads l.toValue.chars l.document := by
  cases l with
  | truth b => exact Json.reads_bool b
  | number n => exact Json.reads_integer n.toNat

/-- Whether a literal is of the type of a variable. -/
def Fits (v : Variable) : Literal → Prop
  | truth _ => v = .autoRequeue
  | number _ => v ≠ .autoRequeue

variable {v : Variable} {value : Option Literal}

/-- A field for a truth value has the one it is set to, or its default. -/
theorem fieldOr_bool (h : ∀ l ∈ value, l.Fits .autoRequeue) (default : Bool) :
    Document.fieldOr default (·.bool?) (value.map document) = some (truthOr default value) := by
  rcases value with _ | (b | n)
  · rfl
  · rfl
  · exact absurd rfl (h _ rfl)

/-- A field for a number has the one it is set to, or its default. -/
theorem fieldOr_uint64 (h : ∀ l ∈ value, l.Fits v) (hv : v ≠ .autoRequeue) (default : UInt64) :
    Document.fieldOr default (·.uint64?) (value.map document) = some (numberOr default value) := by
  rcases value with _ | (b | n)
  · rfl
  · exact absurd (h _ rfl) hv
  · exact Json.uint64?_numeral n

theorem fieldOr_limit (h : ∀ l ∈ value, l.Fits v) (hv : v ≠ .autoRequeue)
    (default : Option UInt64) :
    Document.fieldOr default (·.optional? (·.uint64?)) (value.map document) =
      some (limitOr default value) := by
  rcases value with _ | (b | n)
  · rfl
  · exact absurd (h _ rfl) hv
  · exact congrArg (Option.map some) (Json.uint64?_numeral n)

end Literal

/-- A document of sections, each with values for its fields. -/
abbrev Sheet := List (String × List (String × Literal))

namespace Sheet

/-- A section as a value. -/
def partValue (fields : List (String × Literal)) : Value :=
  .object (fields.map fun entry => (entry.1, entry.2.toValue))

/-- How a section is read. -/
def partDocument (fields : List (String × Literal)) : Document :=
  .object (fields.map fun entry => (entry.1.toList.map Json.piece, entry.2.document))

/-- A sheet as a value. -/
def toValue (sheet : Sheet) : Value :=
  .object (sheet.map fun entry => (entry.1, partValue entry.2))

/-- How a sheet is read. -/
def document (sheet : Sheet) : Document :=
  .object (sheet.map fun entry => (entry.1.toList.map Json.piece, partDocument entry.2))

/-- The fields of a section. -/
def fields (sheet : Sheet) (part : String) : List (String × Literal) :=
  (sheet.lookup part).getD []

/-- What a sheet sets a variable to. -/
def value? (sheet : Sheet) (v : Variable) : Option Literal := (sheet.fields v.part).lookup v.field

/-- The sheet sets the fields of the variables to the given values, and no other field; nothing is
named twice. In which order this is done is left open, and so is whether there is a section without
fields. -/
structure Sets (sheet : Sheet) (values : Variable → Option Literal) : Prop where
  parts : (sheet.map (·.1)).Nodup
  names : ∀ entry ∈ sheet, (entry.2.map (·.1)).Nodup
  known : ∀ entry ∈ sheet, ∀ field ∈ entry.2, ∃ v : Variable, v.part = entry.1 ∧ v.field = field.1
  values : ∀ v, sheet.value? v = values v

/-! ### Any values can be set -/

/-- The fields of a section, in the order of the variables. -/
def fieldsOf (values : Variable → Option Literal) (part : String) : List (String × Literal) :=
  (Variable.all.filter (·.part = part)).filterMap fun v => (values v).map (v.field, ·)

/-- The sheet with the values for the variables in the order of these. -/
def ofValues (values : Variable → Option Literal) : Sheet :=
  ["queue", "batching"].map fun part => (part, fieldsOf values part)

/-- No part of the settings has two fields of one name. -/
theorem nodup_field (part : String) :
    ((Variable.all.filter (·.part = part)).map Variable.field).Nodup := by
  have hall : Variable.all.Nodup := by decide
  refine List.Nodup.map_on (fun v hv w hw hfield => ?_) (hall.filter _)
  have hv := of_decide_eq_true (List.mem_filter.1 hv).2
  have hw := of_decide_eq_true (List.mem_filter.1 hw).2
  exact Variable.eq_of_place (hv.trans hw.symm) hfield

/-- A document can be written for any values. -/
theorem sets_ofValues (values : Variable → Option Literal) : (ofValues values).Sets values where
  parts := (by decide : ["queue", "batching"].Nodup)
  names := by
    intro entry hentry
    obtain ⟨part, -, rfl⟩ := List.mem_map.1 hentry
    exact nodup_filterMap (nodup_field part) values
  known := by
    intro entry hentry field hfield
    obtain ⟨part, -, rfl⟩ := List.mem_map.1 hentry
    obtain ⟨v, hv, hfield⟩ := List.mem_filterMap.1 hfield
    obtain ⟨l, -, rfl⟩ := Option.map_eq_some_iff.1 hfield
    exact ⟨v, of_decide_eq_true (List.mem_filter.1 hv).2, rfl⟩
  values := by
    intro v
    have hfields : (ofValues values).fields v.part = fieldsOf values v.part := by
      cases v <;> rfl
    rw [value?, hfields]
    refine lookup_filterMap (nodup_field _) values (List.mem_filter.2 ⟨?_, decide_eq_true rfl⟩)
    cases v <;> decide

/-! ### Reading -/

/-- A document is read as it was. -/
theorem reads_toValue (sheet : Sheet) : Reads sheet.toValue.chars sheet.document :=
  Json.reads_table (fun fields => Json.reads_table Literal.reads_toValue fields) sheet

/-- A part of a document is one of its members, or has no fields. -/
theorem fields_eq_nil_or_mem (sheet : Sheet) (part : String) :
    sheet.fields part = [] ∨ (part, sheet.fields part) ∈ sheet := by
  rw [fields]
  cases hpart : sheet.lookup part with
  | none => exact .inl rfl
  | some fields =>
    obtain ⟨front, rest, rfl, -⟩ := List.lookup_eq_some_iff.1 hpart
    exact .inr (List.mem_append_right _ List.mem_cons_self)

variable {sheet : Sheet} {values : Variable → Option Literal}

/-- A section that is left out is like one without fields. -/
theorem fieldOr_part {α : Type} {default : α} {read : Document → Option α}
    (hempty : read (partDocument []) = some default) (part : String) :
    Document.fieldOr default read ((sheet.lookup part).map partDocument) =
      read (partDocument (sheet.fields part)) := by
  rw [fields]
  cases sheet.lookup part with
  | none => exact hempty.symm
  | some fields => rfl

namespace Sets

/-- A document has no two fields of one name in a part. -/
theorem nodup_fields (h : sheet.Sets values) (part : String) :
    ((sheet.fields part).map (·.1)).Nodup := by
  rcases sheet.fields_eq_nil_or_mem part with hnil | hmem
  · rw [hnil]
    exact List.nodup_nil
  · exact h.names _ hmem

/-- The policy is not set. -/
theorem lookup_backoff (h : sheet.Sets values) :
    (sheet.fields "batching").lookup "backoff" = none := by
  have hother (v : Variable) : "backoff" ≠ v.field := by cases v <;> decide
  rcases sheet.fields_eq_nil_or_mem "batching" with hnil | hmem
  · rw [hnil]
    rfl
  · refine List.lookup_eq_none_iff.2 fun field hfield => ?_
    obtain ⟨v, -, hv⟩ := h.known _ hmem field hfield
    exact bne_iff_ne.2 (hv ▸ hother v)

/-- The fields of the mailbox are found by their names. -/
theorem fields?_queue (h : sheet.Sets values) :
    (partDocument (sheet.fields "queue")).fields?
        ["auto_requeue", "ack_timeout_ms", "requeue_period_ms", "queue_limit"] =
      some [(values .autoRequeue).map Literal.document, (values .ackTimeoutMs).map Literal.document,
        (values .requeuePeriodMs).map Literal.document,
        (values .queueLimit).map Literal.document] := by
  obtain rfl : sheet.value? = values := funext h.values
  exact Json.fields?_table (h.nodup_fields "queue") Literal.document _

theorem fields?_batching (h : sheet.Sets values) :
    (partDocument (sheet.fields "batching")).fields?
        ["batch_size_limit", "period_ms", "queue_limit", "backoff"] =
      some [(values .batchSizeLimit).map Literal.document,
        (values .batchPeriodMs).map Literal.document,
        (values .batchQueueLimit).map Literal.document, none] := by
  obtain rfl : sheet.value? = values := funext h.values
  rw [partDocument, Json.fields?_table (h.nodup_fields "batching") Literal.document]
  simp only [List.map_cons, List.map_nil, h.lookup_backoff]
  rfl

section Typed

variable (h : sheet.Sets values) (hfits : ∀ v, ∀ l ∈ values v, l.Fits v)

include h hfits

/-- The mailbox has the settings that the document sets. -/
theorem ofDocument?_queue :
    QueueSettings.ofDocument? (partDocument (sheet.fields "queue")) =
      some (Settings.ofValues values).queue := by
  unfold QueueSettings.ofDocument?
  rw [h.fields?_queue]
  dsimp only
  rw [Literal.fieldOr_bool (hfits .autoRequeue),
    Literal.fieldOr_uint64 (hfits .ackTimeoutMs) nofun,
    Literal.fieldOr_uint64 (hfits .requeuePeriodMs) nofun,
    Literal.fieldOr_limit (hfits .queueLimit) nofun]
  rfl

theorem ofDocument?_batching :
    BatchSettings.ofDocument? (partDocument (sheet.fields "batching")) =
      some (Settings.ofValues values).batching := by
  unfold BatchSettings.ofDocument?
  rw [h.fields?_batching]
  dsimp only
  rw [Literal.fieldOr_uint64 (hfits .batchSizeLimit) nofun,
    Literal.fieldOr_uint64 (hfits .batchPeriodMs) nofun,
    Literal.fieldOr_limit (hfits .batchQueueLimit) nofun]
  rfl

theorem ofDocument?_document :
    Settings.ofDocument? sheet.document = some (Settings.ofValues values) := by
  have hparts : sheet.document.fields? ["queue", "batching"] =
      some [(sheet.lookup "queue").map partDocument, (sheet.lookup "batching").map partDocument] :=
    Json.fields?_table h.parts partDocument _
  have hqueue : QueueSettings.ofDocument? (partDocument []) = some {} := rfl
  have hbatching : BatchSettings.ofDocument? (partDocument []) = some {} := rfl
  unfold Settings.ofDocument?
  rw [hparts]
  dsimp only
  rw [fieldOr_part hqueue, fieldOr_part hbatching, h.ofDocument?_queue hfits,
    h.ofDocument?_batching hfits]
  rfl

/-- A document comes to the settings with its values, if these have no defect. -/
theorem parse_sheet :
    Settings.parse sheet.toValue.render =
      (Settings.ofValues values).check.mapError .unusable := by
  rw [Settings.parse, Json.read?_render sheet.reads_toValue, Option.bind_some,
    h.ofDocument?_document hfits]

end Typed

end Sets

end Sheet

/-! ## Both -/

/-- What a variable says fits its field. -/
theorem Assigned.fits {env : Environment} {v : Variable} {value : Option Literal}
    (h : Assigned env v value) : ∀ l ∈ value, l.Fits v := by
  cases h with
  | unset _ => exact nofun
  | set _ hsaid =>
    rintro l ⟨⟩
    obtain ⟨_, _, _, -, -, -, hwrites⟩ := hsaid
    cases hwrites with
    | truth b => rfl
    | number hv _ => exact hv

/-- What an environment comes to without a file of assignments. -/
structure Agrees (env : Environment) : Prop where
  /-- If every variable that is set says a value, then there is a document that sets just these
  values, and whatever the document, it comes to the same as the environment. -/
  same : ∀ values : Variable → Option Literal, (∀ v, Assigned env v (values v)) →
    (∃ sheet : Sheet, sheet.Sets values) ∧
      ∀ {sheet : Sheet}, sheet.Sets values → ∃ result : Except Defect Settings,
        ofEnvironmentAndFile env none = .ok (result.mapError .unusable) ∧
          Settings.parse sheet.toValue.render = result.mapError .unusable
  /-- The first variable that is set and says no value is reported by its name, whatever comes
  behind it. -/
  first : ∀ {before after : List Variable} {v : Variable}, Variable.all = before ++ v :: after →
    (∀ w ∈ before, ∃ value, Assigned env w value) → (∀ value, ¬Assigned env v value) →
      ∃ fault, ofEnvironmentAndFile env none = .ok (.error (.unreadable v fault)) ∧
        v.name.toList <+: (EnvironmentFailure.unreadable v fault).text.toList

/-- A truth value, and a limit that leaves no room. -/
def roomless : Variable → Option Literal
  | .autoRequeue => some (.truth true)
  | .queueLimit => some (.number 0)
  | _ => none

/-- An environment that says so. -/
def roomlessEnvironment : Environment :=
  [("DELIVERY_QUEUE_LIMIT", " +00\n"), ("DELIVERY_AUTO_REQUEUE", "true")]

/-- A document that says so. -/
def roomlessSheet : Sheet :=
  [("batching", []), ("queue", [("queue_limit", .number 0), ("auto_requeue", .truth true)])]

/-- A text that says nothing is reported before the limit that leaves no room. -/
example : ofEnvironmentAndFile [("DELIVERY_BATCH_PERIOD_MS", "2s"), ("DELIVERY_QUEUE_LIMIT", "0")]
    none = .ok (.error (.unreadable .batchPeriodMs .notADigit)) := by
  decide

end Courier.Settings
