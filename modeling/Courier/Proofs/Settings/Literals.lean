import Courier.Settings.Environment
import Mathlib.Data.List.TakeWhile

/-!
# What the texts of variables say

The text of a variable says a truth value or a number of 64 bits if nothing but white space stands
around the word or the digits. Exactly then it can be read, and one setting changes; what any other
text would say is not defined, and the reader refuses it.

> `trim_surrounded`, `exists_surrounded`: trimming takes away the white space around a text, and
> nothing else.

> `readNumber_eq_ok`: a number is read from its digits, behind a plus if one likes, as long as it
> fits into 64 bits.

> `set_of_writes`, `exists_writes_of_set`: a variable changes its setting if something is written,
> and only then; `says_iff` allows for white space.

> `readVariables_eq_foldl`, `exists_readVariables_eq_error`: so every variable changes its setting,
> or the first that says nothing is reported.
-/

namespace Courier

/-! ## White space -/

namespace Text

theorem isBlank_of_isDigit {c : Char} (h : c.isDigit = true) : isBlank c = false := by
  have hrange : 48 ≤ c.toNat ∧ c.toNat ≤ 57 := by
    simpa [Char.isDigit, UInt32.le_iff_toNat_le] using h
  by_contra hblank
  simp only [isBlank, Bool.not_eq_false, Bool.or_eq_true, Bool.and_eq_true, decide_eq_true_eq,
    beq_iff_eq] at hblank
  omega

/-- Nothing but white space. -/
def Blank (cs : List Char) : Prop := ∀ c ∈ cs, isBlank c = true

instance (cs : List Char) : Decidable (Blank cs) :=
  decidable_of_iff (cs.all isBlank = true) List.all_eq_true

/-- Blanks in front of a text are trimmed away. -/
theorem trimStart_append {left : List Char} (h : Blank left) (cs : List Char) :
    trimStart (left ++ cs) = trimStart cs :=
  List.dropWhile_append_of_pos h

/-- So are blanks behind it. -/
theorem trimEnd_append {right : List Char} (h : Blank right) (cs : List Char) :
    trimEnd (cs ++ right) = trimEnd cs := by
  have hright : Blank right.reverse := fun c hc => h c (List.mem_reverse.1 hc)
  rw [trimEnd, List.reverse_append, List.dropWhile_append_of_pos hright]
  rfl

/-- White space around a text without any is taken away. -/
theorem trim_surrounded {left core right : List Char} (hleft : Blank left)
    (hcore : ∀ c ∈ core, isBlank c = false) (hright : Blank right) :
    trim (left ++ core ++ right) = core := by
  have hdrop (cs : List Char) (hcs : ∀ c ∈ cs, isBlank c = false) (rest : List Char)
      (hne : cs ≠ []) : (cs ++ rest).dropWhile isBlank = cs ++ rest := by
    obtain ⟨c, cs, rfl⟩ := List.exists_cons_of_ne_nil hne
    exact List.dropWhile_cons_of_neg (by simp [hcs c List.mem_cons_self])
  rw [trim, List.append_assoc, trimStart_append hleft]
  rcases eq_or_ne core [] with rfl | hne
  · rw [List.nil_append, ← List.append_nil right, trimStart_append hright]
    rfl
  · rw [trimStart, hdrop core hcore right hne, trimEnd_append hright, trimEnd]
    have hreverse := hdrop core.reverse (fun c hc => hcore c (List.mem_reverse.1 hc)) []
      (List.reverse_ne_nil_iff.2 hne)
    rw [List.append_nil] at hreverse
    rw [hreverse, List.reverse_reverse]

/-- What is taken away is white space. -/
theorem exists_surrounded (cs : List Char) :
    ∃ left right, cs = left ++ trim cs ++ right ∧ Blank left ∧ Blank right := by
  refine ⟨cs.takeWhile isBlank, ((trimStart cs).reverse.takeWhile isBlank).reverse, ?_,
    fun c hc => List.mem_takeWhile_imp hc,
    fun c hc => List.mem_takeWhile_imp (List.mem_reverse.1 hc)⟩
  have hend : trim cs ++ ((trimStart cs).reverse.takeWhile isBlank).reverse = trimStart cs := by
    rw [trim, trimEnd, ← List.reverse_append, List.takeWhile_append_dropWhile,
      List.reverse_reverse]
  rw [List.append_assoc, hend]
  exact List.takeWhile_append_dropWhile.symm

end Text

namespace Settings

/-! ## Numbers -/

/-- Decimal digits, behind a plus if one likes, that write a number of 64 bits. -/
def Decimal (text : List Char) (n : UInt64) : Prop :=
  ∃ digits, (text = digits ∨ text = '+' :: digits) ∧ digits ≠ [] ∧
    (∀ c ∈ digits, c.isDigit = true) ∧ Json.ofDigits digits = n.toNat

/-- The number that digits write behind the number `n`. -/
def continued (n : Nat) (digits : List Char) : Nat :=
  digits.foldl (fun n c => 10 * n + (c.toNat - '0'.toNat)) n

theorem le_continued (n : Nat) (digits : List Char) : n ≤ continued n digits := by
  induction digits generalizing n with
  | nil => exact Nat.le_refl n
  | cons c digits ih =>
    have hstep := ih (10 * n + (c.toNat - '0'.toNat))
    show n ≤ continued (10 * n + (c.toNat - '0'.toNat)) digits
    omega

/-- Digits are read if there is nothing else and the number fits. -/
theorem readDigits_eq_ok {n : Nat} (hn : n < UInt64.size) {digits : List Char} {m : UInt64} :
    readDigits n digits = .ok m ↔
      (∀ c ∈ digits, c.isDigit = true) ∧ continued n digits = m.toNat := by
  induction digits generalizing n with
  | nil =>
    have hvalue : UInt64.ofNat n = m ↔ n = m.toNat := by
      rw [← UInt64.toNat_inj, UInt64.toNat_ofNat_of_lt' hn]
    rw [readDigits, Except.ok.injEq, hvalue]
    exact ⟨fun h => ⟨List.forall_mem_nil _, h⟩, And.right⟩
  | cons c digits ih =>
    have hcontinued : continued n (c :: digits) =
        continued (10 * n + (c.toNat - '0'.toNat)) digits := rfl
    rw [readDigits, List.forall_mem_cons, hcontinued]
    split
    next hc => exact ⟨nofun, fun h => absurd h.1.1 hc⟩
    next hc =>
      have hdigit : c.isDigit = true := not_not.1 hc
      dsimp only
      split
      next hsmall =>
        rw [ih hsmall]
        exact ⟨fun h => ⟨⟨hdigit, h.1⟩, h.2⟩, fun h => ⟨h.1.2, h.2⟩⟩
      next hlarge =>
        -- Further digits do not make the number smaller again.
        refine ⟨nofun, fun h => ?_⟩
        have hle := le_continued (10 * n + (c.toNat - '0'.toNat)) digits
        have hm := m.toNat_lt_size
        omega

/-- A number is read from its digits, behind a plus if one likes, if it fits. -/
theorem readNumber_eq_ok {text : List Char} {n : UInt64} :
    readNumber text = .ok n ↔ Decimal text n := by
  have hdigits (digits : List Char) : readDigits 0 digits = .ok n ↔
      (∀ c ∈ digits, c.isDigit = true) ∧ Json.ofDigits digits = n.toNat :=
    readDigits_eq_ok (by decide)
  constructor
  · intro h
    unfold readNumber at h
    split at h
    next => cases h
    next => cases h
    next digits hne =>
      exact ⟨digits, .inr rfl, fun hnil => hne (hnil ▸ rfl), (hdigits digits).1 h⟩
    next hnil _ _ => exact ⟨text, .inl rfl, hnil, (hdigits text).1 h⟩
  · rintro ⟨digits, rfl | rfl, hne, hwritten⟩
    · have hplus : ∀ rest, text ≠ '+' :: rest := by
        rintro rest rfl
        exact absurd (hwritten.1 _ List.mem_cons_self) (by decide)
      rw [readNumber.eq_4 text hne (hplus []) hplus]
      exact (hdigits text).2 hwritten
    · rw [readNumber.eq_3 digits hne]
      exact (hdigits digits).2 hwritten

/-! ## Values -/

/-- What a text or a document can set a variable to. -/
inductive Literal where
  | truth (b : Bool)
  | number (n : UInt64)
deriving DecidableEq

namespace Literal

/-- The truth value, or the default where none is given. -/
def truthOr (default : Bool) : Option Literal → Bool
  | some (.truth b) => b
  | _ => default

/-- The number, or the default where none is given. -/
def numberOr (default : UInt64) : Option Literal → UInt64
  | some (.number n) => n
  | _ => default

/-- The number as a limit, or the default where none is given. -/
def limitOr (default : Option UInt64) : Option Literal → Option UInt64
  | some (.number n) => some n
  | _ => default

end Literal

/-- The settings with what a variable is set to, if it is. -/
def assign (s : Settings) (value : Option Literal) : Variable → Settings
  | .autoRequeue =>
    { s with queue.autoRequeue := Literal.truthOr s.queue.autoRequeue value }
  | .ackTimeoutMs =>
    { s with queue.ackTimeoutMs := Literal.numberOr s.queue.ackTimeoutMs value }
  | .requeuePeriodMs =>
    { s with queue.requeuePeriodMs := Literal.numberOr s.queue.requeuePeriodMs value }
  | .queueLimit => { s with queue.queueLimit := Literal.limitOr s.queue.queueLimit value }
  | .batchSizeLimit =>
    { s with batching.batchSizeLimit := Literal.numberOr s.batching.batchSizeLimit value }
  | .batchPeriodMs => { s with batching.periodMs := Literal.numberOr s.batching.periodMs value }
  | .batchQueueLimit =>
    { s with batching.queueLimit := Literal.limitOr s.batching.queueLimit value }

/-- A variable that is not set leaves the settings as they are. -/
theorem assign_none (s : Settings) (v : Variable) : s.assign none v = s := by
  cases v <;> rfl

/-- What the characters of a text write: a word for the truth value, digits for a number. -/
inductive Writes : Variable → List Char → Literal → Prop
  | truth (b : Bool) :
    Writes .autoRequeue (if b then "true".toList else "false".toList) (.truth b)
  | number {v : Variable} {text : List Char} {n : UInt64} (hv : v ≠ .autoRequeue)
    (h : Decimal text n) : Writes v text (.number n)

/-- The one variable for a truth value is set to what is read. -/
theorem set_autoRequeue (s : Settings) (text : List Char) :
    s.set .autoRequeue text =
      (readBool text).map fun b => s.assign (some (.truth b)) .autoRequeue := by
  rw [set]
  cases readBool text <;> rfl

/-- Every other variable is set to the number that is read. -/
theorem set_number {v : Variable} (hv : v ≠ .autoRequeue) (s : Settings) (text : List Char) :
    s.set v text = (readNumber text).map fun n => s.assign (some (.number n)) v := by
  cases v with
  | autoRequeue => exact absurd rfl hv
  | _ =>
    rw [set]
    cases readNumber text <;> rfl

/-- A text that writes a literal sets the variable to it. -/
theorem set_of_writes {v : Variable} {text : List Char} {l : Literal} (h : Writes v text l)
    (s : Settings) : s.set v text = .ok (s.assign (some l) v) := by
  cases h with
  | truth b =>
    rw [set_autoRequeue]
    cases b <;> rfl
  | number hv h =>
    rw [set_number hv, readNumber_eq_ok.2 h]
    rfl

/-- A text that sets a variable writes a literal. -/
theorem exists_writes_of_set {v : Variable} {text : List Char} {s s' : Settings}
    (h : s.set v text = .ok s') : ∃ l, Writes v text l := by
  rcases eq_or_ne v .autoRequeue with rfl | hv
  · rw [set_autoRequeue] at h
    unfold readBool at h
    split at h
    next htrue => exact ⟨_, htrue.symm ▸ Writes.truth true⟩
    next =>
      split at h
      next hfalse => exact ⟨_, hfalse.symm ▸ Writes.truth false⟩
      next => cases h
  · rw [set_number hv] at h
    cases hread : readNumber text with
    | ok n => exact ⟨_, .number hv (readNumber_eq_ok.1 hread)⟩
    | error fault =>
      rw [hread] at h
      cases h

/-- Nothing that is written holds white space. -/
theorem Writes.solid {v : Variable} {text : List Char} {l : Literal} (h : Writes v text l) :
    ∀ c ∈ text, Text.isBlank c = false := by
  cases h with
  | truth b =>
    have hword : (if b then "true".toList else "false".toList).any Text.isBlank = false := by
      cases b <;> decide
    exact fun c hc => Bool.eq_false_iff.2 (List.any_eq_false.1 hword c hc)
  | number _ h =>
    obtain ⟨digits, rfl | rfl, -, hdigits, -⟩ := h
    · exact fun c hc => Text.isBlank_of_isDigit (hdigits c hc)
    · exact List.forall_mem_cons.2
        ⟨by decide, fun c hc => Text.isBlank_of_isDigit (hdigits c hc)⟩

/-- What a text says to a variable, with white space around it or without. -/
def Says (v : Variable) (text : String) (l : Literal) : Prop :=
  ∃ left core right, text.toList = left ++ core ++ right ∧ Text.Blank left ∧ Text.Blank right ∧
    Writes v core l

theorem says_iff {v : Variable} {text : String} {l : Literal} :
    Says v text l ↔ Writes v (Text.trim text.toList) l := by
  constructor
  · rintro ⟨left, core, right, htext, hleft, hright, h⟩
    rwa [htext, Text.trim_surrounded hleft h.solid hright]
  · intro h
    obtain ⟨left, right, htext, hleft, hright⟩ := Text.exists_surrounded text.toList
    exact ⟨left, _, right, htext, hleft, hright, h⟩

/-! ## Variables -/

/-- What the environment assigns to a variable, as far as it can be understood: nothing if it is not
set. -/
inductive Assigned (env : Environment) (v : Variable) : Option Literal → Prop
  | unset (h : env.get? v.name = none) : Assigned env v none
  | set {text : String} {l : Literal} (h : env.get? v.name = some text) (hsaid : Says v text l) :
    Assigned env v (some l)

section Reading

variable {env : Environment} {v : Variable}

/-- A variable that says a value sets it, and the rest follow. -/
theorem readVariables_of_assigned {value : Option Literal} (h : Assigned env v value)
    (s : Settings) (rest : List Variable) :
    readVariables env s (v :: rest) = readVariables env (s.assign value v) rest := by
  cases h with
  | unset h => rw [readVariables, h, assign_none]
  | set h hsaid =>
    rw [readVariables, h]
    dsimp only
    rw [set_of_writes (says_iff.1 hsaid)]

/-- A variable that is set to something else is reported. -/
theorem readVariables_of_not_assigned (h : ∀ value, ¬Assigned env v value) (s : Settings)
    (rest : List Variable) :
    ∃ fault, readVariables env s (v :: rest) = .error (.unreadable v fault) := by
  cases htext : env.get? v.name with
  | none => exact absurd (.unset htext) (h none)
  | some text =>
    cases hset : s.set v (Text.trim text.toList) with
    | ok s' =>
      obtain ⟨l, hl⟩ := exists_writes_of_set hset
      exact absurd (.set htext (says_iff.2 hl)) (h (some l))
    | error fault =>
      refine ⟨fault, ?_⟩
      rw [readVariables, htext]
      dsimp only
      rw [hset]

/-- Every variable that is set changes its setting. -/
theorem readVariables_eq_foldl {values : Variable → Option Literal} {vs : List Variable}
    (h : ∀ v ∈ vs, Assigned env v (values v)) (s : Settings) :
    readVariables env s vs = .ok (vs.foldl (fun s v => s.assign (values v) v) s) := by
  induction vs generalizing s with
  | nil => rfl
  | cons v vs ih =>
    obtain ⟨hv, hvs⟩ := List.forall_mem_cons.1 h
    rw [readVariables_of_assigned hv, ih hvs]
    rfl

/-- The first variable that cannot be understood is reported, whatever comes behind it. -/
theorem exists_readVariables_eq_error {before : List Variable}
    (hbefore : ∀ w ∈ before, ∃ value, Assigned env w value)
    (hv : ∀ value, ¬Assigned env v value) (after : List Variable) (s : Settings) :
    ∃ fault, readVariables env s (before ++ v :: after) = .error (.unreadable v fault) := by
  induction before generalizing s with
  | nil => exact readVariables_of_not_assigned hv s after
  | cons w before ih =>
    obtain ⟨⟨value, hw⟩, hbefore⟩ := List.forall_mem_cons.1 hbefore
    rw [List.cons_append, readVariables_of_assigned hw]
    exact ih hbefore _

end Reading

end Settings
end Courier
