import Courier.Json.Decode
import Courier.Proofs.Hex
import Mathlib.Data.List.Basic
import Mathlib.Data.List.TakeDrop

/-!
# What is written can be read

The text of a value is read as a document that takes it apart again: a whole number into its digits,
a string into its characters, an object into its members. `Reads` says so of a text with whatever
may follow it, so what holds of the members of an object carries over to the object.

> `readString_flatMap`: a string is read up to its closing quote, character by character.

> `readNumeral_integer`: a whole number is read up to what does not belong to it.

> `reads_object`: an object is read if its members are.

> `read?_render`: so the text as a whole is read.
-/

namespace Courier.Json

/-! ## Strings -/

/-- How a character of a string is read, as `escaped` writes it. -/
def piece (c : Char) : Piece :=
  if escapeLetter? c = none ∧ c.toNat < 0x20 then .unit c.toNat else .char c

/-- A letter that stands for a character is read as that character. -/
theorem unescapeLetter?_of_escape {c letter : Char} (h : escapeLetter? c = some letter) :
    unescapeLetter? letter = some c := by
  unfold escapeLetter? at h
  split at h <;> cases h <;> rfl

/-- An escaped letter is read as one character. -/
theorem readString_letter {c letter : Char} (h : unescapeLetter? letter = some c)
    (rest : List Char) :
    readString ('\\' :: letter :: rest) =
      (readString rest).map fun (pieces, rest) => (.char c :: pieces, rest) := by
  have hletter : letter ≠ 'u' := by
    rintro rfl
    cases h
  rw [readString.eq_4 _ _ fun _ _ _ _ _ hu _ => hletter hu, h]
  cases readString rest <;> rfl

/-- A character below the blank is read by its number. -/
theorem readString_unit {n : Nat} (h : n < 0x20) (rest : List Char) :
    readString ('\\' :: 'u' :: Hex.digits 4 n ++ rest) =
      (readString rest).map fun (pieces, rest) => (.unit n :: pieces, rest) := by
  have hdigits : Hex.ofDigits? (Hex.digits 4 n) = some n := by
    rw [Hex.ofDigits?_digits, Nat.mod_eq_of_lt (Nat.lt_trans h (by decide))]
  rw [Hex.digits, Hex.digits, Hex.digits, Hex.digits, Hex.digits] at hdigits ⊢
  simp only [List.cons_append, List.nil_append]
  rw [readString.eq_3, hdigits]
  cases readString rest <;> rfl

/-- A character that needs no escape is read as it stands. -/
theorem readString_plain {c : Char} (hquote : c ≠ '"') (hbackslash : c ≠ '\\')
    (hcontrol : ¬c.toNat < 0x20) (rest : List Char) :
    readString (c :: rest) =
      (readString rest).map fun (pieces, rest) => (.char c :: pieces, rest) := by
  rw [readString.eq_5 _ _ hquote (fun _ _ _ _ _ h _ => hbackslash h)
    (fun _ _ h _ => hbackslash h), if_neg (not_or.2 ⟨hcontrol, hbackslash⟩)]
  cases readString rest <;> rfl

/-- A character is read from the way in which it is written. -/
theorem readString_escaped (c : Char) (rest : List Char) :
    readString (escaped c ++ rest) =
      (readString rest).map fun (pieces, rest) => (piece c :: pieces, rest) := by
  unfold escaped piece
  split
  next letter hletter =>
    rw [if_neg (by simp [hletter])]
    exact readString_letter (unescapeLetter?_of_escape hletter) rest
  next hnone =>
    split
    next hcontrol =>
      rw [if_pos ⟨hnone, hcontrol⟩]
      exact readString_unit hcontrol rest
    next hplain =>
      rw [if_neg fun h => hplain h.2]
      refine readString_plain ?_ ?_ hplain rest
      · rintro rfl
        cases hnone
      · rintro rfl
        cases hnone

/-- A string is read up to its closing quote. -/
theorem readString_flatMap (cs rest : List Char) :
    readString (cs.flatMap escaped ++ '"' :: rest) = some (cs.map piece, rest) := by
  induction cs with
  | nil => exact readString.eq_2 rest
  | cons c cs ih =>
    rw [List.flatMap_cons, List.append_assoc, readString_escaped, ih]
    rfl

/-- A piece is a character of the text. -/
theorem chars?_cons (c : Char) (pieces : List Piece) :
    chars? (piece c :: pieces) = (chars? pieces).map (c :: ·) := by
  unfold piece
  split
  next h =>
    have hunit : c.toNat < 0xd800 := Nat.lt_trans h.2 (by decide)
    rw [chars?.eq_def]
    dsimp only
    rw [if_pos (Or.inl hunit), Char.ofNat_toNat]
  next => rw [chars?]

/-- The pieces of a string stand for what was written. -/
theorem string?_map_piece (s : String) : string? (s.toList.map piece) = some s := by
  have hchars (cs : List Char) : chars? (cs.map piece) = some cs := by
    induction cs with
    | nil => rw [List.map_nil, chars?]
    | cons c cs ih =>
      rw [List.map_cons, chars?_cons, ih]
      rfl
  rw [string?, hchars, Option.map_some, String.ofList_toList]

/-! ## Numbers -/

/-- How a whole number is read, as `Number.chars` writes it. -/
def numeral (n : Int) : Numeral where
  negative := n < 0
  whole := naturalChars n.natAbs
  fraction := []
  exponent := none

/-- What follows a number does not belong to it. -/
def EndsNumber (rest : List Char) : Prop :=
  ∀ c ∈ rest.head?, c.isDigit = false ∧ c ≠ '.' ∧ c ≠ 'e' ∧ c ≠ 'E'

/-- Numbers are written with digits. -/
theorem isDigit_of_mem {n : Nat} : ∀ c ∈ naturalChars n, c.isDigit = true :=
  fun _ hc => Nat.isDigit_of_mem_toDigits (by decide) (by decide) hc

theorem naturalChars_ne_nil (n : Nat) : naturalChars n ≠ [] := Nat.toDigits_ne_nil

/-- The digits of a number are read as that number. -/
theorem ofDigits_naturalChars (n : Nat) : ofDigits (naturalChars n) = n :=
  Nat.ofDigitChars_toDigits (by decide) (by decide)

/-- Only zero begins with a zero. -/
theorem head?_naturalChars {n : Nat} (hn : 0 < n) : (naturalChars n).head? ≠ some '0' := by
  induction n using Nat.strongRecOn with
  | ind n ih =>
    unfold naturalChars at ih ⊢
    by_cases h : n < 10
    · have hdigit : ∀ m < 10, 0 < m → m.digitChar ≠ '0' := by decide
      rw [Nat.toDigits_of_lt_base h, List.head?_singleton, Ne, Option.some.injEq]
      exact hdigit n h hn
    · rw [Nat.toDigits_of_base_le (by decide) (Nat.le_of_not_lt h),
        List.head?_append_of_ne_nil _ Nat.toDigits_ne_nil]
      exact ih (n / 10) (by omega) (by omega)

/-- The digits of a number end where something else begins. -/
theorem spanDigits_append {digits rest : List Char} (hdigits : ∀ c ∈ digits, c.isDigit = true)
    (hrest : EndsNumber rest) : spanDigits (digits ++ rest) = (digits, rest) := by
  have hnone : rest.takeWhile Char.isDigit = [] ∧ rest.dropWhile Char.isDigit = rest := by
    cases rest with
    | nil => exact ⟨rfl, rfl⟩
    | cons c rest =>
      have hc := (hrest c rfl).1
      exact ⟨List.takeWhile_cons_of_neg (by simp [hc]), List.dropWhile_cons_of_neg (by simp [hc])⟩
  rw [spanDigits, List.span_eq_takeWhile_dropWhile, List.takeWhile_append_of_pos hdigits,
    List.dropWhile_append_of_pos hdigits, hnone.1, hnone.2, List.append_nil]

/-- A natural number has no fraction. -/
theorem readFraction_of_ends {rest : List Char} (h : EndsNumber rest) :
    readFraction rest = some ([], rest) := by
  unfold readFraction
  split
  next => exact absurd rfl (h '.' rfl).2.1
  next => rfl

theorem readExponent_of_ends {rest : List Char} (h : EndsNumber rest) :
    readExponent rest = some (none, rest) := by
  unfold readExponent
  split
  next => rfl
  next e rest =>
    obtain ⟨-, -, he, hE⟩ := h e rfl
    rw [if_neg (not_or.2 ⟨he, hE⟩)]

/-- The digits of a natural number are a number, with no sign, fraction or exponent. -/
theorem readUnsigned_naturalChars (negative : Bool) (n : Nat) {rest : List Char}
    (h : EndsNumber rest) :
    readUnsigned negative (naturalChars n ++ rest) =
      some (⟨negative, naturalChars n, [], none⟩, rest) := by
  have hwhole : ¬((naturalChars n).isEmpty = true ∨
      (naturalChars n).head? = some '0' ∧ (naturalChars n).length ≠ 1) := by
    rintro (hempty | ⟨hzero, hlength⟩)
    · exact naturalChars_ne_nil n (List.isEmpty_iff.1 hempty)
    · rcases Nat.eq_zero_or_pos n with rfl | hn
      · exact hlength rfl
      · exact head?_naturalChars hn hzero
  unfold readUnsigned
  rw [spanDigits_append isDigit_of_mem h]
  dsimp only
  rw [if_neg hwhole, readFraction_of_ends h]
  simp only [Option.bind_eq_bind, Option.bind_some, readExponent_of_ends h]

/-- An integer is read as it was. -/
theorem readNumeral_integer (n : Int) {rest : List Char} (h : EndsNumber rest) :
    readNumeral ((Number.integer n).chars ++ rest) = some (numeral n, rest) := by
  show readNumeral ((if n < 0 then _ else _) ++ rest) = some (⟨decide (n < 0), _, _, _⟩, rest)
  split
  next hneg =>
    rw [decide_eq_true hneg]
    exact readUnsigned_naturalChars true _ h
  next hpos =>
    rw [decide_eq_false hpos]
    unfold readNumeral
    split
    next heq =>
      -- The text begins with a digit.
      obtain ⟨c, digits, hdigits⟩ := List.exists_cons_of_ne_nil (naturalChars_ne_nil n.natAbs)
      have hdigit := isDigit_of_mem c (hdigits ▸ List.mem_cons_self)
      rw [hdigits, List.cons_append] at heq
      obtain ⟨rfl, -⟩ := List.cons.inj heq
      cases hdigit
    next => exact readUnsigned_naturalChars false _ h

/-- A natural number is read from its numeral. -/
theorem natural?_numeral (n : Nat) : (numeral n).natural? = some n := by
  have hwhole : (numeral n).isWhole = true ∧ ¬(numeral n).negative = true := by
    simp [numeral, Numeral.isWhole]
  rw [Numeral.natural?, if_pos hwhole]
  exact congrArg some (ofDigits_naturalChars n)

/-- A natural number below a bound is read from its numeral. -/
theorem naturalBelow?_numeral {n bound : Nat} (h : n < bound) :
    (Document.number (numeral n)).naturalBelow? bound = some n := by
  rw [Document.naturalBelow?, natural?_numeral, Option.filter_some, if_pos (decide_eq_true h)]

theorem uint64?_numeral (n : UInt64) : (Document.number (numeral n.toNat)).uint64? = some n := by
  rw [Document.uint64?, naturalBelow?_numeral n.toNat_lt, Option.map_some, UInt64.ofNat_toNat]

theorem uint32?_numeral (n : UInt32) : (Document.number (numeral n.toNat)).uint32? = some n := by
  rw [Document.uint32?, naturalBelow?_numeral n.toNat_lt, Option.map_some, UInt32.ofNat_toNat]

/-- A whole number of 64 bits, with or without a sign, is read from its numeral as what it is. -/
theorem number?_numeral {n : Int} (hlower : -2 ^ 63 ≤ n) (hupper : n < 2 ^ 64) :
    (numeral n).number? = some (.integer n) := by
  have hmagnitude : ofDigits (numeral n).whole = n.natAbs := ofDigits_naturalChars _
  have hwhole : (numeral n).isWhole = true := rfl
  have hsize : UInt64.size = 2 ^ 64 := rfl
  rw [Numeral.number?, hmagnitude]
  by_cases hneg : n < 0
  · have hnegative : (numeral n).negative = true := decide_eq_true hneg
    rw [if_neg fun h => h.2.1 hnegative, if_pos ⟨hwhole, hnegative, by omega, by omega⟩,
      show -(n.natAbs : Int) = n by omega]
  · have hpositive : ¬(numeral n).negative = true := by simpa [numeral] using hneg
    rw [if_pos ⟨hwhole, hpositive, by omega⟩, show (n.natAbs : Int) = n by omega]

/-! ## Values -/

/-- What begins with a visible character has no blanks before it. -/
theorem skipBlanks_cons {c : Char} (hc : isBlank c = false) (text : List Char) :
    skipBlanks (c :: text) = c :: text :=
  List.dropWhile_cons_of_neg (by rw [hc]; exact Bool.false_ne_true)

theorem quoted_append (s : String) (rest : List Char) :
    quoted s ++ rest = '"' :: (s.toList.flatMap escaped ++ '"' :: rest) := by
  simp [quoted]

/-- A value's text is read as a document, whatever follows that does not belong to a number. -/
def Reads (text : List Char) (d : Document) : Prop :=
  ∀ steps rest, text.length ≤ steps → EndsNumber rest →
    readValue steps (text ++ rest) = some (d, rest)

/-- The empty value is read as it was. -/
theorem reads_null : Reads Value.null.chars .null := by
  intro steps rest hsteps _
  cases steps with
  | zero => cases hsteps
  | succ steps => rfl

/-- A truth value is read as it was. -/
theorem reads_bool (b : Bool) : Reads (Value.bool b).chars (.bool b) := by
  intro steps rest hsteps _
  cases steps with
  | zero => cases b <;> cases hsteps
  | succ steps => cases b <;> rfl

/-- A text is read as it was, piece by piece. -/
theorem reads_string (s : String) :
    Reads (Value.string s).chars (.string (s.toList.map piece)) := by
  intro steps rest hsteps _
  cases steps with
  | zero => cases hsteps
  | succ steps =>
    show readValue (steps + 1) (quoted s ++ rest) = _
    rw [quoted_append]
    show (readString (s.toList.flatMap escaped ++ '"' :: rest)).map _ = _
    rw [readString_flatMap]
    rfl

/-- A character with which a number begins, and nothing else. -/
def startsNumber (c : Char) : Bool := c.isDigit || c == '-'

/-- What begins like a number is read as one. -/
theorem readValue_number {c : Char} (hc : startsNumber c = true) (steps : Nat) (text : List Char) :
    readValue (steps + 1) (c :: text) =
      (readNumeral (c :: text)).map fun (n, rest) => (.number n, rest) := by
  have hblank : isBlank c = false := by
    by_contra h
    simp only [isBlank, decide_eq_true_eq, Bool.not_eq_false] at h
    rcases h with rfl | rfl | rfl | rfl <;> cases hc
  rw [readValue, skipBlanks_cons hblank]
  split
  next heq => cases heq; cases hc
  next heq => cases heq; cases hc
  next heq => cases heq; cases hc
  next heq => cases heq; cases hc
  next heq => cases heq; cases hc
  next heq => cases heq; cases hc
  next => rfl

/-- An integer is read as a value. -/
theorem reads_integer (n : Int) :
    Reads (Value.number (.integer n)).chars (.number (numeral n)) := by
  intro steps rest hsteps hrest
  have hstart : ∃ c text, (Number.integer n).chars = c :: text ∧ startsNumber c = true := by
    show ∃ c text, (if n < 0 then _ else _) = c :: text ∧ _
    split
    next => exact ⟨'-', _, rfl, rfl⟩
    next =>
      obtain ⟨c, text, heq⟩ := List.exists_cons_of_ne_nil (naturalChars_ne_nil n.natAbs)
      have hdigit := isDigit_of_mem c (heq ▸ List.mem_cons_self)
      exact ⟨c, text, heq, Bool.or_eq_true_iff.2 (.inl hdigit)⟩
  obtain ⟨c, text, heq, hc⟩ := hstart
  have hnumeral := readNumeral_integer n hrest
  show readValue steps ((Number.integer n).chars ++ rest) = _
  rw [heq] at hnumeral ⊢
  cases steps with
  | zero =>
    rw [show (Value.number (.integer n)).chars = _ from heq] at hsteps
    cases hsteps
  | succ steps =>
    rw [List.cons_append, readValue_number hc, ← List.cons_append, hnumeral]
    rfl

/-! ## Objects -/

/-- A member of an object, as it is written and as it is read. -/
structure Member where
  name : String
  value : Value
  document : Document

namespace Member

/-- What is written. -/
def written (m : Member) : String × Value := (m.name, m.value)

/-- What is read. -/
def read (m : Member) : List Piece × Document := (m.name.toList.map piece, m.document)

end Member

theorem endsNumber_brace (rest : List Char) : EndsNumber ('\x7d' :: rest) := by
  rintro c ⟨⟩
  decide

theorem endsNumber_comma (rest : List Char) : EndsNumber (',' :: rest) := by
  rintro c ⟨⟩
  decide

/-- A member is read, and there are more. -/
theorem readMembers_comma {m : Member} (hm : Reads m.value.chars m.document) {steps : Nat}
    (hsteps : m.value.chars.length ≤ steps) (rest : List Char) :
    readMembers (steps + 1) (quoted m.name ++ ':' :: (m.value.chars ++ ',' :: rest)) =
      (readMembers steps rest).map fun (ms, rest) => (m.read :: ms, rest) := by
  rw [quoted_append, readMembers, skipBlanks_cons (by decide)]
  simp only [readString_flatMap, Option.bind_eq_bind, Option.bind_some]
  rw [skipBlanks_cons (by decide)]
  simp only [hm steps _ hsteps (endsNumber_comma rest), Option.bind_some]
  rw [skipBlanks_cons (by decide)]
  show (readMembers steps rest).bind _ = _
  cases readMembers steps rest <;> rfl

/-- A member is read, and it is the last one. -/
theorem readMembers_brace {m : Member} (hm : Reads m.value.chars m.document) {steps : Nat}
    (hsteps : m.value.chars.length ≤ steps) (rest : List Char) :
    readMembers (steps + 1) (quoted m.name ++ ':' :: (m.value.chars ++ '\x7d' :: rest)) =
      some ([m.read], rest) := by
  rw [quoted_append, readMembers, skipBlanks_cons (by decide)]
  simp only [readString_flatMap, Option.bind_eq_bind, Option.bind_some]
  rw [skipBlanks_cons (by decide)]
  simp only [hm steps _ hsteps (endsNumber_brace rest), Option.bind_some]
  rw [skipBlanks_cons (by decide)]
  rfl

/-- The members of an object are read as they were. -/
theorem readMembers_memberChars {members : List Member} (hne : members ≠ [])
    (hmembers : ∀ m ∈ members, Reads m.value.chars m.document) {steps : Nat}
    (hsteps : (memberChars (members.map Member.written)).length < steps) (rest : List Char) :
    readMembers steps (memberChars (members.map Member.written) ++ '\x7d' :: rest) =
      some (members.map Member.read, rest) := by
  induction members generalizing steps with
  | nil => exact absurd rfl hne
  | cons m members ih =>
    obtain ⟨hm, hrest⟩ := List.forall_mem_cons.1 hmembers
    cases steps with
    | zero => cases hsteps
    | succ steps =>
      cases members with
      | nil =>
        have htext : memberChars [m.written] ++ '\x7d' :: rest =
            quoted m.name ++ ':' :: (m.value.chars ++ '\x7d' :: rest) := by
          simp [memberChars, Member.written]
        have hvalue : m.value.chars.length ≤ steps := by
          simp [memberChars, Member.written] at hsteps
          omega
        rw [List.map_singleton, htext, readMembers_brace hm hvalue]
        rfl
      | cons next members =>
        have htext : memberChars (m.written :: (next :: members).map Member.written) ++
            '\x7d' :: rest = quoted m.name ++ ':' :: (m.value.chars ++
              ',' :: (memberChars ((next :: members).map Member.written) ++ '\x7d' :: rest)) := by
          simp [memberChars, Member.written]
        have hlength : (memberChars (m.written :: (next :: members).map Member.written)).length =
            (quoted m.name).length + 1 + m.value.chars.length + 1 +
              (memberChars ((next :: members).map Member.written)).length := by
          simp [memberChars, Member.written]
          omega
        rw [List.map_cons, hlength] at hsteps
        rw [List.map_cons, htext, readMembers_comma hm (by omega), ih nofun hrest (by omega)]
        rfl

/-- An object is read if its members are. -/
theorem reads_object {members : List Member}
    (h : ∀ m ∈ members, Reads m.value.chars m.document) :
    Reads (Value.object (members.map Member.written)).chars
      (.object (members.map Member.read)) := by
  intro steps rest hsteps _
  have hchars : (Value.object (members.map Member.written)).chars ++ rest =
      '\x7b' :: (memberChars (members.map Member.written) ++ '\x7d' :: rest) := by
    simp [Value.chars]
  have hlength : (Value.object (members.map Member.written)).chars.length =
      (memberChars (members.map Member.written)).length + 2 := by
    simp [Value.chars]
  rw [hlength] at hsteps
  cases steps with
  | zero => cases hsteps
  | succ steps =>
    rw [hchars, readValue, skipBlanks_cons (by decide)]
    cases members with
    | nil => rfl
    | cons m members =>
      have hmembers := readMembers_memberChars (List.cons_ne_nil m members) h
        (Nat.lt_of_succ_lt_succ hsteps) rest
      have hquote : ∃ text, memberChars ((m :: members).map Member.written) ++ '\x7d' :: rest =
          '"' :: text := by
        cases members <;> exact ⟨_, rfl⟩
      obtain ⟨text, htext⟩ := hquote
      rw [htext] at hmembers ⊢
      show (readMembers steps ('"' :: text)).map _ = _
      rw [hmembers]
      rfl

/-- The text of a value is read as a document. -/
theorem read?_render {v : Value} {d : Document} (h : Reads v.chars d) :
    Document.read? v.render = some d := by
  have hread := h (2 * v.chars.length + 2) [] (by omega) nofun
  rw [List.append_nil] at hread
  rw [Document.read?, Value.render, String.toList_ofList, hread]
  rfl

end Courier.Json
