import Courier.Event.Id
import Courier.Proofs.Hex

/-!
# Identifiers that are written and read again

> `parse?_toString`: an identifier is read from its written form, in which only the groups between
> hyphens are left as a way to read it.
-/

namespace Courier.Event.Id

theorem length_hyphenate (groups : List Nat) (digits : List Char) :
    (hyphenate groups digits).length = digits.length + groups.length := by
  induction groups generalizing digits with
  | nil => rfl
  | cons n groups ih =>
    rw [hyphenate, List.length_append, List.length_cons, ih, List.length_take, List.length_drop,
      List.length_cons]
    omega

/-- Hyphens are found where they have been put. -/
theorem unhyphenate?_hyphenate {groups : List Nat} {digits : List Char}
    (h : groups.sum ≤ digits.length) :
    unhyphenate? groups (hyphenate groups digits) = some digits := by
  induction groups generalizing digits with
  | nil => rfl
  | cons n groups ih =>
    rw [List.sum_cons] at h
    have hlength : (digits.take n).length = n := List.length_take_of_le (by omega)
    have hrest : groups.sum ≤ (digits.drop n).length := by
      rw [List.length_drop]
      omega
    rw [hyphenate, unhyphenate?, List.drop_left' hlength]
    show (unhyphenate? groups (hyphenate groups (digits.drop n))).map _ = some digits
    rw [ih hrest, Option.map_some, List.take_left' hlength, List.take_append_drop]

theorem ofPlain?_digits (id : Id) : ofPlain? (Hex.digits 32 id.bits.toNat) = some id := by
  have hsmall : id.bits.toNat % 16 ^ 32 = id.bits.toNat := Nat.mod_eq_of_lt id.bits.isLt
  rw [ofPlain?, if_pos (Hex.length_digits 32 _), Hex.ofDigits?_digits, hsmall, Option.map_some,
    ofNat, BitVec.ofNat_toNat, BitVec.setWidth_eq]

/-- An identifier is read from its written form. -/
theorem parse?_toString (id : Id) : parse? id.toString = some id := by
  have hsum : groups.sum ≤ (Hex.digits 32 id.bits.toNat).length := by
    rw [Hex.length_digits]
    decide
  -- With its hyphens the text is too long to be digits only.
  have hlength : (hyphenate groups (Hex.digits 32 id.bits.toNat)).length ≠ 32 := by
    rw [length_hyphenate, Hex.length_digits]
    decide
  rw [parse?, toString, String.toList_ofList, ofPlain?, if_neg hlength, ofGroups?,
    unhyphenate?_hyphenate hsum, Option.bind_some, ofPlain?_digits]
  rfl

end Courier.Event.Id
