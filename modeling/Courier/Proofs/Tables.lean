import Mathlib.Data.List.Perm.Basic
import Mathlib.Data.List.Nodup

/-!
# Tables

A table is a list of keys with what stands under each of them.

> `lookup_perm`: if no key stands twice, the order of the table does not matter to a look-up.

> `filter_key`: a look-up finds all there is under a key.

> `lookup_filterMap`: what is listed under the keys of some things is found there.
-/

namespace Courier

variable {κ β : Type}

/-- Keys that are not repeated are not repeated where only some of them have an entry. -/
theorem nodup_filterMap {α : Type} {things : List α} {key : α → κ}
    (hnodup : (things.map key).Nodup) (value : α → Option β) :
    ((things.filterMap fun a => (value a).map (key a, ·)).map (·.1)).Nodup := by
  have hkeys (l : List α) : (l.filterMap fun a => (value a).map (key a, ·)).map (·.1) =
      (l.filter fun a => (value a).isSome).map key := by
    induction l with
    | nil => rfl
    | cons a l ih => cases hvalue : value a <;> simp [hvalue, ih]
  rw [hkeys]
  exact hnodup.sublist (List.filter_sublist.map key)

variable [DecidableEq κ]

/-- If no key stands twice, the order of the table does not matter to a look-up. -/
theorem lookup_perm {l l' : List (κ × β)} (h : l.Perm l') (hnodup : (l.map (·.1)).Nodup)
    (key : κ) : l.lookup key = l'.lookup key := by
  induction h with
  | nil => rfl
  | cons x _ ih => rw [List.lookup_cons, List.lookup_cons, ih (List.nodup_cons.1 hnodup).2]
  | swap x y l =>
    have hne : y.1 ≠ x.1 := by
      rintro heq
      simp [heq] at hnodup
    rw [List.lookup_cons, List.lookup_cons, List.lookup_cons, List.lookup_cons]
    by_cases hx : key = x.1
    · have hy : (key == y.1) = false := by
        rw [hx]
        exact beq_eq_false_iff_ne.2 hne.symm
      rw [hy]
    · have hx : (key == x.1) = false := beq_eq_false_iff_ne.2 hx
      rw [hx]
  | trans h _ ih ih' => exact (ih hnodup).trans (ih' ((h.map _).nodup_iff.1 hnodup))

/-- If no key stands twice, a look-up finds all there is under a key. -/
theorem filter_key {l : List (κ × β)} (hnodup : (l.map (·.1)).Nodup) (key : κ) :
    l.filter (fun entry => entry.1 = key) = ((l.lookup key).map (key, ·)).toList := by
  induction l with
  | nil => rfl
  | cons entry l ih =>
    obtain ⟨hnew, hnodup⟩ := List.nodup_cons.1 hnodup
    by_cases heq : entry.1 = key
    · have hnone : l.filter (fun entry => entry.1 = key) = [] := by
        refine List.filter_eq_nil_iff.2 fun other hother hsame => hnew ?_
        have hother' := List.mem_map_of_mem (f := (·.1)) hother
        rwa [of_decide_eq_true hsame, ← heq] at hother'
      rw [List.filter_cons, if_pos (decide_eq_true heq), hnone, List.lookup_cons, ← heq,
        beq_self_eq_true]
      rfl
    · rw [List.filter_cons_of_neg (by simpa using heq), ih hnodup, List.lookup_cons,
        beq_eq_false_iff_ne.2 (Ne.symm heq)]

/-- What is listed under the keys of some things is found under them, and nothing else. -/
theorem lookup_filterMap {α : Type} {things : List α} {key : α → κ}
    (hnodup : (things.map key).Nodup) (value : α → Option β) {a : α} (ha : a ∈ things) :
    (things.filterMap fun a => (value a).map (key a, ·)).lookup (key a) = value a := by
  induction things with
  | nil => cases ha
  | cons b things ih =>
    obtain ⟨hnew, hnodup⟩ := List.nodup_cons.1 hnodup
    rcases List.mem_cons.1 ha with rfl | ha
    · have hnone : (things.filterMap fun b => (value b).map (key b, ·)).lookup (key a) = none := by
        refine List.lookup_eq_none_iff.2 fun entry hentry => ?_
        obtain ⟨b, hb, hentry⟩ := List.mem_filterMap.1 hentry
        obtain ⟨-, -, rfl⟩ := Option.map_eq_some_iff.1 hentry
        refine bne_iff_ne.2 fun heq => hnew ?_
        rw [heq]
        exact List.mem_map_of_mem hb
      cases hvalue : value a with
      | none => rw [List.filterMap_cons_none (by rw [hvalue]; rfl), hnone]
      | some b =>
        rw [List.filterMap_cons_some (by rw [hvalue]; rfl), List.lookup_cons, beq_self_eq_true]
    · have hne : key a ≠ key b := fun heq => hnew (heq ▸ List.mem_map_of_mem ha)
      cases hvalue : value b with
      | none => rw [List.filterMap_cons_none (by rw [hvalue]; rfl), ih hnodup ha]
      | some c =>
        rw [List.filterMap_cons_some (by rw [hvalue]; rfl), List.lookup_cons,
          beq_eq_false_iff_ne.2 hne, ih hnodup ha]

end Courier
