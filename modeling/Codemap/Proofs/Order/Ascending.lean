/-
# Ascending lists stand for sets

`ascendingBy` keeps the members of a list, puts them in strictly ascending order and so forgets how
often and in which order they were given: lists with the same members have the same ascending list
(`ascendingBy_congr`).  The orders on texts and on pairs of texts are strict orders.

Sorting texts, in contrast, keeps repetitions and forgets only the order (`sort_congr`).
-/
import Codemap.Order.Ascending
import Mathlib.Data.List.Lex
import Mathlib.Data.List.Sort
import Mathlib.Data.String.Basic

namespace Codemap.Order

/-! ## 1. Strict orders -/

/-- A test that orders all items of a type strictly. -/
structure StrictOrder {α : Type} (before : α → α → Bool) : Prop where
  irrefl : ∀ a, ¬ before a a
  trans : ∀ {a b c}, before a b → before b c → before a c
  connected : ∀ {a b}, ¬ before a b → ¬ before b a → a = b

theorem strictOrder_textBefore : StrictOrder textBefore where
  irrefl a := by simp [textBefore]
  trans := by
    intro a b c hab hbc
    simp only [textBefore, decide_eq_true_eq] at *
    exact String.lt_trans hab hbc
  connected := by
    intro a b hab hba
    simp only [textBefore, decide_eq_true_eq, String.not_lt] at *
    exact String.le_antisymm hba hab

theorem pairBefore_iff {a b : String × String} :
    pairBefore a b ↔ a.1 < b.1 ∨ (a.1 = b.1 ∧ a.2 < b.2) := by
  simp [pairBefore]

theorem strictOrder_pairBefore : StrictOrder pairBefore where
  irrefl a := by simp [pairBefore_iff]
  trans := by
    intro a b c hab hbc
    rw [pairBefore_iff] at *
    rcases hab with hab | ⟨hab, hab'⟩ <;> rcases hbc with hbc | ⟨hbc, hbc'⟩
    · exact Or.inl (String.lt_trans hab hbc)
    · exact Or.inl (hbc ▸ hab)
    · exact Or.inl (hab ▸ hbc)
    · exact Or.inr ⟨hab.trans hbc, String.lt_trans hab' hbc'⟩
  connected := by
    intro a b hab hba
    simp only [pairBefore_iff, not_or, not_and, String.not_lt] at hab hba
    have h1 : a.1 = b.1 := String.le_antisymm hba.1 hab.1
    exact Prod.ext h1 (String.le_antisymm (hba.2 h1.symm) (hab.2 h1))

/-! ## 2. Ascending lists -/

section Ascending

variable {α : Type} {before : α → α → Bool}

theorem mem_insertAscending (ho : StrictOrder before) (x z : α) (ys : List α) :
    z ∈ insertAscending before x ys ↔ z = x ∨ z ∈ ys := by
  induction ys with
  | nil => simp [insertAscending]
  | cons y ys ih =>
    by_cases hxy : before x y
    · simp [insertAscending, hxy]
    · by_cases hyx : before y x
      · rw [insertAscending, if_neg hxy, if_pos hyx, List.mem_cons, ih, List.mem_cons]
        exact or_left_comm
      · have : x = y := ho.connected hxy hyx
        simp [insertAscending, this, ho.irrefl y]

theorem pairwise_insertAscending (ho : StrictOrder before) (x : α) {ys : List α}
    (h : ys.Pairwise (before · ·)) : (insertAscending before x ys).Pairwise (before · ·) := by
  induction ys with
  | nil => simp [insertAscending]
  | cons y ys ih =>
    obtain ⟨hy, hys⟩ := List.pairwise_cons.mp h
    by_cases hxy : before x y
    · rw [insertAscending, if_pos hxy]
      refine List.pairwise_cons.mpr ⟨fun z hz => ?_, h⟩
      rcases List.mem_cons.mp hz with rfl | hz
      · exact hxy
      · exact ho.trans hxy (hy z hz)
    · by_cases hyx : before y x
      · rw [insertAscending, if_neg hxy, if_pos hyx]
        refine List.pairwise_cons.mpr ⟨fun z hz => ?_, ih hys⟩
        rcases (mem_insertAscending ho x z ys).mp hz with rfl | hz
        · exact hyx
        · exact hy z hz
      · rw [insertAscending, if_neg hxy, if_neg hyx]
        exact h

/-- **An ascending list has the members of the list it comes from.** -/
theorem mem_ascendingBy (ho : StrictOrder before) {z : α} {xs : List α} :
    z ∈ ascendingBy before xs ↔ z ∈ xs := by
  induction xs with
  | nil => simp [ascendingBy]
  | cons x xs ih =>
    rw [ascendingBy, List.foldr_cons, mem_insertAscending ho, List.mem_cons]
    exact or_congr_right ih

/-- **An ascending list is strictly ascending.** -/
theorem pairwise_ascendingBy (ho : StrictOrder before) (xs : List α) :
    (ascendingBy before xs).Pairwise (before · ·) := by
  induction xs with
  | nil => simp [ascendingBy]
  | cons x xs ih => exact pairwise_insertAscending ho x ih

/-- **Lists with the same members have the same ascending list.** -/
theorem ascendingBy_congr (ho : StrictOrder before) {xs ys : List α}
    (h : ∀ z, z ∈ xs ↔ z ∈ ys) : ascendingBy before xs = ascendingBy before ys := by
  have : Std.Irrefl (fun a b : α => (before a b : Prop)) := ⟨ho.irrefl⟩
  have : Std.Antisymm (fun a b : α => (before a b : Prop)) :=
    ⟨fun a b hab hba => absurd (ho.trans hab hba) (ho.irrefl a)⟩
  refine (pairwise_ascendingBy ho xs).eq_of_mem_iff (pairwise_ascendingBy ho ys) fun z => ?_
  rw [mem_ascendingBy ho, mem_ascendingBy ho]
  exact h z

end Ascending

/-! ## 3. Texts -/

@[simp] theorem mem_ascending {z : String} {xs : List String} : z ∈ ascending xs ↔ z ∈ xs :=
  mem_ascendingBy strictOrder_textBefore

theorem pairwise_ascending (xs : List String) : (ascending xs).Pairwise (· < ·) :=
  (pairwise_ascendingBy strictOrder_textBefore xs).imp (by simp [textBefore])

theorem ascending_congr {xs ys : List String} (h : ∀ z, z ∈ xs ↔ z ∈ ys) :
    ascending xs = ascending ys :=
  ascendingBy_congr strictOrder_textBefore h

/-- Items that are sorted by a text do not descend. -/
theorem pairwise_sortBy {α : Type} (key : α → String) (xs : List α) :
    (xs.mergeSort fun a b => key a ≤ key b).Pairwise (key · ≤ key ·) := by
  refine (List.pairwise_mergeSort ?_ ?_ xs).imp (by simp)
  · intro a b c hab hbc
    simp only [decide_eq_true_eq] at *
    exact String.le_trans hab hbc
  · intro a b
    simpa using String.le_total (key a) (key b)

/-- Sorted texts do not descend. -/
theorem pairwise_sort (xs : List String) :
    (xs.mergeSort fun a b => a ≤ b).Pairwise (· ≤ ·) := pairwise_sortBy id xs

/-- Sorted lists of texts do not descend. -/
theorem pairwise_sortLists (xs : List (List String)) :
    (xs.mergeSort fun a b => !listBefore b a).Pairwise (· ≤ ·) := by
  refine (List.pairwise_mergeSort ?_ ?_ xs).imp (by simp [listBefore])
  · intro a b c hab hbc
    simp only [listBefore, Bool.not_eq_true', decide_eq_false_iff_not, not_lt] at *
    exact hab.trans hbc
  · intro a b
    simpa [listBefore] using le_total a b

/-- Items that are sorted by distinct texts ascend strictly. -/
theorem pairwise_lt_sortBy {α : Type} {key : α → String} {xs : List α} (h : (xs.map key).Nodup) :
    (xs.mergeSort fun a b => key a ≤ key b).Pairwise (key · < key ·) := by
  have hn : ((xs.mergeSort fun a b => key a ≤ key b).map key).Nodup :=
    ((List.mergeSort_perm xs _).map key).nodup_iff.mpr h
  refine (pairwise_sortBy key xs).imp₂ (fun a b hle hne => ?_) (List.pairwise_map.mp hn)
  exact Classical.byContradiction fun hlt => hne (String.le_antisymm hle (String.not_lt.mp hlt))

/-- Texts without repetitions ascend strictly when they are sorted. -/
theorem pairwise_lt_sort {xs : List String} (h : xs.Nodup) :
    (xs.mergeSort fun a b => a ≤ b).Pairwise (· < ·) := by
  have hid : (xs.map id).Nodup := by rwa [List.map_id]
  exact pairwise_lt_sortBy hid

/-- Sorting forgets the order in which texts were given. -/
theorem sort_congr {xs ys : List String} (h : xs.Perm ys) :
    (xs.mergeSort fun a b => a ≤ b) = ys.mergeSort fun a b => a ≤ b := by
  refine List.Perm.eq_of_pairwise (fun a b _ _ => String.le_antisymm) (pairwise_sort xs)
    (pairwise_sort ys) ?_
  exact (List.mergeSort_perm xs _).trans (h.trans (List.mergeSort_perm ys _).symm)

/-- Texts may be left out before they are sorted or after. -/
theorem filter_sort (p : String → Bool) (xs : List String) :
    (xs.mergeSort fun a b => a ≤ b).filter p = (xs.filter p).mergeSort fun a b => a ≤ b := by
  refine List.Perm.eq_of_pairwise (fun a b _ _ => String.le_antisymm)
    ((pairwise_sort xs).filter p) (pairwise_sort _) ?_
  exact ((List.mergeSort_perm xs _).filter p).trans (List.mergeSort_perm _ _).symm

end Codemap.Order
