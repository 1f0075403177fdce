/-
# What does not depend on the order of a list

Three things forget in which order the items of a list are given:

* a search, if no two items pass its test (`find?_eq_of_perm`), as in a search for a key when keys
  tell the items apart (`find?_reverse_eq_of_perm`);
* a concatenation, if no two of its parts are nonempty (`flatMap_eq_of_perm`);
* a stable sort, but for items that are equivalent (`mergeSort_congr`): two lists that agree on each
  class of equivalent items are sorted into the same list.  So a list may be sorted before more
  items are added to it (`mergeSort_mergeSort_append`).
-/
import Mathlib.Data.List.Sort

namespace Codemap.Order

variable {α β : Type}

/-! ## 1. Searches and concatenations -/

/-- **A search that only one item can satisfy does not depend on the order.** -/
theorem find?_eq_of_perm {p : α → Bool} {xs ys : List α} (h : xs.Perm ys)
    (hone : ∀ a ∈ xs, ∀ b ∈ xs, p a → p b → a = b) : xs.find? p = ys.find? p := by
  cases hx : xs.find? p with
  | none =>
    symm
    rw [List.find?_eq_none] at hx ⊢
    exact fun y hy => hx y (h.mem_iff.mpr hy)
  | some a =>
    have ha : a ∈ xs := List.mem_of_find?_eq_some hx
    have hpa : p a := List.find?_some hx
    cases hy : ys.find? p with
    | none => exact absurd hpa (List.find?_eq_none.mp hy a (h.mem_iff.mp ha))
    | some b =>
      have hb : b ∈ xs := h.mem_iff.mpr (List.mem_of_find?_eq_some hy)
      rw [hone a ha b hb hpa (List.find?_some hy)]

/-- **The last item with a key does not depend on the order**, when keys tell the items apart. -/
theorem find?_reverse_eq_of_perm {key : α → String} {xs ys : List α} (h : xs.Perm ys)
    (hd : (xs.map key).Nodup) (k : String) :
    xs.reverse.find? (fun a => key a == k) = ys.reverse.find? fun a => key a == k := by
  have hperm : xs.reverse.Perm ys.reverse :=
    (List.reverse_perm xs).trans (h.trans (List.reverse_perm ys).symm)
  refine find?_eq_of_perm hperm fun a ha b hb hak hbk => ?_
  rw [beq_iff_eq] at hak hbk
  exact List.inj_on_of_nodup_map hd (List.mem_reverse.mp ha) (List.mem_reverse.mp hb)
    (hak.trans hbk.symm)

/-- **A concatenation of parts of which only one is nonempty does not depend on the order.** -/
theorem flatMap_eq_of_perm {f : α → List β} {xs ys : List α} (h : xs.Perm ys)
    (hone : xs.Pairwise fun a b => f a = [] ∨ f b = []) : xs.flatMap f = ys.flatMap f := by
  have hsymm : ∀ {a b}, (f a = [] ∨ f b = []) → (f b = [] ∨ f a = []) := Or.symm
  induction h with
  | nil => rfl
  | cons x _ ih => rw [List.flatMap_cons, List.flatMap_cons, ih (List.pairwise_cons.mp hone).2]
  | swap x y l =>
    have hyx : f y = [] ∨ f x = [] := (List.pairwise_cons.mp hone).1 x List.mem_cons_self
    simp only [List.flatMap_cons]
    rcases hyx with hy | hx
    · rw [hy, List.nil_append, List.nil_append]
    · rw [hx, List.nil_append, List.nil_append]
  | trans h1 _ ih1 ih2 => exact (ih1 hone).trans (ih2 (h1.pairwise hone hsymm))

/-! ## 2. Stable sorting -/

section Stable

variable {le : α → α → Bool}

/-- Whether two items are equivalent in an order. -/
def equivalent (le : α → α → Bool) (a b : α) : Bool := le a b && le b a

/-- Sorted lists that agree on each class of equivalent items are equal. -/
theorem eq_of_filter_equivalent_eq (total : ∀ a b, le a b || le b a) {xs ys : List α}
    (hx : xs.Pairwise (le · ·)) (hy : ys.Pairwise (le · ·))
    (h : ∀ z, xs.filter (equivalent le z) = ys.filter (equivalent le z)) : xs = ys := by
  have hrefl : ∀ a, le a a := fun a => by simpa using total a a
  have hself : ∀ a, equivalent le a a := fun a => by simp [equivalent, hrefl a]
  have hmem : ∀ {us vs : List α},
      (∀ z, us.filter (equivalent le z) = vs.filter (equivalent le z)) → ∀ a ∈ us, a ∈ vs := by
    intro us vs huv a ha
    have : a ∈ us.filter (equivalent le a) := List.mem_filter.mpr ⟨ha, hself a⟩
    rw [huv a] at this
    exact (List.mem_filter.mp this).1
  have hhead : ∀ {a b : α} {us : List α}, (a :: us).Pairwise (le · ·) → b ∈ a :: us → le a b := by
    intro a b us hp hb
    rcases List.mem_cons.mp hb with rfl | hb
    · exact hrefl b
    · exact (List.pairwise_cons.mp hp).1 b hb
  induction xs generalizing ys with
  | nil => exact (List.eq_nil_iff_forall_not_mem.mpr fun y hy =>
      List.not_mem_nil (hmem (fun z => (h z).symm) y hy)).symm
  | cons x xs ih =>
    cases ys with
    | nil => exact absurd (hmem h x List.mem_cons_self) List.not_mem_nil
    | cons y ys =>
      -- the first items are equivalent, so they are the first of one class
      have hyx : le y x := hhead hy (hmem h x List.mem_cons_self)
      have hxy : le x y := hhead hx (hmem (fun z => (h z).symm) y List.mem_cons_self)
      have hfirst := h x
      rw [List.filter_cons_of_pos (hself x),
        List.filter_cons_of_pos (by simp [equivalent, hxy, hyx])] at hfirst
      obtain rfl : x = y := (List.cons.inj hfirst).1
      refine congrArg (x :: ·) (ih (List.pairwise_cons.mp hx).2 (List.pairwise_cons.mp hy).2 ?_)
      intro z
      have hz := h z
      by_cases hzx : equivalent le z x
      · rw [List.filter_cons_of_pos hzx, List.filter_cons_of_pos hzx] at hz
        exact (List.cons.inj hz).2
      · rwa [List.filter_cons_of_neg hzx, List.filter_cons_of_neg hzx] at hz

/-- Sorting keeps the order of equivalent items. -/
theorem filter_equivalent_mergeSort (trans : ∀ a b c, le a b → le b c → le a c)
    (total : ∀ a b, le a b || le b a) (xs : List α) (z : α) :
    (xs.mergeSort le).filter (equivalent le z) = xs.filter (equivalent le z) := by
  have hclass : (xs.filter (equivalent le z)).Pairwise (le · ·) := by
    refine List.pairwise_of_forall_mem_list fun a ha b hb => ?_
    have ha := (List.mem_filter.mp ha).2
    have hb := (List.mem_filter.mp hb).2
    simp only [equivalent, Bool.and_eq_true] at ha hb
    exact trans a z b ha.2 hb.1
  have hsub := (List.sublist_mergeSort trans total hclass List.filter_sublist).filter
    (equivalent le z)
  rw [List.filter_filter] at hsub
  simp only [Bool.and_self] at hsub
  exact (hsub.eq_of_length ((List.mergeSort_perm xs le).filter _).length_eq.symm).symm

/-- **Lists that agree on each class of equivalent items are sorted into the same list.** -/
theorem mergeSort_congr (trans : ∀ a b c, le a b → le b c → le a c)
    (total : ∀ a b, le a b || le b a) {xs ys : List α}
    (h : ∀ z, xs.filter (equivalent le z) = ys.filter (equivalent le z)) :
    xs.mergeSort le = ys.mergeSort le := by
  refine eq_of_filter_equivalent_eq total (List.pairwise_mergeSort trans total xs)
    (List.pairwise_mergeSort trans total ys) fun z => ?_
  rw [filter_equivalent_mergeSort trans total, filter_equivalent_mergeSort trans total, h z]

/-- **Items may be left out before they are sorted or after.** -/
theorem filter_mergeSort (trans : ∀ a b c, le a b → le b c → le a c)
    (total : ∀ a b, le a b || le b a) (p : α → Bool) (xs : List α) :
    (xs.mergeSort le).filter p = (xs.filter p).mergeSort le := by
  refine eq_of_filter_equivalent_eq total ((List.pairwise_mergeSort trans total xs).filter p)
    (List.pairwise_mergeSort trans total _) fun z => ?_
  rw [filter_equivalent_mergeSort trans total, List.filter_comm,
    filter_equivalent_mergeSort trans total, List.filter_comm]

/-- **Items may be sorted before others are added.** -/
theorem mergeSort_mergeSort_append (trans : ∀ a b c, le a b → le b c → le a c)
    (total : ∀ a b, le a b || le b a) (xs ys : List α) :
    (xs.mergeSort le ++ ys).mergeSort le = (xs ++ ys).mergeSort le := by
  refine mergeSort_congr trans total fun z => ?_
  rw [List.filter_append, List.filter_append, filter_equivalent_mergeSort trans total]

end Stable

end Codemap.Order
