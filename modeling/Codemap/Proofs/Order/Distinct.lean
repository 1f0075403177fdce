/-
# What is left of a list without repetitions

The keys that are left are the keys of the list, each of them once, and the first item is left.
Items that are left out by what they are may be left out before or after (`distinct_filter`).
Keys that are seen through a map leave less, unless the map tells them apart
(`distinctBy_comp_eq_iff`).
-/
import Codemap.Order.Distinct
import Mathlib.Data.List.Induction
import Mathlib.Data.List.Nodup

namespace Codemap.Order

variable {α κ : Type} [BEq κ] [LawfulBEq κ]

/-- An item at the end stays if no item before has its key. -/
theorem distinctBy_concat [DecidableEq κ] (key : α → κ) (xs : List α) (x : α) :
    distinctBy key (xs ++ [x]) =
      if key x ∈ (distinctBy key xs).map key then distinctBy key xs
      else distinctBy key xs ++ [x] := by
  rw [distinctBy, List.foldl_append, List.foldl_cons, List.foldl_nil, ← distinctBy]
  refine if_congr ?_ rfl rfl
  simp only [List.any_eq_true, beq_iff_eq, List.mem_map]

/-- No keys get lost. -/
theorem mem_map_distinctBy (key : α → κ) {k : κ} {xs : List α} :
    k ∈ (distinctBy key xs).map key ↔ k ∈ xs.map key := by
  classical
  induction xs using List.reverseRecOn with
  | nil => rfl
  | append_singleton xs x ih =>
    rw [distinctBy_concat, List.map_append, List.mem_append, ← ih]
    split
    next hx =>
      refine ⟨Or.inl, fun h => h.elim id fun h => ?_⟩
      rwa [List.mem_singleton.mp h]
    · rw [List.map_append, List.mem_append]

/-- No key is left twice. -/
theorem nodup_map_distinctBy (key : α → κ) (xs : List α) :
    ((distinctBy key xs).map key).Nodup := by
  classical
  induction xs using List.reverseRecOn with
  | nil => exact List.nodup_nil
  | append_singleton xs x ih =>
    rw [distinctBy_concat]
    split
    · exact ih
    next hx =>
      rw [List.map_append]
      exact ih.append (List.nodup_singleton _) (List.disjoint_singleton.mpr hx)

/-- The first item is left. -/
theorem head?_distinctBy (key : α → κ) (xs : List α) :
    (distinctBy key xs).head? = xs.head? := by
  classical
  induction xs using List.reverseRecOn with
  | nil => rfl
  | append_singleton xs x ih =>
    rw [distinctBy_concat, List.head?_append, ← ih]
    split
    next hx =>
      obtain ⟨y, hy, -⟩ := List.mem_map.mp hx
      cases hxs : distinctBy key xs with
      | nil => exact absurd (hxs ▸ hy) List.not_mem_nil
      | cons z zs => rfl
    · rw [List.head?_append]

/-- The items that are left keep their order. -/
theorem distinctBy_sublist (key : α → κ) (xs : List α) : (distinctBy key xs).Sublist xs := by
  classical
  induction xs using List.reverseRecOn with
  | nil => exact List.Sublist.slnil
  | append_singleton xs x ih =>
    rw [distinctBy_concat]
    split
    · exact ih.trans (List.sublist_append_left xs [x])
    · exact ih.append_right [x]

/-- What is left is what is found first under its key. -/
theorem find?_of_mem_distinctBy {key : α → κ} {xs : List α} {x : α} (hx : x ∈ distinctBy key xs) :
    xs.find? (fun y => key y == key x) = some x := by
  classical
  induction xs using List.reverseRecOn with
  | nil => exact absurd hx List.not_mem_nil
  | append_singleton xs y ih =>
    rw [distinctBy_concat] at hx
    rw [List.find?_append]
    split at hx
    · rw [ih hx]
      rfl
    next hy =>
      rcases List.mem_append.mp hx with hx | hx
      · rw [ih hx]
        rfl
      · obtain rfl := List.mem_singleton.mp hx
        have hnone : xs.find? (fun y => key y == key x) = none := by
          rw [List.find?_eq_none]
          intro z hz heq
          rw [mem_map_distinctBy] at hy
          exact hy (List.mem_map.mpr ⟨z, hz, eq_of_beq heq⟩)
        rw [hnone, Option.none_or, List.find?_singleton, beq_self_eq_true, if_pos rfl]

section Keys

variable {κ' : Type} [BEq κ'] [LawfulBEq κ'] {key : α → κ} {key' : α → κ'} {xs : List α}

theorem distinctBy_congr (h : ∀ x ∈ xs, ∀ y ∈ xs, key x = key y ↔ key' x = key' y) :
    distinctBy key xs = distinctBy key' xs := by
  classical
  induction xs using List.reverseRecOn with
  | nil => rfl
  | append_singleton xs x ih =>
    have ih := ih fun y hy z hz => h y (List.mem_append_left _ hy) z (List.mem_append_left _ hz)
    have hmem : key x ∈ (distinctBy key xs).map key ↔ key' x ∈ (distinctBy key' xs).map key' := by
      rw [mem_map_distinctBy, mem_map_distinctBy, List.mem_map, List.mem_map]
      refine exists_congr fun y => and_congr_right fun hy => ?_
      exact h y (List.mem_append_left _ hy) x (List.mem_append_right _ (List.mem_singleton_self x))
    rw [distinctBy_concat, distinctBy_concat, if_congr hmem ih (congrArg (· ++ [x]) ih)]

/-- Keys that are seen through a map leave no more items. -/
theorem distinctBy_comp_sublist (g : κ → κ') (key : α → κ) (xs : List α) :
    (distinctBy (g ∘ key) xs).Sublist (distinctBy key xs) := by
  classical
  induction xs using List.reverseRecOn with
  | nil => exact List.Sublist.slnil
  | append_singleton xs x ih =>
    rw [distinctBy_concat, distinctBy_concat]
    by_cases hx : key x ∈ (distinctBy key xs).map key
    · have hgx : (g ∘ key) x ∈ (distinctBy (g ∘ key) xs).map (g ∘ key) := by
        rw [mem_map_distinctBy] at hx ⊢
        obtain ⟨y, hy, hyx⟩ := List.mem_map.mp hx
        exact List.mem_map.mpr ⟨y, hy, congrArg g hyx⟩
      rw [if_pos hx, if_pos hgx]
      exact ih
    · rw [if_neg hx]
      split
      · exact ih.trans (List.sublist_append_left _ [x])
      · exact ih.append_right [x]

/-- **Keys that are seen through a map leave the same items exactly if the map tells the keys
apart.** -/
theorem distinctBy_comp_eq_iff (g : κ → κ') (key : α → κ) (xs : List α) :
    distinctBy (g ∘ key) xs = distinctBy key xs ↔
      ∀ x ∈ xs, ∀ y ∈ xs, g (key x) = g (key y) → key x = key y := by
  constructor
  · intro h
    have hnodup : ((distinctBy key xs).map (g ∘ key)).Nodup := h ▸ nodup_map_distinctBy (g ∘ key) xs
    have hleft : ∀ x ∈ xs, ∃ y ∈ distinctBy key xs, key y = key x := fun x hx =>
      List.mem_map.mp ((mem_map_distinctBy key).mpr (List.mem_map_of_mem hx))
    intro x hx y hy hxy
    obtain ⟨x', hx', hkx⟩ := hleft x hx
    obtain ⟨y', hy', hky⟩ := hleft y hy
    have hsame : (g ∘ key) x' = (g ∘ key) y' := by simp only [Function.comp_apply, hkx, hky, hxy]
    rw [← hkx, ← hky, List.inj_on_of_nodup_map hnodup hx' hy' hsame]
  · intro h
    exact distinctBy_congr fun x hx y hy => ⟨h x hx y hy, fun hxy => congrArg g hxy⟩

end Keys

variable [BEq α] [LawfulBEq α]

theorem mem_distinct {x : α} {xs : List α} : x ∈ distinct xs ↔ x ∈ xs := by
  have h := @mem_map_distinctBy α α _ _ id x xs
  rwa [List.map_id, List.map_id] at h

theorem nodup_distinct (xs : List α) : (distinct xs).Nodup := by
  have h := nodup_map_distinctBy id xs
  rwa [List.map_id] at h

theorem distinct_concat [DecidableEq α] (xs : List α) (x : α) :
    distinct (xs ++ [x]) = if x ∈ xs then distinct xs else distinct xs ++ [x] := by
  rw [distinct, distinctBy_concat, ← distinct, List.map_id]
  exact if_congr mem_distinct rfl rfl

/-- **What is left out by a test may be left out before repetitions are, or after.** -/
theorem distinct_filter (p : α → Bool) (xs : List α) :
    distinct (xs.filter p) = (distinct xs).filter p := by
  classical
  induction xs using List.reverseRecOn with
  | nil => rfl
  | append_singleton xs x ih =>
    rw [List.filter_append, distinct_concat]
    by_cases hp : p x
    · have hmem : x ∈ xs.filter p ↔ x ∈ xs := by
        rw [List.mem_filter, and_iff_left hp]
      rw [List.filter_singleton, hp, cond_true, distinct_concat, ih, if_congr hmem rfl rfl]
      split
      · rfl
      · rw [List.filter_append, List.filter_singleton, hp, cond_true]
    · have hp : p x = false := by simpa using hp
      rw [List.filter_singleton, hp, cond_false, List.append_nil, ih]
      split
      · rfl
      · rw [List.filter_append, List.filter_singleton, hp, cond_false, List.append_nil]

theorem head?_distinct (xs : List α) : (distinct xs).head? = xs.head? := head?_distinctBy id xs

end Codemap.Order
