/-
# The cycles are the circular groups

A group of files is circular when it is a class of files that reach each other along edges and an
edge stays inside it: there are several files, or there is one that imports itself.  The groups that
`cycles` lists are exactly these (`cycles_circularGroup`), each in strictly ascending order, and the
list itself strictly ascends.
-/
import Codemap.Proofs.Imports.Search
import Mathlib.Data.Set.Subsingleton

namespace Codemap

open Codemap.Order Relation ImportGraph

/-! ## 1. Circular groups -/

namespace Imports

/-- One of the edges leads from the first file to the second. -/
def Joins (ds : List Dependency) (a b : String) : Prop := ∃ d ∈ ds, d.source = a ∧ d.target = b

/-- Each of two files can be reached from the other along the edges. -/
def MutuallyReachable (ds : List Dependency) (a b : String) : Prop :=
  ReflTransGen (Joins ds) a b ∧ ReflTransGen (Joins ds) b a

/-- A class of files that reach each other, with several members or with one that has an edge to
itself. -/
structure IsCircularGroup (ds : List Dependency) (S : Set String) : Prop where
  isClass : ∃ a, S = {b | MutuallyReachable ds a b}
  circular : S.Nontrivial ∨ ∃ a, S = {a} ∧ Joins ds a a

variable {ds : List Dependency} {a b : String} {c : List String}

@[simp] theorem leads_ofDependencies : (ofDependencies ds).Leads a b ↔ Joins ds a b := by
  simp [Leads, ofDependencies, Joins]

theorem mutual_ofDependencies : (ofDependencies ds).Mutual a b ↔ MutuallyReachable ds a b := by
  have h : (ofDependencies ds).Leads = Joins ds := by
    funext x y
    exact propext leads_ofDependencies
  rw [Mutual, Reaches, h, MutuallyReachable]

/-! ## 2. Which groups of the search are circular -/

/-- The test for circles finds the circular groups among the classes. -/
theorem isCircle_iff (hc : (ofDependencies ds).IsClass c) :
    (ofDependencies ds).isCircle c ↔ IsCircularGroup ds {p | p ∈ c} := by
  obtain ⟨hnodup, x, hx, hclass⟩ := hc
  have hset : {p | p ∈ c} = {b | MutuallyReachable ds x b} := by
    ext y
    exact (hclass y).trans mutual_ofDependencies
  rw [isCircle, Bool.or_eq_true, decide_eq_true_eq]
  match c, hnodup with
  | [], _ => exact absurd hx List.not_mem_nil
  | [y], _ =>
    have hsingle : {p | p ∈ [y]} = ({y} : Set String) := by
      ext z
      simp
    simp only [List.length_singleton, lt_irrefl, false_or, List.head?_cons, Option.any_some,
      List.contains_iff_mem, mem_dependenciesOf, leads_ofDependencies]
    constructor
    · intro h
      exact ⟨⟨x, hset⟩, Or.inr ⟨y, hsingle, h⟩⟩
    · rintro ⟨-, h | ⟨z, hz, hzz⟩⟩
      · rw [hsingle] at h
        exact absurd h Set.not_nontrivial_singleton
      · rw [hsingle, Set.singleton_eq_singleton_iff] at hz
        exact hz ▸ hzz
  | y :: z :: rest, hnodup =>
    have hne : y ≠ z := by
      rintro rfl
      simp at hnodup
    refine iff_of_true (Or.inl (by simp)) ⟨⟨x, hset⟩, Or.inl ⟨y, ?_, z, ?_, hne⟩⟩ <;> simp

/-- A file of a circular group imports another file. -/
theorem exists_joins_of_circular {S : Set String} (h : IsCircularGroup ds S) :
    ∃ a ∈ S, ∃ b, Joins ds a b := by
  rcases h.circular with hS | ⟨a, rfl, haa⟩
  · obtain ⟨x, hx, y, hy, hxy⟩ := hS
    obtain ⟨r, rfl⟩ := h.isClass
    have hreach : ReflTransGen (Joins ds) x y := ReflTransGen.trans hx.2 hy.1
    rcases ReflTransGen.cases_head hreach with rfl | ⟨z, hxz, -⟩
    · exact absurd rfl hxy
    · exact ⟨x, hx, z, hxz⟩
  · exact ⟨a, Set.mem_singleton a, a, haa⟩

/-- The groups before they are sorted. -/
theorem exists_component_iff (S : Set String) :
    (∃ c ∈ (ofDependencies ds).search.components.filter (ofDependencies ds).isCircle,
      {p | p ∈ c} = S) ↔ IsCircularGroup ds S := by
  obtain ⟨hclass, -, hall⟩ := search_sound (ofDependencies ds)
  constructor
  · rintro ⟨c, hc, rfl⟩
    obtain ⟨hc, hcircle⟩ := List.mem_filter.mp hc
    exact (isCircle_iff (hclass c hc)).mp hcircle
  · intro hS
    obtain ⟨a, ha, b, hab⟩ := exists_joins_of_circular hS
    obtain ⟨c, hc, hac⟩ := hall a b (leads_ofDependencies.mpr hab)
    have hcS : {p | p ∈ c} = S := by
      obtain ⟨r, rfl⟩ := hS.isClass
      ext y
      show y ∈ c ↔ MutuallyReachable ds r y
      rw [(hclass c hc).mem_iff hac, mutual_ofDependencies]
      exact ⟨fun h => ⟨ReflTransGen.trans ha.1 h.1, ReflTransGen.trans h.2 ha.2⟩,
        fun h => ⟨ReflTransGen.trans ha.2 h.1, ReflTransGen.trans h.2 ha.1⟩⟩
    refine ⟨c, List.mem_filter.mpr ⟨hc, ?_⟩, hcS⟩
    rw [isCircle_iff (hclass c hc), hcS]
    exact hS

/-! ## 3. The list of cycles -/

/-- Every listed group is circular. -/
theorem isCircularGroup_of_mem_cycles (hc : c ∈ (ofDependencies ds).cycles) :
    IsCircularGroup ds {p | p ∈ c} := by
  rw [cycles, List.mem_mergeSort, List.mem_map] at hc
  obtain ⟨d, hd, rfl⟩ := hc
  exact (exists_component_iff _).mp ⟨d, hd, by simp⟩

/-- Sorting the groups of the search does not make two of them equal. -/
theorem nodup_sorted_components (g : ImportGraph) :
    ((g.search.components.filter g.isCircle).map fun c => c.mergeSort fun a b => a ≤ b).Nodup := by
  obtain ⟨hclass, hdisjoint, -⟩ := search_sound g
  rw [List.Nodup, List.pairwise_map]
  have hfilter := hdisjoint.sublist (List.filter_sublist (p := g.isCircle))
  refine hfilter.imp_of_mem fun {c d} hc _ hcd heq => ?_
  obtain ⟨-, x, hx, -⟩ := hclass c (List.mem_filter.mp hc).1
  have hxd : x ∈ d.mergeSort fun a b => a ≤ b := heq ▸ List.mem_mergeSort.mpr hx
  exact hcd hx (List.mem_mergeSort.mp hxd)

/-- **The cycles are exactly the circular groups.**  A set of files is the set of members of a
listed group if and only if it is a class of files that reach each other and has several members or
one with an edge to itself.  Each group strictly ascends, no group is listed twice, and the list is
sorted. -/
theorem cycles_circularGroup (ds : List Dependency) :
    (∀ S : Set String,
      (∃ c ∈ (ofDependencies ds).cycles, {p | p ∈ c} = S) ↔ IsCircularGroup ds S) ∧
    (∀ c ∈ (ofDependencies ds).cycles, c.Pairwise (· < ·)) ∧
    (ofDependencies ds).cycles.Nodup ∧ (ofDependencies ds).cycles.Pairwise (· ≤ ·) := by
  have hmem : ∀ c, c ∈ (ofDependencies ds).cycles ↔
      ∃ d ∈ (ofDependencies ds).search.components.filter (ofDependencies ds).isCircle,
        (d.mergeSort fun a b => a ≤ b) = c := by
    intro c
    rw [cycles, List.mem_mergeSort, List.mem_map]
  refine ⟨fun S => ?_, fun c hc => ?_, ?_, ?_⟩
  · rw [← exists_component_iff]
    constructor
    · rintro ⟨c, hc, rfl⟩
      obtain ⟨d, hd, rfl⟩ := (hmem c).mp hc
      exact ⟨d, hd, by simp⟩
    · rintro ⟨d, hd, rfl⟩
      exact ⟨_, (hmem _).mpr ⟨d, hd, rfl⟩, by simp⟩
  · obtain ⟨d, hd, rfl⟩ := (hmem c).mp hc
    exact pairwise_lt_sort ((search_sound _).1 d (List.mem_filter.mp hd).1).1
  · exact (List.mergeSort_perm _ _).nodup_iff.mpr (nodup_sorted_components _)
  · exact pairwise_sortLists _

example : (ofDependencies [⟨"b", "a", []⟩, ⟨"a", "b", []⟩, ⟨"c", "c", []⟩, ⟨"d", "a", []⟩]).cycles =
    [["a", "b"], ["c"]] := by cbv

/-! ## 4. Files on circles -/

/-- The circular groups hold the files that are reached from themselves. -/
theorem exists_mem_isCircularGroup_iff :
    (∃ S, IsCircularGroup ds S ∧ a ∈ S) ↔ TransGen (Joins ds) a a := by
  constructor
  · rintro ⟨S, hS, haS⟩
    rcases hS.circular with hmany | ⟨x, rfl, hxx⟩
    · -- another member reaches back
      obtain ⟨y, hyS, hne⟩ := hmany.exists_ne a
      obtain ⟨r, rfl⟩ := hS.isClass
      have hay : ReflTransGen (Joins ds) a y := ReflTransGen.trans haS.2 hyS.1
      have hya : ReflTransGen (Joins ds) y a := ReflTransGen.trans hyS.2 haS.1
      rcases reflTransGen_iff_eq_or_transGen.mp hay with heq | hay
      · exact absurd heq hne
      · exact hay.trans_left hya
    · rw [Set.mem_singleton_iff.mp haS]
      exact .single hxx
  · intro haa
    have hself : a ∈ {b | MutuallyReachable ds a b} := ⟨.refl, .refl⟩
    refine ⟨{b | MutuallyReachable ds a b}, ⟨⟨a, rfl⟩, ?_⟩, hself⟩
    rcases Set.eq_singleton_or_nontrivial hself with hsingle | hmany
    · -- the first file on the way back is the file itself
      obtain ⟨b, hab, hba⟩ := TransGen.head'_iff.mp haa
      have hb : b ∈ {b | MutuallyReachable ds a b} := ⟨.single hab, hba⟩
      rw [hsingle] at hb
      exact Or.inr ⟨a, hsingle, hb ▸ hab⟩
    · exact Or.inl hmany

/-- **The cycles hold the files that are reached from themselves.** -/
theorem exists_mem_cycles_iff :
    (∃ c ∈ (ofDependencies ds).cycles, a ∈ c) ↔ TransGen (Joins ds) a a := by
  rw [← exists_mem_isCircularGroup_iff]
  simp only [← exists_component_iff, cycles, List.mem_mergeSort, List.mem_map]
  constructor
  · rintro ⟨-, ⟨c, hc, rfl⟩, ha⟩
    exact ⟨_, ⟨c, hc, rfl⟩, List.mem_mergeSort.mp ha⟩
  · rintro ⟨-, ⟨c, hc, rfl⟩, ha⟩
    exact ⟨_, ⟨c, hc, rfl⟩, List.mem_mergeSort.mpr ha⟩

end Imports

end Codemap
