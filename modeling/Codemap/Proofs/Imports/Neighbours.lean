/-
# Neighbours in both directions

A graph of imports is asked two questions about a file: what it imports, and what imports it.  Both
can be answered from maps into which the edges are entered one after the other, each under its
source in one map and under its target in the other (`Neighbours.add`).

What one edge does is said once (`Records.add`): it adds one pair of files, and the same pair to
both maps.  So after any list of edges the maps hold the pairs that the edges join, each read in its
own direction, and nothing else (`records_ofEdges`).  Maps and sets are read in ascending order, so
the pairs are all that can be told from them.  How often an edge was entered is forgotten, and in
which order, also by the search for circles (`cycles_congr`).

Main statement: `neighbours_inverse`.
-/
import Codemap.Proofs.Imports.Cycles
import Mathlib.Data.List.Induction

namespace Codemap

open Codemap.Order
open Std (TreeMap TreeSet)

/-! ## 1. Sets of files under files -/

namespace Imports

/-- Sets of files, each kept under a file. -/
abbrev FileSets := TreeMap String (TreeSet String)

namespace FileSets

variable {m : FileSets} {r : String → String → Prop} {key file p q : String} {files : List String}

/-- The files that are kept under a file; none, if it has no entry. -/
def under (m : FileSets) (p : String) : TreeSet String := m.getD p ∅

/-- The map after a file has been entered under another one. -/
def enter (m : FileSets) (key file : String) : FileSets :=
  m.alter key fun files => some ((files.getD ∅).insert file)

/-- What is entered under a file is kept under it, beside what was kept before. -/
theorem mem_under_enter :
    q ∈ under (enter m key file) p ↔ (key = p ∧ file = q) ∨ q ∈ under m p := by
  simp only [under, enter, TreeMap.getD_alter, compare_eq_iff_eq]
  by_cases hkey : key = p
  · rw [if_pos hkey, Option.getD_some, TreeSet.mem_insert, compare_eq_iff_eq, hkey,
      ← TreeMap.getD_eq_getD_getElem?, and_iff_right rfl]
  · rw [if_neg hkey, or_iff_right (mt And.left hkey)]

/-- A file has an entry once something is entered under it. -/
theorem mem_enter : p ∈ enter m key file ↔ key = p ∨ p ∈ m := by
  simp only [enter, TreeMap.mem_alter, compare_eq_iff_eq, Option.isSome_some]
  by_cases hkey : key = p <;> simp [hkey]

/-- A map holds the pairs of a relation: those that are related to a file are kept under it, and
only files that are related to something have an entry. -/
structure Holds (m : FileSets) (r : String → String → Prop) : Prop where
  mem_under_iff : ∀ p q, q ∈ under m p ↔ r p q
  mem_iff : ∀ p, p ∈ m ↔ ∃ q, r p q

theorem holds_empty (h : ∀ p q, ¬ r p q) : Holds ∅ r where
  mem_under_iff p q := by
    rw [under, TreeMap.getD_emptyc]
    exact iff_of_false TreeSet.not_mem_emptyc (h p q)
  mem_iff p := by
    refine iff_of_false TreeMap.not_mem_emptyc ?_
    rintro ⟨q, hq⟩
    exact h p q hq

/-- Entering a file under another one adds one pair. -/
theorem Holds.enter {r' : String → String → Prop} (h : Holds m r)
    (hr : ∀ p q, r' p q ↔ (key = p ∧ file = q) ∨ r p q) : Holds (enter m key file) r' where
  mem_under_iff p q := by rw [mem_under_enter, h.mem_under_iff, hr]
  mem_iff p := by
    rw [mem_enter, h.mem_iff]
    simp only [hr, exists_or, exists_and_left, exists_eq', and_true]

/-- What is kept under a file is read in ascending order. -/
theorem Holds.toList_under (h : Holds m r) (hasc : files.Pairwise (· < ·))
    (hmem : ∀ q, q ∈ files ↔ r p q) : (under m p).toList = files := by
  refine List.Pairwise.eq_of_mem_iff (r := (· < ·)) ?_ hasc fun q => ?_
  · exact TreeSet.ordered_toList.imp compare_lt_iff_lt.mp
  · rw [TreeSet.mem_toList, h.mem_under_iff, hmem]

/-- The files that have an entry are read in ascending order. -/
theorem Holds.keys_eq (h : Holds m r) (hasc : files.Pairwise (· < ·))
    (hmem : ∀ p, p ∈ files ↔ ∃ q, r p q) : m.keys = files := by
  refine List.Pairwise.eq_of_mem_iff (r := (· < ·)) ?_ hasc fun p => ?_
  · exact TreeMap.ordered_keys.imp compare_lt_iff_lt.mp
  · rw [TreeMap.mem_keys, h.mem_iff, hmem]

end FileSets

/-! ## 2. Two maps -/

/-- For each file, the files that it imports and the files that import it. -/
structure Neighbours where
  imported : FileSets
  importing : FileSets

namespace Neighbours

/-- The maps after one more edge. -/
def add (n : Neighbours) (d : Dependency) : Neighbours where
  imported := n.imported.enter d.source d.target
  importing := n.importing.enter d.target d.source

/-- The maps into which the given edges are entered, one after the other. -/
def ofEdges (ds : List Dependency) : Neighbours := ds.foldl add ⟨∅, ∅⟩

/-- Two maps hold the pairs that some edges join, each in its own direction. -/
structure Records (n : Neighbours) (ds : List Dependency) : Prop where
  imported : n.imported.Holds (Joins ds)
  importing : n.importing.Holds fun p q => Joins ds q p

variable {n : Neighbours} {ds : List Dependency} {d : Dependency}

/-- **One more edge adds the same pair to both maps.** -/
theorem Records.add (h : n.Records ds) : (n.add d).Records (ds ++ [d]) := by
  have hjoins (a b : String) :
      Joins (ds ++ [d]) a b ↔ (d.source = a ∧ d.target = b) ∨ Joins ds a b := by
    simp only [Joins, List.mem_append, List.mem_singleton, or_and_right, exists_or, exists_eq_left]
    exact or_comm
  refine ⟨h.imported.enter hjoins, h.importing.enter fun p q => ?_⟩
  rw [hjoins, and_comm]

/-- **The maps hold the pairs that the edges join**, whatever edges are entered. -/
theorem records_ofEdges (ds : List Dependency) : (ofEdges ds).Records ds := by
  induction ds using List.reverseRecOn with
  | nil => exact ⟨FileSets.holds_empty (by simp [Joins]), FileSets.holds_empty (by simp [Joins])⟩
  | append_singleton ds d ih =>
    rw [ofEdges, List.foldl_concat]
    exact ih.add

end Neighbours

end Imports

/-! ## 3. What a graph answers -/

namespace ImportGraph

variable {g g' : ImportGraph} {a b : String}

/-- The files that import a file are those that edges to it lead from. -/
theorem mem_dependentsOf : a ∈ g.dependentsOf b ↔ g.Leads a b := by
  simp [dependentsOf, Leads]

section Same

variable (h : ∀ a b, g.Leads a b ↔ g'.Leads a b)
include h

theorem dependenciesOf_congr : g.dependenciesOf = g'.dependenciesOf := by
  funext p
  refine (pairwise_ascending _).eq_of_mem_iff (pairwise_ascending _) fun q => ?_
  exact mem_dependenciesOf.trans ((h p q).trans mem_dependenciesOf.symm)

theorem dependentsOf_congr : g.dependentsOf = g'.dependentsOf := by
  funext p
  refine (pairwise_ascending _).eq_of_mem_iff (pairwise_ascending _) fun q => ?_
  exact mem_dependentsOf.trans ((h q p).trans mem_dependentsOf.symm)

/-- A visit reads of a graph only which files each file imports. -/
theorem visit_congr (depth : Nat) : g.visit depth = g'.visit depth := by
  induction depth with
  | zero => rfl
  | succ depth ih =>
    funext file s
    rw [visit, visit, ih, dependenciesOf_congr h]

theorem search_congr : g.search = g'.search := by
  have hpair (e : String × String) : e ∈ g.edges ↔ e ∈ g'.edges := h e.1 e.2
  have hsources : ascending (g.edges.map (·.1)) = ascending (g'.edges.map (·.1)) :=
    ascending_congr fun p => by simp only [List.mem_map, hpair]
  have hfiles : g.files = g'.files :=
    ascending_congr fun p => by simp only [List.mem_append, List.mem_map, hpair]
  rw [search, search, hsources, hfiles, visit_congr h]

/-- **The circles are those of the pairs that are joined**, however often and in whichever order
they are given. -/
theorem cycles_congr : g.cycles = g'.cycles := by
  have hcircle : g.isCircle = g'.isCircle := by
    funext group
    rw [isCircle, isCircle, dependenciesOf_congr h]
  rw [cycles, cycles, search_congr h, hcircle]

end Same

end ImportGraph

/-! ## 4. Both together -/

namespace Imports

open ImportGraph

variable {ds : List Dependency} {a b : String}

theorem mem_dependenciesOf_ofDependencies :
    b ∈ (ofDependencies ds).dependenciesOf a ↔ Joins ds a b :=
  mem_dependenciesOf.trans leads_ofDependencies

theorem mem_dependentsOf_ofDependencies :
    a ∈ (ofDependencies ds).dependentsOf b ↔ Joins ds a b :=
  mem_dependentsOf.trans leads_ofDependencies

/-- **The two questions about neighbours are inverse to each other, and are answered by two maps
that are filled edge by edge.**  A file is among the files that another one imports exactly when
that one is among those that import it, and exactly when an edge leads from one to the other; both
answers strictly ascend.  They are what the maps hold, in which the files with an entry are the
sources and the targets of edges.  Edges that join the same pairs, in another order or repeated,
give the same answers and the same cycles. -/
theorem neighbours_inverse (ds : List Dependency) :
    (∀ a b,
      (b ∈ (ofDependencies ds).dependenciesOf a ↔ a ∈ (ofDependencies ds).dependentsOf b) ∧
      (b ∈ (ofDependencies ds).dependenciesOf a ↔ ∃ d ∈ ds, d.source = a ∧ d.target = b)) ∧
    (∀ p,
      ((ofDependencies ds).dependenciesOf p).Pairwise (· < ·) ∧
      ((ofDependencies ds).dependentsOf p).Pairwise (· < ·)) ∧
    (∀ p,
      ((Neighbours.ofEdges ds).imported.under p).toList = (ofDependencies ds).dependenciesOf p ∧
      ((Neighbours.ofEdges ds).importing.under p).toList = (ofDependencies ds).dependentsOf p) ∧
    (Neighbours.ofEdges ds).imported.keys = ascending (ds.map (·.source)) ∧
    (Neighbours.ofEdges ds).importing.keys = ascending (ds.map (·.target)) ∧
    ∀ ds', (∀ a b, Joins ds' a b ↔ Joins ds a b) →
      (ofDependencies ds').dependenciesOf = (ofDependencies ds).dependenciesOf ∧
      (ofDependencies ds').dependentsOf = (ofDependencies ds).dependentsOf ∧
      (ofDependencies ds').cycles = (ofDependencies ds).cycles := by
  obtain ⟨himported, himporting⟩ := Neighbours.records_ofEdges ds
  refine ⟨fun a b => ⟨?_, mem_dependenciesOf_ofDependencies⟩,
    fun p => ⟨pairwise_ascending _, pairwise_ascending _⟩, fun p => ⟨?_, ?_⟩, ?_, ?_,
    fun ds' hsame => ?_⟩
  · exact mem_dependenciesOf_ofDependencies.trans mem_dependentsOf_ofDependencies.symm
  · exact himported.toList_under (pairwise_ascending _) fun q => mem_dependenciesOf_ofDependencies
  · exact himporting.toList_under (pairwise_ascending _) fun q => mem_dependentsOf_ofDependencies
  · refine himported.keys_eq (pairwise_ascending _) fun p => ?_
    simp [Joins]
  · refine himporting.keys_eq (pairwise_ascending _) fun p => ?_
    simp [Joins]
  · have hleads (a b : String) : (ofDependencies ds').Leads a b ↔ (ofDependencies ds).Leads a b :=
      leads_ofDependencies.trans ((hsame a b).trans leads_ofDependencies.symm)
    exact ⟨dependenciesOf_congr hleads, dependentsOf_congr hleads, cycles_congr hleads⟩

/-- Two files that import each other. -/
def backAndForth : List Dependency := [⟨"a.ts", "b.ts", ["B"]⟩, ⟨"b.ts", "a.ts", []⟩]

/-- The same edges, turned around and one of them entered twice. -/
def forthAndBack : List Dependency :=
  [⟨"b.ts", "a.ts", []⟩, ⟨"a.ts", "b.ts", ["B"]⟩, ⟨"a.ts", "b.ts", ["B"]⟩]

/-- Neither the order nor the repetition is seen: the edge that was entered twice is told once. -/
theorem neighbours_inverse_repeated :
    (∀ a b, Joins forthAndBack a b ↔ Joins backAndForth a b) ∧
      (ofDependencies forthAndBack).dependenciesOf = (ofDependencies backAndForth).dependenciesOf ∧
      (ofDependencies forthAndBack).dependentsOf = (ofDependencies backAndForth).dependentsOf ∧
      (ofDependencies forthAndBack).cycles = (ofDependencies backAndForth).cycles ∧
      (ofDependencies forthAndBack).dependentsOf "b.ts" = ["a.ts"] := by
  have hsame (a b : String) : Joins forthAndBack a b ↔ Joins backAndForth a b := by
    simp only [Joins, forthAndBack, backAndForth, List.mem_cons, List.not_mem_nil, or_false,
      exists_eq_or_imp, exists_eq_left, or_self]
    exact or_comm
  obtain ⟨-, -, -, -, -, hforgets⟩ := neighbours_inverse backAndForth
  obtain ⟨hdependencies, hdependents, hcycles⟩ := hforgets forthAndBack hsame
  exact ⟨hsame, hdependencies, hdependents, hcycles, by decide⟩

end Imports

end Codemap
