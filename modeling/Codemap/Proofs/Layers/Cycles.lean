/-
# A cycle across layers holds a violation

Presentation lies above business, and business above data.  Between these three layers an edge is a
violation exactly when it leads to a higher one, next to its own or not (`isUpward_iff_of_mem`).
When the files of a cycle lie in these layers, but not all in the same one, then some edge on the
way from a lower file to a higher one leads upward; and whatever lies on a way between files of the
cycle is in the cycle itself (`IsCircularGroup.mem_of_between`).

Main statement: `exists_violation_of_cycle`.
-/
import Codemap.Proofs.Imports.Cycles
import Codemap.Proofs.Layers.Violations

namespace Codemap

open Relation ImportGraph

/-! ## 1. Ways upward -/

/-- On a way to a higher item some step leads upward. -/
theorem exists_step_upward {α : Type} {r : α → α → Prop} (height : α → Nat) {a b : α}
    (h : ReflTransGen r a b) (hlt : height a < height b) :
    ∃ x y, ReflTransGen r a x ∧ r x y ∧ ReflTransGen r y b ∧ height x < height y := by
  induction h using ReflTransGen.head_induction_on with
  | refl => exact absurd hlt (lt_irrefl _)
  | @head a c hac hcb ih =>
    rcases lt_or_ge (height a) (height c) with hup | hdown
    · exact ⟨a, c, .refl, hac, hcb, hup⟩
    · obtain ⟨x, y, hcx, hxy, hyb, hup⟩ := ih (hdown.trans_lt hlt)
      exact ⟨x, y, .head hac hcx, hxy, hyb, hup⟩

namespace Imports

variable {ds : List Dependency} {S : Set String} {a b x : String}

theorem IsCircularGroup.reaches (h : IsCircularGroup ds S) (ha : a ∈ S) (hb : b ∈ S) :
    ReflTransGen (Joins ds) a b := by
  obtain ⟨r, rfl⟩ := h.isClass
  exact ReflTransGen.trans ha.2 hb.1

/-- A circular group holds what lies on a way between its files. -/
theorem IsCircularGroup.mem_of_between (h : IsCircularGroup ds S) (ha : a ∈ S) (hb : b ∈ S)
    (hax : ReflTransGen (Joins ds) a x) (hxb : ReflTransGen (Joins ds) x b) : x ∈ S := by
  obtain ⟨r, rfl⟩ := h.isClass
  exact ⟨ReflTransGen.trans ha.1 hax, ReflTransGen.trans hxb hb.2⟩

end Imports

/-! ## 2. The stack of layers -/

namespace Layers

open Imports

/-- The layers that lie one above the other, the lowest first. -/
def stack : List Layer := [.data, .business, .presentation]

/-- Within the stack the edges that violate it are those to a higher layer, however high. -/
theorem isUpward_iff_of_mem {s t : Layer} (hs : s ∈ stack) (ht : t ∈ stack) :
    isUpward s t ↔ stack.idxOf s < stack.idxOf t := by
  have hall : ∀ s ∈ stack, ∀ t ∈ stack, isUpward s t ↔ stack.idxOf s < stack.idxOf t := by decide
  exact hall s hs t ht

variable {analyses : List LayerAnalysis} {ds : List Dependency} {cycle : List String}

/-- A way from a lower file to a higher one, within a cycle whose files lie in the stack, holds a
violation. -/
theorem exists_violation_of_lower {layer : String → Layer} {a b : String}
    (hcycle : IsCircularGroup ds {p | p ∈ cycle}) (hstack : ∀ p ∈ cycle, layer p ∈ stack)
    (hlayer : ∀ p ∈ cycle, IsLastLayer analyses p (layer p)) (ha : a ∈ cycle) (hb : b ∈ cycle)
    (hlt : stack.idxOf (layer a) < stack.idxOf (layer b)) :
    ∃ v ∈ violations analyses ds, v.source ∈ cycle ∧ v.target ∈ cycle := by
  obtain ⟨x, y, hax, hxy, hyb, hup⟩ :=
    exists_step_upward (fun p => stack.idxOf (layer p)) (hcycle.reaches ha hb) hlt
  have hx : x ∈ cycle := hcycle.mem_of_between ha hb hax (.head hxy hyb)
  have hy : y ∈ cycle := hcycle.mem_of_between ha hb (.tail hax hxy) hyb
  refine ⟨⟨x, y, layer x, layer y⟩, mem_violations_iff.mpr ⟨hxy, hlayer x hx, hlayer y hy, ?_⟩,
    hx, hy⟩
  exact (isUpward_iff_of_mem (hstack x hx) (hstack y hy)).mpr hup

/-- **A cycle across layers holds a violation.**  When the files of a cycle lie in presentation,
business and data, but not all in the same layer, then an edge between two of them is reported. -/
theorem exists_violation_of_cycle (analyses : List LayerAnalysis) (ds : List Dependency)
    (cycle : List String) (hc : cycle ∈ (ofDependencies ds).cycles)
    (hlayers : ∀ p ∈ cycle, ∃ l ∈ [Layer.presentation, .business, .data], IsLastLayer analyses p l)
    (hmixed : ¬ ∃ l, ∀ p ∈ cycle, IsLastLayer analyses p l) :
    ∃ v ∈ violations analyses ds, v.source ∈ cycle ∧ v.target ∈ cycle := by
  have hcycle : IsCircularGroup ds {p | p ∈ cycle} := isCircularGroup_of_mem_cycles hc
  choose! layer hlayer hlast using hlayers
  have hstack : ∀ p ∈ cycle, layer p ∈ stack := fun p hp => by
    have := hlayer p hp
    simp only [stack, List.mem_cons, List.not_mem_nil, or_false] at this ⊢
    tauto
  obtain ⟨a, ha, -⟩ := exists_joins_of_circular hcycle
  -- some file lies in another layer than the first one
  have hother : ∃ b ∈ cycle, layer b ≠ layer a := by
    by_contra hsame
    refine hmixed ⟨layer a, fun p hp => ?_⟩
    have heq : layer p = layer a := by_contra fun hne => hsame ⟨p, hp, hne⟩
    exact heq ▸ hlast p hp
  obtain ⟨b, hb, hne⟩ := hother
  have hidx : stack.idxOf (layer b) ≠ stack.idxOf (layer a) := fun h =>
    hne ((List.idxOf_inj (hstack b hb)).mp h)
  rcases lt_or_gt_of_ne hidx with hlt | hlt
  · exact exists_violation_of_lower hcycle hstack hlast hb ha hlt
  · exact exists_violation_of_lower hcycle hstack hlast ha hb hlt

/-- The layers of three files, of which the last is classified twice. -/
def threeLayers : List LayerAnalysis :=
  [⟨"c", .unknown, 0.0, []⟩, ⟨"a", .presentation, 1.0, []⟩, ⟨"b", .business, 1.0, []⟩,
    ⟨"c", .data, 1.0, []⟩]

/-- A circle that leads down from layer to layer and back up past the middle one. -/
def pastBusiness : List Dependency := [⟨"a", "b", []⟩, ⟨"b", "c", []⟩, ⟨"c", "a", []⟩]

/-- The way back up is reported. -/
theorem exists_violation_of_cycle_pastBusiness :
    ["a", "b", "c"] ∈ (ofDependencies pastBusiness).cycles ∧
      (∀ p ∈ ["a", "b", "c"], ∃ l ∈ [Layer.presentation, .business, .data],
        IsLastLayer threeLayers p l) ∧
      (¬ ∃ l, ∀ p ∈ ["a", "b", "c"], IsLastLayer threeLayers p l) ∧
      ∃ v ∈ violations threeLayers pastBusiness,
        v.source ∈ ["a", "b", "c"] ∧ v.target ∈ ["a", "b", "c"] := by
  have hfound : ((ofDependencies pastBusiness).search.components.filter
      (ofDependencies pastBusiness).isCircle) = [["c", "b", "a"]] := by decide +kernel
  have hsorted : (["c", "b", "a"].mergeSort fun a b => a ≤ b) = ["a", "b", "c"] :=
    (Order.sort_congr (by decide)).trans (List.mergeSort_of_pairwise (by decide))
  have hcycles : (ofDependencies pastBusiness).cycles = [["a", "b", "c"]] := by
    rw [cycles, hfound, List.map_singleton, hsorted, List.mergeSort_singleton]
  have hmem : ["a", "b", "c"] ∈ (ofDependencies pastBusiness).cycles :=
    hcycles ▸ List.mem_singleton_self _
  have hlayers : ∀ p ∈ ["a", "b", "c"], ∃ l ∈ [Layer.presentation, .business, .data],
      IsLastLayer threeLayers p l := by
    simp [← layerOf?_eq_some_iff, layerOf?, threeLayers]
  have hmixed : ¬ ∃ l, ∀ p ∈ ["a", "b", "c"], IsLastLayer threeLayers p l := by
    simp [← layerOf?_eq_some_iff, layerOf?, threeLayers]
  exact ⟨hmem, hlayers, hmixed,
    exists_violation_of_cycle threeLayers pastBusiness _ hmem hlayers hmixed⟩

end Layers

end Codemap
