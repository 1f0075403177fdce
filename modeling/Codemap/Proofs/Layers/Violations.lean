/-
# Violations do not depend on the order of the layers

The layer of a path is that of the last analysis for it (`layerOf?_eq_some_iff`), and a violation is
an edge that leads upward between the layers of its ends (`mem_violations_iff`).  Where every path
is analyzed once, it does not matter in which order.
-/
import Codemap.Layers.Classify
import Codemap.Proofs.Order.Permutation

namespace Codemap

theorem file_classify (n : LayerNames) (f : FileFacts) : (n.classify f).file = f.path := by
  rw [LayerNames.classify]
  split <;> rfl

namespace Layers

open Codemap.Order

variable {analyses analyses' : List LayerAnalysis} {path : String} {layer : Layer}

/-- The last of the analyses of a path finds it in a layer. -/
def IsLastLayer (analyses : List LayerAnalysis) (path : String) (layer : Layer) : Prop :=
  ∃ before last after, analyses = before ++ last :: after ∧ last.file = path ∧ last.layer = layer ∧
    ∀ a ∈ after, a.file ≠ path

theorem layerOf?_eq_some_iff :
    layerOf? analyses path = some layer ↔ IsLastLayer analyses path layer := by
  rw [layerOf?, Option.map_eq_some_iff]
  constructor
  · rintro ⟨last, hfind, hlayer⟩
    obtain ⟨hfile, later, earlier, hsplit, hnone⟩ := List.find?_eq_some_iff_append.mp hfind
    refine ⟨earlier.reverse, last, later.reverse, ?_, beq_iff_eq.mp hfile, hlayer, fun a ha => ?_⟩
    · rw [← List.reverse_reverse analyses, hsplit]
      simp
    · simpa using hnone a (List.mem_reverse.mp ha)
  · rintro ⟨before, last, after, rfl, hfile, hlayer, hnone⟩
    refine ⟨last, List.find?_eq_some_iff_append.mpr ⟨beq_iff_eq.mpr hfile, after.reverse,
      before.reverse, by simp, fun a ha => ?_⟩, hlayer⟩
    simpa using hnone a (List.mem_reverse.mp ha)

/-- A path has one layer. -/
theorem IsLastLayer.unique {layer' : Layer} (h : IsLastLayer analyses path layer)
    (h' : IsLastLayer analyses path layer') : layer = layer' := by
  rw [← layerOf?_eq_some_iff] at h h'
  exact Option.some.inj (h.symm.trans h')

/-- A violation reports an edge: it has the ends of the edge, and their layers. -/
structure Reports (analyses : List LayerAnalysis) (d : Dependency) (v : LayerViolation) : Prop where
  source : v.source = d.source
  target : v.target = d.target
  sourceLayer : IsLastLayer analyses d.source v.sourceLayer
  targetLayer : IsLastLayer analyses d.target v.targetLayer

theorem violation?_eq_some_iff {d : Dependency} {v : LayerViolation} :
    violation? analyses d = some v ↔
      Reports analyses d v ∧ isUpward v.sourceLayer v.targetLayer := by
  constructor
  · intro hv
    obtain ⟨sourceLayer, hsource, hv⟩ := Option.bind_eq_some_iff.mp hv
    obtain ⟨targetLayer, htarget, hv⟩ := Option.bind_eq_some_iff.mp hv
    by_cases hup : isUpward sourceLayer targetLayer
    · rw [if_pos hup] at hv
      obtain rfl := Option.some.inj hv
      exact ⟨⟨rfl, rfl, layerOf?_eq_some_iff.mp hsource, layerOf?_eq_some_iff.mp htarget⟩, hup⟩
    · rw [if_neg hup] at hv
      exact absurd hv.symm (Option.some_ne_none v)
  · rintro ⟨⟨hs, ht, hsource, htarget⟩, hup⟩
    rw [← layerOf?_eq_some_iff] at hsource htarget
    rw [violation?, hsource, htarget, ← hs, ← ht]
    exact if_pos hup

/-- **Violations are the edges that lead upward between the layers of their ends.** -/
theorem mem_violations_iff {ds : List Dependency} {v : LayerViolation} :
    v ∈ violations analyses ds ↔
      (∃ d ∈ ds, d.source = v.source ∧ d.target = v.target) ∧
        IsLastLayer analyses v.source v.sourceLayer ∧
        IsLastLayer analyses v.target v.targetLayer ∧ isUpward v.sourceLayer v.targetLayer := by
  simp only [violations, List.mem_filterMap, violation?_eq_some_iff]
  constructor
  · rintro ⟨d, hd, ⟨hs, ht, hsource, htarget⟩, hup⟩
    exact ⟨⟨d, hd, hs.symm, ht.symm⟩, hs ▸ hsource, ht ▸ htarget, hup⟩
  · rintro ⟨⟨d, hd, hs, ht⟩, hsource, htarget, hup⟩
    exact ⟨d, hd, ⟨hs.symm, ht.symm, hs ▸ hsource, ht ▸ htarget⟩, hup⟩

theorem layerOf?_eq_of_perm (h : analyses.Perm analyses') (hd : (analyses.map (·.file)).Nodup)
    (path : String) : layerOf? analyses path = layerOf? analyses' path := by
  rw [layerOf?, layerOf?, find?_reverse_eq_of_perm h hd]

/-- **The violations do not depend on the order of the analyses**, when their paths are
distinct. -/
theorem violations_eq_of_perm (h : analyses.Perm analyses')
    (hd : (analyses.map (·.file)).Nodup) (ds : List Dependency) :
    violations analyses ds = violations analyses' ds := by
  have hlayer : layerOf? analyses = layerOf? analyses' := funext (layerOf?_eq_of_perm h hd)
  have hviolation : violation? analyses = violation? analyses' := by
    funext d
    rw [violation?, violation?, hlayer]
  rw [violations, violations, hviolation]

end Layers

end Codemap
