/-
# Violations form no circle

Business lies above data, and presentation above business and above infrastructure.  The pairs of
layers between which an edge is a violation are those that such steps lead up, one or more of them
(`isUpward_iff_transGen`), and no way up leads back to where it starts (`isUpward_irrefl`).  As a
path has one layer only, violations that follow each other lead up all the way
(`IsEdge.transGen_upward`), however many they are and whichever edges they come from.

Main statement: `violations_isReport`.
-/
import Codemap.Proofs.Layers.Violations
import Mathlib.Logic.Relation

namespace Codemap.Layers

open Relation

variable {analyses : List LayerAnalysis} {ds : List Dependency} {s t u : Layer}

/-! ## 1. Ways up the layers -/

/-- The one layer lies right below the other. -/
inductive LiesBelow : Layer → Layer → Prop where
  | data : LiesBelow .data .business
  | business : LiesBelow .business .presentation
  | infrastructure : LiesBelow .infrastructure .presentation

theorem isUpward_irrefl (s : Layer) : ¬ isUpward s s := by
  cases s <;> decide

theorem isUpward_trans (hst : isUpward s t) (htu : isUpward t u) : isUpward s u := by
  revert hst htu
  cases s <;> cases t <;> cases u <;> decide

/-- **An edge is a violation between layers of which the one lies below the other**, right below or
further down. -/
theorem isUpward_iff_transGen : isUpward s t ↔ TransGen LiesBelow s t := by
  constructor
  · intro h
    unfold isUpward at h
    split at h
    · exact .single .data
    · exact .head .data (.single .business)
    · exact .single .business
    · exact .single .infrastructure
    · exact absurd h Bool.false_ne_true
  · intro h
    induction h with
    | single h => cases h <;> rfl
    | tail _ h ih => exact isUpward_trans ih (by cases h <;> rfl)

/-! ## 2. Edges that point upward -/

/-- An edge points upward: both of its ends have layers, and the one that it leads to lies above
the other. -/
def PointsUpward (analyses : List LayerAnalysis) (d : Dependency) : Prop :=
  ∃ s t, IsLastLayer analyses d.source s ∧ IsLastLayer analyses d.target t ∧
    TransGen LiesBelow s t

theorem isSome_violation?_iff {d : Dependency} :
    (violation? analyses d).isSome ↔ PointsUpward analyses d := by
  rw [Option.isSome_iff_exists]
  constructor
  · rintro ⟨v, hv⟩
    obtain ⟨hreports, hup⟩ := violation?_eq_some_iff.mp hv
    exact ⟨_, _, hreports.sourceLayer, hreports.targetLayer, isUpward_iff_transGen.mp hup⟩
  · rintro ⟨s, t, hs, ht, hup⟩
    exact ⟨⟨d.source, d.target, s, t⟩,
      violation?_eq_some_iff.mpr ⟨⟨rfl, rfl, hs, ht⟩, isUpward_iff_transGen.mpr hup⟩⟩

instance (analyses : List LayerAnalysis) : DecidablePred (PointsUpward analyses) :=
  fun _ => decidable_of_iff _ isSome_violation?_iff

/-- Violations report the edges that point upward, one by one. -/
theorem forall₂_reports (analyses : List LayerAnalysis) (ds : List Dependency) :
    List.Forall₂ (Reports analyses) (ds.filter (PointsUpward analyses ·))
      (violations analyses ds) := by
  induction ds with
  | nil => exact .nil
  | cons d ds ih =>
    rw [violations] at ih ⊢
    by_cases hd : PointsUpward analyses d
    · obtain ⟨v, hv⟩ := Option.isSome_iff_exists.mp (isSome_violation?_iff.mpr hd)
      rw [List.filter_cons, if_pos (decide_eq_true hd), List.filterMap_cons_some hv]
      exact .cons (violation?_eq_some_iff.mp hv).1 ih
    · have hv : violation? analyses d = none :=
        Option.not_isSome_iff_eq_none.mp (mt isSome_violation?_iff.mp hd)
      rw [List.filter_cons, if_neg (by simpa using hd), List.filterMap_cons_none hv]
      exact ih

/-! ## 3. Ways along violations -/

/-- Some violation leads from the one path to the other. -/
def IsEdge (vs : List LayerViolation) (a b : String) : Prop :=
  ∃ v ∈ vs, v.source = a ∧ v.target = b

theorem IsEdge.upward {a b : String} (h : IsEdge (violations analyses ds) a b) :
    ∃ s t, IsLastLayer analyses a s ∧ IsLastLayer analyses b t ∧ isUpward s t := by
  obtain ⟨v, hv, rfl, rfl⟩ := h
  obtain ⟨-, hs, ht, hup⟩ := mem_violations_iff.mp hv
  exact ⟨_, _, hs, ht, hup⟩

/-- Violations that follow each other lead up all the way. -/
theorem IsEdge.transGen_upward {a b : String}
    (h : TransGen (IsEdge (violations analyses ds)) a b) :
    ∃ s t, IsLastLayer analyses a s ∧ IsLastLayer analyses b t ∧ isUpward s t := by
  induction h with
  | single h => exact h.upward
  | tail _ h ih =>
    obtain ⟨s, t, hs, ht, hst⟩ := ih
    obtain ⟨t', u, ht', hu, htu⟩ := h.upward
    -- The path between has one layer, so the two ways up join.
    obtain rfl := ht.unique ht'
    exact ⟨s, u, hs, hu, isUpward_trans hst htu⟩

theorem not_transGen_isEdge (p : String) :
    ¬ TransGen (IsEdge (violations analyses ds)) p p := by
  intro h
  obtain ⟨s, t, hs, ht, hup⟩ := IsEdge.transGen_upward h
  obtain rfl := hs.unique ht
  exact isUpward_irrefl s hup

/-! ## 4. The report -/

/-- A list of violations reports the edges that point upward. -/
structure IsReport (analyses : List LayerAnalysis) (ds : List Dependency)
    (vs : List LayerViolation) : Prop where
  /-- There is one violation for each of these edges, in the order of the edges. -/
  forall₂ : List.Forall₂ (Reports analyses) (ds.filter (PointsUpward analyses ·)) vs
  /-- No way along violations leads back to where it starts; -/
  acyclic : ∀ p, ¬ TransGen (IsEdge vs) p p
  /-- in particular no path violates the layers by itself. -/
  source_ne_target : ∀ v ∈ vs, v.source ≠ v.target

/-- **The violations are the edges that point upward, and they form no circle**, whatever the
analyses and the edges. -/
theorem violations_isReport (analyses : List LayerAnalysis) (ds : List Dependency) :
    IsReport analyses ds (violations analyses ds) where
  forall₂ := forall₂_reports analyses ds
  acyclic := not_transGen_isEdge
  source_ne_target v hv heq := not_transGen_isEdge v.source (.single ⟨v, hv, rfl, heq.symm⟩)

end Codemap.Layers
