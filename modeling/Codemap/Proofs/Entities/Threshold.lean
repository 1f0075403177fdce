/-
# The threshold is a filter

Candidates for entities are found and weighed before any is rejected, and nothing about one depends
on another.  The confidence in a candidate is a number from zero on, since it is a sum of finite
weights that is kept between zero and one.  So all candidates are accepted at the threshold zero,
and at a higher one those whose confidence reaches it; leaving out the others before entities are
sorted or afterwards is the same.

Main statement: `entitiesAmong_threshold`.
-/
import Codemap.Proofs.Entities.Detector
import Codemap.Proofs.Order.Floats

namespace Codemap

open Codemap.Order Codemap.Floats

/-! ## 1. Confidence -/

/-- Every kind of evidence has a finite weight. -/
theorem Evidence.isFinite_weight (k : Evidence) : IsFinite k.weight := by
  cases k <;> decide

theorem isNumber_foldl_weight {signals : List Signal} (h : ∀ s ∈ signals, IsFinite s.weight)
    {sum : Float} (hsum : IsNumber sum) :
    IsNumber (signals.foldl (fun sum s => sum + s.weight) sum) := by
  induction signals generalizing sum with
  | nil => exact hsum
  | cons s signals ih =>
    exact ih (fun s' hs' => h s' (List.mem_cons_of_mem s hs'))
      (hsum.add (h s List.mem_cons_self))

/-- **The confidence that finite weights give is a number.** -/
theorem isNumber_confidence {signals : List Signal} (h : ∀ s ∈ signals, IsFinite s.weight) :
    IsNumber (confidence signals) := by
  have hzero : IsFinite 0.0 := by decide
  have hnegative : IsFinite (-0.0) := by decide
  have hone : IsFinite 1.0 := by decide
  rw [confidence, clampUnit]
  split
  · exact hzero.isNumber
  · split
    · exact hone.isNumber
    · exact isNumber_foldl_weight h hnegative.isNumber

/-- **Confidence is never below zero.** -/
theorem not_confidence_lt_zero (signals : List Signal) : ¬ confidence signals < 0.0 := by
  rw [confidence, clampUnit]
  split
  · decide
  next hzero =>
    split
    · decide
    · exact hzero

/-! ## 2. Candidates -/

namespace Entities

variable {packages : MappingPackages} {parsers : Parsers} {files : List FileFacts}
  {sources : List (String × String)} {facts : FileFacts} {e : Entity}

/-- The confidence in a candidate is a number from zero on. -/
theorem confidence_of_mem_candidates {tree : Syntax.Node} (h : e ∈ candidates packages facts tree) :
    IsNumber e.confidence ∧ ¬ e.confidence < 0.0 := by
  rw [candidates] at h
  split at h
  · exact absurd h List.not_mem_nil
  · obtain ⟨draft, -, rfl⟩ := List.mem_map.mp h
    refine ⟨isNumber_confidence fun s hs => ?_, not_confidence_lt_zero _⟩
    obtain ⟨k, -, rfl⟩ := List.mem_map.mp hs
    exact k.isFinite_weight

/-- The candidates of a file that is parsed again. -/
def candidatesIn (packages : MappingPackages) (parsers : Parsers)
    (sources : List (String × String)) (facts : FileFacts) : List Entity :=
  match EntityDetector.treeAgain? parsers sources facts with
  | some tree => candidates packages facts tree
  | none => []

/-- The candidates of many files, in the order of entities. -/
def candidatesAmong (packages : MappingPackages) (parsers : Parsers) (files : List FileFacts)
    (sources : List (String × String)) : List Entity :=
  (files.flatMap (candidatesIn packages parsers sources)).mergeSort EntityDetector.comesFirst

theorem confidence_of_mem_candidatesAmong
    (h : e ∈ candidatesAmong packages parsers files sources) :
    IsNumber e.confidence ∧ ¬ e.confidence < 0.0 := by
  obtain ⟨facts, -, he⟩ := List.mem_flatMap.mp (List.mem_mergeSort.mp h)
  rw [candidatesIn] at he
  split at he
  · exact confidence_of_mem_candidates he
  · exact absurd he List.not_mem_nil

end Entities

namespace EntityDetector

open Entities

variable {d : EntityDetector} {parsers : Parsers} {files : List FileFacts}
  {sources : List (String × String)} {t : Float}

theorem accepts_iff {e : Entity} : d.accepts e ↔ ¬ e.confidence < d.threshold := by
  simp [accepts]

/-- The entities of a file are the accepted candidates. -/
theorem entitiesIn_eq_filter (facts : FileFacts) : d.entitiesIn parsers sources facts =
    (candidatesIn d.packages parsers sources facts).filter d.accepts := by
  rw [entitiesIn, candidatesIn]
  cases treeAgain? parsers sources facts <;> rfl

/-- **Rejecting candidates before entities are sorted or afterwards is the same.** -/
theorem entitiesAmong_eq_filter : d.entitiesAmong parsers files sources =
    (candidatesAmong d.packages parsers files sources).filter d.accepts := by
  rw [candidatesAmong, filter_mergeSort comesFirst_trans comesFirst_total, List.filter_flatMap,
    entitiesAmong_eq, funext entitiesIn_eq_filter]

/-! ## 3. Thresholds -/

/-- Above zero, the entities are the candidates that reach the threshold. -/
theorem entitiesAmong_withThreshold (ht : IsNumber t) :
    (d.withThreshold t).entitiesAmong parsers files sources =
      (candidatesAmong d.packages parsers files sources).filter fun e => t ≤ e.confidence := by
  rw [entitiesAmong_eq_filter]
  refine List.filter_congr fun e he => ?_
  have hnumber := (confidence_of_mem_candidatesAmong he).1
  rw [Bool.eq_iff_iff, accepts_iff, decide_eq_true_eq]
  exact not_lt_iff_le hnumber ht

/-- At the threshold zero all candidates are entities. -/
theorem entitiesAmong_withThreshold_zero :
    (d.withThreshold 0.0).entitiesAmong parsers files sources =
      candidatesAmong d.packages parsers files sources := by
  rw [entitiesAmong_eq_filter]
  exact List.filter_eq_self.mpr fun e he =>
    accepts_iff.mpr (confidence_of_mem_candidatesAmong he).2

/-- **The threshold is a filter**, whatever the parsers are.  The entities at a threshold between
zero and one are those at the threshold zero whose confidence is at least as great, in the same
order, so that raising the threshold only removes some.  They are ordered by file and then by line,
and where the paths of the files are distinct it does not matter in which order these are given. -/
theorem entitiesAmong_threshold (d : EntityDetector) (parsers : Parsers)
    (files : List FileFacts) (sources : List (String × String)) (t : Float)
    (ht : 0.0 ≤ t ∧ t ≤ 1.0) :
    (d.withThreshold t).entitiesAmong parsers files sources =
        ((d.withThreshold 0.0).entitiesAmong parsers files sources).filter
          (fun e => t ≤ e.confidence) ∧
      (∀ t', t ≤ t' → ((d.withThreshold t').entitiesAmong parsers files sources).Sublist
        ((d.withThreshold t).entitiesAmong parsers files sources)) ∧
      ((d.withThreshold t).entitiesAmong parsers files sources).Pairwise (fun a b =>
        a.file < b.file ∨ (a.file = b.file ∧ a.location.startLine ≤ b.location.startLine)) ∧
      ∀ files', files.Perm files' → (files.map (·.path)).Nodup →
        (d.withThreshold t).entitiesAmong parsers files' sources =
          (d.withThreshold t).entitiesAmong parsers files sources := by
  have hnumber : IsNumber t := (isNumber_of_le ht.1).2
  refine ⟨?_, fun t' htt' => ?_, ?_, fun files' hperm hnodup => ?_⟩
  · rw [entitiesAmong_withThreshold hnumber, entitiesAmong_withThreshold_zero]
  · rw [entitiesAmong_withThreshold hnumber, entitiesAmong_withThreshold (isNumber_of_le htt').2]
    refine List.monotone_filter_right _ fun e he => ?_
    exact decide_eq_true (float_le_trans htt' (of_decide_eq_true he))
  · rw [entitiesAmong_eq]
    exact (List.pairwise_mergeSort comesFirst_trans comesFirst_total _).imp comesFirst_iff.mp
  · exact (entitiesAmong_eq_of_perm_files hperm hnodup).symm

/-- The source of a class that is annotated as an entity, in a directory of models. -/
def annotatedSource : List (String × String) := [("model/User.java", "@Entity class User {}")]

/-- The annotation and the directory give a confidence of one half. -/
theorem entitiesAmong_threshold_annotatedSource :
    ((0.0 : Float) ≤ 0.75 ∧ (0.75 : Float) ≤ 1.0) ∧
      ((default.withThreshold 0.0).entitiesAmong Language.all
        [.empty "model/User.java" .java] annotatedSource).map (·.table) = ["users"] ∧
      (default.withThreshold 0.75).entitiesAmong Language.all
        [.empty "model/User.java" .java] annotatedSource = [] := by
  have ht : (0.0 : Float) ≤ 0.75 ∧ (0.75 : Float) ≤ 1.0 := by decide
  have hall : ((default.withThreshold 0.0).entitiesIn Language.all annotatedSource
      (.empty "model/User.java" .java)).map (fun e => (e.table, decide (0.75 ≤ e.confidence))) =
        [("users", false)] := by decide +kernel
  obtain ⟨e, he, hboth⟩ := List.map_eq_singleton_iff.mp hall
  obtain ⟨htable, hbelow⟩ := Prod.mk.inj hboth
  have hzero : (default.withThreshold 0.0).entitiesAmong Language.all
      [.empty "model/User.java" .java] annotatedSource = [e] := by
    rw [entitiesAmong_eq, List.flatMap_singleton, he, List.mergeSort_singleton]
  refine ⟨ht, by rw [hzero, List.map_singleton, htable], ?_⟩
  rw [(entitiesAmong_threshold default Language.all [.empty "model/User.java" .java]
    annotatedSource 0.75 ht).1, hzero, List.filter_singleton, hbelow]
  rfl

end EntityDetector

end Codemap
