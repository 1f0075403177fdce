/-
# Entities do not depend on the order of the files

Entities are sorted by file and line, and the sort is stable.  Entities of one file come from the
same facts and the same tree (`entitiesAmong_eq`), so where paths are distinct their order within a
line is that of the declarations.
-/
import Codemap.Entities.Detector
import Codemap.Proofs.Order.Permutation

namespace Codemap.EntityDetector

open Codemap.Order Codemap.Syntax

/-! ## 1. The order of entities -/

theorem comesFirst_iff {a b : Entity} : comesFirst a b ↔
    a.file < b.file ∨ (a.file = b.file ∧ a.location.startLine ≤ b.location.startLine) := by
  simp [comesFirst]

theorem comesFirst_trans (a b c : Entity) (hab : comesFirst a b) (hbc : comesFirst b c) :
    comesFirst a c := by
  rw [comesFirst_iff] at *
  rcases hab with hab | ⟨hab, hab'⟩ <;> rcases hbc with hbc | ⟨hbc, hbc'⟩
  · exact Or.inl (String.lt_trans hab hbc)
  · exact Or.inl (hbc ▸ hab)
  · exact Or.inl (hab ▸ hbc)
  · exact Or.inr ⟨hab.trans hbc, hab'.trans hbc'⟩

theorem comesFirst_total (a b : Entity) : comesFirst a b || comesFirst b a := by
  rw [Bool.or_eq_true, comesFirst_iff, comesFirst_iff]
  by_cases hab : a.file < b.file
  · exact Or.inl (Or.inl hab)
  · by_cases hba : b.file < a.file
    · exact Or.inr (Or.inl hba)
    · have heq : a.file = b.file :=
        String.le_antisymm (String.not_lt.mp hba) (String.not_lt.mp hab)
      exact (Nat.le_total a.location.startLine b.location.startLine).imp
        (fun h => Or.inr ⟨heq, h⟩) fun h => Or.inr ⟨heq.symm, h⟩

/-- Equivalent entities are of one file. -/
theorem file_eq_of_equivalent {a b : Entity} (h : equivalent comesFirst a b) : a.file = b.file := by
  rw [equivalent, Bool.and_eq_true, comesFirst_iff, comesFirst_iff] at h
  obtain ⟨hab | ⟨hab, -⟩, hba | ⟨hba, -⟩⟩ := h
  · exact absurd hba (String.lt_asymm hab)
  · exact hba.symm
  · exact hab
  · exact hab

/-! ## 2. The entities of one file -/

section File

variable {d : EntityDetector} {parsers : Parsers} {facts : FileFacts} {text : String} {tree : Node}
  {e : Entity}

theorem entitiesOfTree_eq_nil (h : Entities.fileEvidence d.packages facts = []) (tree : Node) :
    d.entitiesOfTree facts tree = [] := by
  rw [entitiesOfTree, Entities.candidates, h]
  rfl

theorem file_of_mem_entitiesOfTree (h : e ∈ d.entitiesOfTree facts tree) : e.file = facts.path := by
  have hcandidate : e ∈ Entities.candidates d.packages facts tree := (List.mem_filter.mp h).1
  rw [Entities.candidates] at hcandidate
  split at hcandidate
  · exact absurd hcandidate List.not_mem_nil
  · obtain ⟨draft, -, rfl⟩ := List.mem_map.mp hcandidate
    rfl

/-- A file that can be parsed has the entities of its tree, candidate or not. -/
theorem detect_of_parse_eq_ok {file : ParsedFile}
    (h : parsers.parse facts.language facts.path text = .ok file) :
    d.detect parsers facts text = .ok (d.entitiesOfTree facts file.tree) := by
  rw [detect, h]
  split
  next hempty => rw [entitiesOfTree_eq_nil (List.isEmpty_iff.mp hempty)]
  next => rfl

/-- A file that cannot be parsed has no entities if it is no candidate, and else it is an error. -/
theorem detect_of_parse_eq_error {error : AnalysisError}
    (h : parsers.parse facts.language facts.path text = .error error) :
    (Entities.fileEvidence d.packages facts = [] ∧ d.detect parsers facts text = .ok []) ∨
      d.detect parsers facts text = .error error := by
  rw [detect, h]
  split
  next hempty => exact Or.inl ⟨List.isEmpty_iff.mp hempty, rfl⟩
  next => exact Or.inr rfl

end File

/-- The tree of a file that is parsed again, from the last of the texts that its path has. -/
def treeAgain? (parsers : Parsers) (sources : List (String × String)) (facts : FileFacts) :
    Option Node :=
  (sources.reverse.find? fun s => s.1 == facts.path).bind fun s =>
    (parsers.parse facts.language facts.path s.2).toOption.map (·.tree)

/-- The entities of a file that is parsed again. -/
def entitiesIn (d : EntityDetector) (parsers : Parsers) (sources : List (String × String))
    (facts : FileFacts) : List Entity :=
  match treeAgain? parsers sources facts with
  | some tree => d.entitiesOfTree facts tree
  | none => []

theorem file_of_mem_entitiesIn {d : EntityDetector} {parsers : Parsers}
    {sources : List (String × String)} {facts : FileFacts} {e : Entity}
    (h : e ∈ d.entitiesIn parsers sources facts) : e.file = facts.path := by
  rw [entitiesIn] at h
  split at h
  · exact file_of_mem_entitiesOfTree h
  · exact absurd h List.not_mem_nil

/-! ## 3. The entities of many files -/

variable {d : EntityDetector} {parsers : Parsers} {files files' : List FileFacts}
  {sources sources' : List (String × String)}

/-- The entities of many files are those of the trees of the files that can be parsed again. -/
theorem entitiesAmong_eq : d.entitiesAmong parsers files sources =
    (files.flatMap (d.entitiesIn parsers sources)).mergeSort comesFirst := by
  rw [entitiesAmong]
  refine congrArg (fun entities => (files.flatMap entities).mergeSort comesFirst) ?_
  funext facts
  rw [entitiesIn, treeAgain?]
  cases sources.reverse.find? fun s => s.1 == facts.path with
  | none => rfl
  | some s =>
    obtain ⟨path, text⟩ := s
    rw [Option.bind_some]
    cases hparse : parsers.parse facts.language facts.path text with
    | ok file => simp only [detect_of_parse_eq_ok hparse, Except.toOption, Option.map_some]
    | error error =>
      rcases detect_of_parse_eq_error (d := d) hparse with ⟨-, hdetect⟩ | hdetect <;>
        simp only [hdetect, Except.toOption, Option.map_none]

/-- The source of a path does not depend on the order of the sources, when paths are distinct. -/
theorem entitiesIn_eq_of_perm (hs : sources.Perm sources') (hd : (sources.map (·.1)).Nodup) :
    d.entitiesIn parsers sources = d.entitiesIn parsers sources' := by
  funext facts
  rw [entitiesIn, entitiesIn, treeAgain?, treeAgain?, find?_reverse_eq_of_perm hs hd]

/-- **The entities do not depend on the order of the files**, when their paths are distinct. -/
theorem entitiesAmong_eq_of_perm_files (hf : files.Perm files')
    (hfd : (files.map (·.path)).Nodup) :
    d.entitiesAmong parsers files sources = d.entitiesAmong parsers files' sources := by
  rw [entitiesAmong_eq, entitiesAmong_eq]
  refine mergeSort_congr comesFirst_trans comesFirst_total fun z => ?_
  rw [List.filter_flatMap, List.filter_flatMap]
  refine flatMap_eq_of_perm hf ?_
  -- entities that are equivalent to `z` come from one file
  rw [List.Nodup, List.pairwise_map] at hfd
  refine hfd.imp fun {f g} hne => ?_
  by_contra hboth
  obtain ⟨hfz, hgz⟩ := not_or.mp hboth
  obtain ⟨a, ha⟩ := List.exists_mem_of_ne_nil _ hfz
  obtain ⟨b, hb⟩ := List.exists_mem_of_ne_nil _ hgz
  obtain ⟨ha, haz⟩ := List.mem_filter.mp ha
  obtain ⟨hb, hbz⟩ := List.mem_filter.mp hb
  refine hne ?_
  rw [← file_of_mem_entitiesIn ha, ← file_of_mem_entitiesIn hb, ← file_eq_of_equivalent haz,
    ← file_eq_of_equivalent hbz]

/-- **The entities do not depend on the order of the files and sources**, when paths are
distinct. -/
theorem entitiesAmong_eq_of_perm (hf : files.Perm files') (hfd : (files.map (·.path)).Nodup)
    (hs : sources.Perm sources') (hsd : (sources.map (·.1)).Nodup) :
    d.entitiesAmong parsers files sources = d.entitiesAmong parsers files' sources' := by
  rw [entitiesAmong_eq_of_perm_files hf hfd, entitiesAmong_eq, entitiesAmong_eq,
    entitiesIn_eq_of_perm hs hsd]

end Codemap.EntityDetector
