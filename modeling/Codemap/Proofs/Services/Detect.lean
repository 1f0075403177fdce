/-
# Services do not depend on the order of the files

The roots depend on the set of paths only, the kind of a service on the set of its packages and on
the set of the names of its directories, and the files of a service are sorted.  Of a file only its
path, its language and what it imports are seen at all (`build_eq_of_seen`).
-/
import Codemap.Proofs.Order.Ascending
import Codemap.Services.Detect
import Mathlib.Data.Set.Basic

namespace Codemap.Services

open Codemap.Order

variable {l : Layout} {files files' : List FileFacts}

/-! ## 1. Roots -/

theorem namedServices_eq_of_perm (h : files.Perm files') :
    namedServices l files = namedServices l files' := by
  refine ascending_congr fun z => ?_
  simp only [List.mem_append, List.mem_filter, List.mem_filterMap, h.mem_iff]

theorem roots_eq_of_perm (h : files.Perm files') : roots l files = roots l files' := by
  rw [roots, roots, namedServices_eq_of_perm h]

/-! ## 2. Kinds -/

/-- The kind of a service depends only on the set of the names of its directories. -/
theorem classify_congr (packages : List String) {directories directories' : List String}
    (h : ∀ d, d ∈ directories ↔ d ∈ directories') :
    classify packages directories = classify packages directories' := by
  have hcontains : directories.contains = directories'.contains := by
    funext d
    rw [Bool.eq_iff_iff, List.contains_iff_mem, List.contains_iff_mem]
    exact h d
  rw [classify, classify, hcontains]

/-! ## 3. What is seen of files -/

/-- The path of a file, its language, and the modules that it imports. -/
def seen (f : FileFacts) : String × Language × Set String :=
  (f.path, f.language, {s | s ∈ f.importSources})

theorem map_fst_seen (files : List FileFacts) :
    (files.map seen).map (·.1) = files.map (·.path) := List.map_map

theorem mem_directoryNames_congr (h : (files.map seen).Perm (files'.map seen)) (root d : String) :
    d ∈ directoryNames l root files ↔ d ∈ directoryNames l root files' := by
  have hnames (files : List FileFacts) :
      (d ∈ files.flatMap fun f =>
        (namesAround root.toList f.path.length f.path.toList).map String.ofList) ↔
      ∃ x ∈ files.map seen,
        d ∈ (namesAround root.toList x.1.length x.1.toList).map String.ofList := by
    simp [seen]
  rw [directoryNames, directoryNames, List.mem_append, List.mem_append, hnames, hnames]
  simp only [h.mem_iff]

theorem mem_importedPackages_iff {p : String} :
    p ∈ importedPackages files ↔
      ∃ x ∈ files.map seen, ∃ s ∈ x.2.2, Packages.external? x.2.1 s = some p := by
  simp [importedPackages, seen]

theorem packages_eq_of_seen (h : (files.map seen).Perm (files'.map seen))
    (declared : List String) :
    ascending (declared ++ importedPackages files) =
      ascending (declared ++ importedPackages files') := by
  refine ascending_congr fun z => ?_
  simp only [List.mem_append, mem_importedPackages_iff, h.mem_iff]

/-! ## 4. Services -/

/-- **A service depends on what is seen of its files**, and not on their order. -/
theorem build_eq_of_seen (h : (files.map seen).Perm (files'.map seen)) (root : String) :
    build l root files = build l root files' := by
  have hempty : files.isEmpty = files'.isEmpty := by
    rw [← List.isEmpty_map (f := seen), h.isEmpty_eq, List.isEmpty_map]
  have hpaths : (files.map (·.path)).Perm (files'.map (·.path)) := by
    rw [← map_fst_seen, ← map_fst_seen]
    exact h.map _
  simp only [build, packages_eq_of_seen h, hempty, sort_congr hpaths,
    classify_congr _ (mem_directoryNames_congr h root)]

theorem build_eq_of_perm (h : files.Perm files') (root : String) :
    build l root files = build l root files' := build_eq_of_seen (h.map seen) root

/-- **The services of a repository do not depend on the order of its files.** -/
theorem detect_eq_of_perm (h : files.Perm files') : detect l files = detect l files' := by
  rw [detect, detect, roots_eq_of_perm h]
  exact List.map_congr_left fun r _ => build_eq_of_perm (h.filter _) r

end Codemap.Services
