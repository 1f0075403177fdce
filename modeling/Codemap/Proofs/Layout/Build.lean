/-
# Layouts that are built step by step

A layout may be built from nothing by adding manifests, directories and patterns for workspaces, one
after the other (`build`).  A directory may be written with doubled slashes, or with slashes at its
ends: what is recorded are the ways that its segments begin (`mem_directoryChain_iff`), so whatever
is around a recorded directory is recorded, and nothing that is recorded has an empty segment.
Manifests are sorted again after each step, stably, so those with one path stay in the order in
which they were added.

What one step does to the directories and the manifests is said once (`mem_directories_add`,
`manifests_add`) and gives what all steps together do (`mem_directories_build`, `manifests_build`).

Main statement: `build_isBuilt`.
-/
import Codemap.Imports.Path
import Codemap.Proofs.Layout.Paths
import Codemap.Proofs.Order.Ascending
import Codemap.Proofs.Order.Permutation

namespace Codemap

open Codemap.Text FileTree

variable {d e : String} {way : List String}

/-! ## 1. Directories around a directory -/

/-- A directory is another one, as its segments are written, or lies around it; it is not the
root. -/
def IsAround (d e : String) : Prop := ∃ way, way ≠ [] ∧ way <+: wayOf e ∧ pathOf way = d

theorem mem_chain_iff {path : List Char} {passed rest : List (List Char)} :
    path ∈ Layout.chain passed rest ↔
      ∃ segments, segments ≠ [] ∧ segments <+: rest ∧ join ['/'] (passed ++ segments) = path := by
  induction rest generalizing passed with
  | nil =>
    refine iff_of_false List.not_mem_nil ?_
    rintro ⟨segments, hne, hbegins, -⟩
    exact hne (List.prefix_nil.mp hbegins)
  | cons s rest ih =>
    rw [Layout.chain, List.mem_cons, ih]
    constructor
    · rintro (rfl | ⟨segments, -, hbegins, rfl⟩)
      · exact ⟨[s], List.cons_ne_nil _ _, List.prefix_cons_inj s |>.mpr List.nil_prefix, rfl⟩
      · refine ⟨s :: segments, List.cons_ne_nil _ _, (List.prefix_cons_inj s).mpr hbegins, ?_⟩
        rw [List.append_assoc, List.singleton_append]
    · rintro ⟨segments, hne, hbegins, rfl⟩
      rcases List.prefix_cons_iff.mp hbegins with rfl | ⟨more, rfl, hmore⟩
      · exact absurd rfl hne
      by_cases hnil : more = []
      · exact Or.inl (by rw [hnil])
      · refine Or.inr ⟨more, hnil, hmore, ?_⟩
        rw [List.append_assoc, List.singleton_append]

/-- **What is recorded for a directory is what lies around it.** -/
theorem mem_directoryChain_iff : d ∈ Layout.directoryChain e ↔ IsAround d e := by
  have hpath (segments : List (List Char)) :
      pathOf (segments.map String.ofList) = .ofList (join ['/'] segments) := by
    refine String.toList_inj.mp ?_
    rw [toList_pathOf, String.toList_ofList, List.map_map]
    exact congrArg _ (List.map_id'' (fun _ => String.toList_ofList) segments)
  simp only [Layout.directoryChain, List.mem_map, mem_chain_iff, IsAround, wayOf,
    List.prefix_map_iff, List.nil_append]
  constructor
  · rintro ⟨_, ⟨segments, hne, hbegins, rfl⟩, rfl⟩
    exact ⟨segments.map String.ofList, by simpa using hne, ⟨segments, hbegins, rfl⟩, hpath segments⟩
  · rintro ⟨_, hne, ⟨segments, hbegins, rfl⟩, rfl⟩
    exact ⟨_, ⟨segments, by simpa using hne, hbegins, rfl⟩, (hpath segments).symm⟩

namespace IsAround

/-- What lies around a directory has its way through segments. -/
theorem exists_way (h : IsAround d e) :
    ∃ way, way ≠ [] ∧ (∀ s ∈ way, IsSegment s) ∧ pathOf way = d := by
  obtain ⟨way, hne, hbegins, rfl⟩ := h
  exact ⟨way, hne, fun s hs => isSegment_of_mem_wayOf (hbegins.subset hs), rfl⟩

/-- No segment of what lies around a directory is empty. -/
theorem segment_ne_nil (h : IsAround d e) : ∀ segment ∈ piecesAt '/' d.toList, segment ≠ [] := by
  obtain ⟨way, hne, hway, rfl⟩ := h.exists_way
  have hslash : ∀ a ∈ way.map String.toList, '/' ∉ a := by
    simpa using fun s hs => (hway s hs).2
  rw [toList_pathOf, piecesAt_join (by simpa using hne) hslash]
  simpa using fun s hs => (hway s hs).1

theorem ne_empty (h : IsAround d e) : d ≠ "" := by
  rintro rfl
  exact h.segment_ne_nil [] (by simp [piecesAt, pieces]) rfl

end IsAround

/-- The directory that a path lies in; the root is the empty path. -/
def parentOf (path : String) : String := .ofList (Path.directory path.toList)

/-- The parent of a path is at the end of the way without its last segment. -/
theorem parentOf_pathOf (hway : ∀ s ∈ way, IsSegment s) :
    parentOf (pathOf way) = pathOf way.dropLast := by
  rcases List.eq_nil_or_concat' way with rfl | ⟨init, last, rfl⟩
  · rfl
  have hlast : '/' ∉ last.toList := (hway last (by simp)).2
  rw [List.dropLast_concat, parentOf, Path.directory]
  by_cases hinit : init = []
  · rw [hinit, List.nil_append, toList_pathOf]
    have hjoin : join ['/'] ([last].map String.toList) = last.toList := by simp [join]
    rw [hjoin, cutLast_of_not_mem hlast]
    rfl
  · have hsplit :
        (pathOf (init ++ [last])).toList = (pathOf init).toList ++ '/' :: last.toList := by
      rw [pathOf_concat hinit]
      simp
    rw [hsplit, cutLast_append_cons hlast]
    exact String.ofList_toList

/-- **What lies around a directory has its parent around that directory**, unless that is the
root. -/
theorem IsAround.parentOf (h : IsAround d e) : parentOf d = "" ∨ IsAround (parentOf d) e := by
  obtain ⟨way, -, hbegins, rfl⟩ := h
  rw [parentOf_pathOf fun s hs => isSegment_of_mem_wayOf (hbegins.subset hs)]
  by_cases hnil : way.dropLast = []
  · exact Or.inl (by rw [hnil]; rfl)
  · exact Or.inr ⟨way.dropLast, hnil, (List.dropLast_prefix way).trans hbegins, rfl⟩

/-- A directory without its empty segments lies around it, unless it is the root. -/
theorem isAround_pathOf_wayOf (e : String) :
    pathOf (wayOf e) = "" ∨ IsAround (pathOf (wayOf e)) e := by
  by_cases hnil : wayOf e = []
  · exact Or.inl (by rw [hnil]; rfl)
  · exact Or.inr ⟨wayOf e, hnil, List.prefix_rfl, rfl⟩

namespace Layout

/-! ## 2. Steps -/

/-- What is added to a layout in one step. -/
inductive Step where
  | manifest (m : Manifest)
  | directory (path : String)
  | workspace (pattern : String)
deriving Repr, DecidableEq

namespace Step

/-- The manifest that is added. -/
def manifest? : Step → Option Manifest
  | manifest m => some m
  | directory _ | workspace _ => none

/-- The directory that is recorded: one that is added, or that of a manifest. -/
def directory? : Step → Option String
  | manifest m => some m.directory
  | directory path => some path
  | workspace _ => none

end Step

/-- The layout after one more step. -/
def add (l : Layout) : Step → Layout
  | .manifest m => l.withManifest m
  | .directory path => l.withDirectory path
  | .workspace pattern => l.withWorkspace pattern

/-- The layout that some steps build from nothing. -/
def build (rootName : String) (steps : List Step) : Layout := steps.foldl add (empty rootName)

variable {l : Layout} {m : Manifest} {step : Step} {steps : List Step} {rootName : String}

/-! ## 3. What steps do to the directories -/

/-- A step records what lies around its directory. -/
theorem mem_directories_add :
    d ∈ (l.add step).directories ↔ (∃ e ∈ step.directory?, IsAround d e) ∨ d ∈ l.directories := by
  have hmem (e : String) :
      d ∈ (l.withDirectory e).directories ↔ IsAround d e ∨ d ∈ l.directories := by
    rw [withDirectory, Order.mem_ascending, List.mem_append, mem_directoryChain_iff]
  cases step with
  | manifest m =>
    change d ∈ (l.withDirectory m.directory).directories ↔ _
    simpa [Step.directory?] using hmem m.directory
  | directory path => simpa [add, Step.directory?] using hmem path
  | workspace pattern => simp [add, Step.directory?, withWorkspace]

theorem mem_directories_foldl :
    d ∈ (steps.foldl add l).directories ↔
      (∃ step ∈ steps, ∃ e ∈ step.directory?, IsAround d e) ∨ d ∈ l.directories := by
  induction steps generalizing l with
  | nil => simp
  | cons step steps ih =>
    rw [List.foldl_cons, ih, mem_directories_add]
    simp only [List.mem_cons, exists_eq_or_imp]
    exact or_left_comm.trans or_assoc.symm

/-- **The directories of a layout are those around what was added.** -/
theorem mem_directories_build :
    d ∈ (build rootName steps).directories ↔
      ∃ step ∈ steps, ∃ e ∈ step.directory?, IsAround d e := by
  rw [build, mem_directories_foldl]
  exact or_iff_left List.not_mem_nil

theorem pairwise_directories_add (h : l.directories.Pairwise (· < ·)) :
    (l.add step).directories.Pairwise (· < ·) := by
  cases step with
  | manifest m => exact Order.pairwise_ascending _
  | directory path => exact Order.pairwise_ascending _
  | workspace pattern => exact h

theorem pairwise_directories_build (rootName : String) (steps : List Step) :
    (build rootName steps).directories.Pairwise (· < ·) := by
  have hfoldl : ∀ l : Layout, l.directories.Pairwise (· < ·) →
      (steps.foldl add l).directories.Pairwise (· < ·) := by
    induction steps with
    | nil => exact fun _ h => h
    | cons step steps ih => exact fun l h => ih _ (pairwise_directories_add h)
  exact hfoldl _ List.Pairwise.nil

/-! ## 4. What steps do to the manifests -/

theorem byPath_trans (a b c : Manifest) (hab : byPath a b) (hbc : byPath b c) : byPath a c := by
  simp only [byPath, decide_eq_true_eq] at *
  exact String.le_trans hab hbc

theorem byPath_total (a b : Manifest) : (byPath a b || byPath b a) = true := by
  simpa [byPath] using String.le_total a.path b.path

/-- A step sorts manifests that were added before, and the one that it adds. -/
theorem manifests_add {ms : List Manifest} (h : l.manifests = ms.mergeSort byPath) :
    (l.add step).manifests = (ms ++ step.manifest?.toList).mergeSort byPath := by
  cases step with
  | manifest m =>
    change (l.manifests ++ [m]).mergeSort byPath = _
    rw [h, Order.mergeSort_mergeSort_append byPath_trans byPath_total]
    rfl
  | directory path => simpa [add, withDirectory, Step.manifest?] using h
  | workspace pattern => simpa [add, withWorkspace, Step.manifest?] using h

/-- **Sorting after each step comes to sorting once.** -/
theorem manifests_build :
    (build rootName steps).manifests = (steps.filterMap Step.manifest?).mergeSort byPath := by
  have hfoldl : ∀ (ms : List Manifest) (l : Layout), l.manifests = ms.mergeSort byPath →
      (steps.foldl add l).manifests =
        (ms ++ steps.filterMap Step.manifest?).mergeSort byPath := by
    induction steps with
    | nil => simp
    | cons step steps ih =>
      intro ms l h
      have hrest : (step :: steps).filterMap Step.manifest? =
          step.manifest?.toList ++ steps.filterMap Step.manifest? := by
        cases hm : step.manifest? <;> simp [hm]
      rw [List.foldl_cons, ih _ _ (manifests_add h), hrest, List.append_assoc]
  exact hfoldl [] (empty rootName) (by simp [empty])

/-- Manifests with one path are in the order in which they were added. -/
theorem filter_manifests_build (path : String) :
    (build rootName steps).manifests.filter (·.path == path) =
      (steps.filterMap Step.manifest?).filter (·.path == path) := by
  rw [manifests_build, Order.filter_mergeSort byPath_trans byPath_total]
  refine List.mergeSort_of_pairwise (List.pairwise_of_forall_mem_list fun a ha b hb => ?_)
  rw [byPath, decide_eq_true_eq, eq_of_beq (List.mem_filter.mp ha).2,
    eq_of_beq (List.mem_filter.mp hb).2]

theorem pairwise_manifests_build :
    (build rootName steps).manifests.Pairwise (·.path ≤ ·.path) := by
  rw [manifests_build]
  exact Order.pairwise_sortBy Manifest.path _

theorem mem_filterMap_manifest? :
    m ∈ steps.filterMap Step.manifest? ↔ .manifest m ∈ steps := by
  rw [List.mem_filterMap]
  constructor
  · rintro ⟨step, hstep, hm⟩
    cases step with
    | manifest m' =>
      obtain rfl := Option.some.inj hm
      exact hstep
    | directory path => exact absurd hm (by simp [Step.manifest?])
    | workspace pattern => exact absurd hm (by simp [Step.manifest?])
  · exact fun h => ⟨_, h, rfl⟩

theorem mem_manifests_build :
    m ∈ (build rootName steps).manifests ↔ .manifest m ∈ steps := by
  rw [manifests_build, (List.mergeSort_perm _ _).mem_iff, mem_filterMap_manifest?]

/-! ## 5. Other orders -/

/-- Two sequences of steps add the same directories and manifests, in whatever order. -/
structure AddSame (steps steps' : List Step) : Prop where
  directory_mem_iff : ∀ path, .directory path ∈ steps ↔ .directory path ∈ steps'
  manifests_perm : (steps.filterMap Step.manifest?).Perm (steps'.filterMap Step.manifest?)

theorem AddSame.mem_directories_iff {steps' : List Step} (h : AddSame steps steps')
    {rootName' : String} :
    d ∈ (build rootName steps).directories ↔ d ∈ (build rootName' steps').directories := by
  have hmanifest (m : Manifest) : .manifest m ∈ steps ↔ .manifest m ∈ steps' := by
    rw [← mem_filterMap_manifest?, h.manifests_perm.mem_iff, mem_filterMap_manifest?]
  have hsplit (steps : List Step) : (∃ step ∈ steps, ∃ e ∈ step.directory?, IsAround d e) ↔
      (∃ m, .manifest m ∈ steps ∧ IsAround d m.directory) ∨
        ∃ path, .directory path ∈ steps ∧ IsAround d path := by
    constructor
    · rintro ⟨step, hstep, e, he, haround⟩
      cases step with
      | manifest m =>
        obtain rfl := Option.some.inj he
        exact Or.inl ⟨m, hstep, haround⟩
      | directory path =>
        obtain rfl := Option.some.inj he
        exact Or.inr ⟨path, hstep, haround⟩
      | workspace pattern => exact absurd he (by simp [Step.directory?])
    · rintro (⟨m, hm, haround⟩ | ⟨path, hpath, haround⟩)
      · exact ⟨_, hm, _, rfl, haround⟩
      · exact ⟨_, hpath, _, rfl, haround⟩
  rw [mem_directories_build, mem_directories_build, hsplit, hsplit]
  simp only [hmanifest, h.directory_mem_iff]

/-- **The order in which directories are added does not matter.** -/
theorem AddSame.directories_eq {steps' : List Step} (h : AddSame steps steps')
    (rootName rootName' : String) :
    (build rootName steps).directories = (build rootName' steps').directories :=
  (pairwise_directories_build rootName steps).eq_of_mem_iff
    (pairwise_directories_build rootName' steps') fun _ => h.mem_directories_iff

/-- **The order in which manifests are added does not matter**, if their paths tell them apart. -/
theorem AddSame.manifests_eq {steps' : List Step} (h : AddSame steps steps')
    (hpaths : ((steps.filterMap Step.manifest?).map (·.path)).Nodup) (rootName rootName' : String) :
    (build rootName steps).manifests = (build rootName' steps').manifests := by
  have hperm : (build rootName steps).manifests.Perm (steps.filterMap Step.manifest?) := by
    rw [manifests_build]
    exact List.mergeSort_perm _ _
  have hperm' : (build rootName' steps').manifests.Perm (steps.filterMap Step.manifest?) := by
    rw [manifests_build]
    exact (List.mergeSort_perm _ _).trans h.manifests_perm.symm
  refine List.Perm.eq_of_pairwise (fun a b ha hb hab hba => ?_) pairwise_manifests_build
    pairwise_manifests_build (hperm.trans hperm'.symm)
  exact List.inj_on_of_nodup_map hpaths (hperm.mem_iff.mp ha) (hperm'.mem_iff.mp hb)
    (String.le_antisymm hab hba)

/-! ## 6. What is promised -/

/-- A layout holds what some steps have added. -/
structure IsBuilt (steps : List Step) (l : Layout) : Prop where
  /-- Directories are a set. -/
  ascending : l.directories.Pairwise (· < ·)
  /-- The directory around a directory is one, unless it is the root. -/
  parentOf_mem : ∀ d ∈ l.directories, parentOf d = "" ∨ parentOf d ∈ l.directories
  /-- The root is not recorded. -/
  empty_not_mem : "" ∉ l.directories
  /-- No recorded path has an empty segment. -/
  segment_ne_nil : ∀ d ∈ l.directories, ∀ segment ∈ piecesAt '/' d.toList, segment ≠ []
  /-- The directory of a manifest, without its empty segments, is the root or is recorded. -/
  directory_mem : ∀ m ∈ l.manifests,
    pathOf (wayOf m.directory) = "" ∨ pathOf (wayOf m.directory) ∈ l.directories
  /-- What is recorded lies around something that was added, and all of that is recorded. -/
  mem_directories_iff : ∀ d,
    d ∈ l.directories ↔ ∃ step ∈ steps, ∃ e ∈ step.directory?, IsAround d e
  /-- Manifests are ordered by path. -/
  ordered : l.manifests.Pairwise (·.path ≤ ·.path)
  /-- Those with one path are in the order in which they were added. -/
  insertion : ∀ path, l.manifests.filter (·.path == path) =
    (steps.filterMap Step.manifest?).filter (·.path == path)
  /-- The same directories, and the same manifests with distinct paths, may be added in any
  order. -/
  reordered : ∀ rootName steps', AddSame steps steps' →
    ((steps.filterMap Step.manifest?).map (·.path)).Nodup →
      (build rootName steps').directories = l.directories ∧
        (build rootName steps').manifests = l.manifests

/-- **What holds of every layout that is built step by step.** -/
theorem build_isBuilt (rootName : String) (steps : List Step) :
    IsBuilt steps (build rootName steps) where
  ascending := pairwise_directories_build rootName steps
  parentOf_mem d hd := by
    obtain ⟨step, hstep, e, he, haround⟩ := mem_directories_build.mp hd
    refine haround.parentOf.imp_right fun hparent => ?_
    exact mem_directories_build.mpr ⟨step, hstep, e, he, hparent⟩
  empty_not_mem hd := by
    obtain ⟨-, -, e, -, haround⟩ := mem_directories_build.mp hd
    exact haround.ne_empty rfl
  segment_ne_nil d hd := by
    obtain ⟨-, -, e, -, haround⟩ := mem_directories_build.mp hd
    exact haround.segment_ne_nil
  directory_mem m hm := by
    refine (isAround_pathOf_wayOf m.directory).imp_right fun haround => ?_
    exact mem_directories_build.mpr ⟨_, mem_manifests_build.mp hm, _, rfl, haround⟩
  mem_directories_iff _ := mem_directories_build
  ordered := pairwise_manifests_build
  insertion := filter_manifests_build
  reordered rootName' steps' h hpaths :=
    ⟨(h.directories_eq rootName rootName').symm, (h.manifests_eq hpaths rootName rootName').symm⟩

end Layout

end Codemap
