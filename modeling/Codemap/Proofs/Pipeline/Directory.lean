/-
# What is excluded from the model of a directory

The files of a directory come to its model on two ways: those that can be read are sources, and
those that cannot are counted as failed after the sources have been analyzed.  Only the sources are
asked whether they are excluded.  So no excluded path occurs in what is found out about a directory,
but an excluded file that cannot be read is attempted and fails all the same.

Main statement: `analyzeDirectory_excludesAll_iff`.  A directory is analyzed whenever the settings
are valid, and exclusion is complete if and only if all excluded source files can be read.  Files
that can be read and not parsed make no difference to that, since they are sources.
-/
import Codemap.Proofs.Pipeline.Integrity

namespace Codemap

variable {parsers : Parsers} {c : Config} {rootName p : String} {root : FileTree}
  {layout : Layout}

/-! ## 1. What is promised -/

/-- A path occurs in what a model says about a repository, apart from how its analysis went. -/
inductive ArchitectureModel.Occurs (m : ArchitectureModel) : String → Prop
  | file {f : FileFacts} (h : f ∈ m.files) : Occurs m f.path
  | source {d : Dependency} (h : d ∈ m.dependencies) : Occurs m d.source
  | target {d : Dependency} (h : d ∈ m.dependencies) : Occurs m d.target
  | entryPoint {p : String} (h : p ∈ m.entryPoints) : Occurs m p
  | cycle {cycle : List String} {p : String} (h : cycle ∈ m.cycles) (hp : p ∈ cycle) : Occurs m p
  | entity {e : Entity} (h : e ∈ m.entities) : Occurs m e.file
  | layer {l : LayerAnalysis} (h : l ∈ m.layers) : Occurs m l.file
  | violationSource {v : LayerViolation} (h : v ∈ m.violations) : Occurs m v.source
  | violationTarget {v : LayerViolation} (h : v ∈ m.violations) : Occurs m v.target
  | service {s : Service} {p : String} (h : s ∈ m.services) (hp : p ∈ s.files) : Occurs m p

/-- Nothing that is excluded occurs in a model, failed, or was attempted; `found` are the paths of
all source files. -/
structure ExcludesAll (c : Config) (found : List String) (m : ArchitectureModel) : Prop where
  occurs : ∀ p, m.Occurs p → c.excludes p = false
  failed : ∀ p ∈ m.stats.failedFiles, c.excludes p = false
  attempted : m.stats.attempted = found.countP fun p => !c.excludes p

/-! ## 2. Sources -/

/-- The source files of a directory are in known languages. -/
theorem isSome_ofPath?_of_mem_sourceFiles {entries : List (String × FileTree)}
    (h : p ∈ (Layout.scan rootName entries).sourceFiles) : (Language.ofPath? p).isSome := by
  obtain ⟨found, -, hfound⟩ := List.mem_filterMap.mp (List.mem_mergeSort.mp h)
  cases found with
  | directory path => exact absurd hfound.symm (Option.some_ne_none p)
  | file path parent name text =>
    rw [Found.source?] at hfound
    split at hfound
    next hlanguage => exact Option.some.inj hfound ▸ hlanguage
    next => exact absurd hfound.symm (Option.some_ne_none p)

/-- The sources of a layout are its source files that can be read, in the same order. -/
theorem map_path_readSources (h : ∀ p ∈ layout.sourceFiles, (Language.ofPath? p).isSome) :
    (readSources root layout).1.map (·.path) =
      layout.sourceFiles.filter fun p => (root.textAt? p).isSome := by
  simp only [readSources, List.map_filterMap]
  rw [← List.filterMap_eq_filter]
  refine List.filterMap_congr fun p hp => ?_
  obtain ⟨language, hlanguage⟩ := Option.isSome_iff_exists.mp (h p hp)
  cases htext : root.textAt? p <;> simp [hlanguage, htext, Option.guard]

theorem map_path_kept (sources : List SourceFile) :
    (c.kept sources).map (·.path) = (sources.map (·.path)).filter fun p => !c.excludes p := by
  rw [Config.kept, List.filter_map]
  rfl

/-! ## 3. What occurs in a model -/

namespace ArchitectureModel

/-- How an analysis went does not matter for what occurs in its model. -/
theorem Occurs.of_stats {m : ArchitectureModel} {stats : RunStats}
    (h : { m with stats }.Occurs p) : m.Occurs p := by
  cases h with
  | file h => exact .file h
  | source h => exact .source h
  | target h => exact .target h
  | entryPoint h => exact .entryPoint h
  | cycle h hp => exact .cycle h hp
  | entity h => exact .entity h
  | layer h => exact .layer h
  | violationSource h => exact .violationSource h
  | violationTarget h => exact .violationTarget h
  | service h hp => exact .service h hp

end ArchitectureModel

section Sources

variable {sources : List SourceFile}

/-- Whatever occurs in the model of sources is the path of one of its files. -/
theorem mem_files_of_occurs {m : ArchitectureModel}
    (hm : m = .outcome parsers c layout sources) (h : m.Occurs p) : p ∈ m.files.map (·.path) := by
  have hintegrity : Integrity parsers c sources m := hm ▸ integrity_outcome parsers c layout sources
  cases h with
  | file hf => exact List.mem_map_of_mem hf
  | source hd => exact (hintegrity.dependencies _ hd).1
  | target hd => exact (hintegrity.dependencies _ hd).2
  | entryPoint hp =>
    rw [hintegrity.entryPoints] at hp
    exact (List.mem_filter.mp hp).1
  | cycle hc hp => exact hintegrity.cycles _ hc _ hp
  | entity he => exact hintegrity.entities _ he
  | layer hlayer =>
    rw [← hintegrity.layers]
    exact List.mem_map_of_mem hlayer
  | violationSource hviolation =>
    obtain ⟨⟨d, hd, hs, -⟩, -⟩ := hintegrity.violations _ hviolation
    exact hs ▸ (hintegrity.dependencies d hd).1
  | violationTarget hviolation =>
    obtain ⟨⟨d, hd, -, ht⟩, -⟩ := hintegrity.violations _ hviolation
    exact ht ▸ (hintegrity.dependencies d hd).2
  | service hs hp =>
    subst hm
    exact (List.mem_filter.mp ((Services.files_perm hs).mem_iff.mp hp)).1

/-- **Nothing that is excluded occurs in the model of sources.** -/
theorem not_excludes_of_occurs
    (h : (ArchitectureModel.outcome parsers c layout sources).Occurs p) :
    c.excludes p = false := by
  have hp := mem_files_of_occurs rfl h
  rw [(integrity_outcome parsers c layout sources).files] at hp
  obtain ⟨s, hs, rfl⟩ := List.mem_map.mp hp
  have hkept := (Bool.and_eq_true_iff.mp (List.mem_filter.mp hs).2).1
  simpa using hkept

/-- **Nothing that is excluded fails among sources.** -/
theorem not_excludes_of_mem_failedFiles
    (h : p ∈ (ArchitectureModel.outcome parsers c layout sources).stats.failedFiles) :
    c.excludes p = false := by
  rw [(integrity_outcome parsers c layout sources).failedFiles] at h
  obtain ⟨s, hs, rfl⟩ := List.mem_map.mp h
  have hkept := (Bool.and_eq_true_iff.mp (List.mem_filter.mp hs).2).1
  simpa using hkept

end Sources

/-! ## 4. The model of a directory -/

/-- The model of what a directory holds, if all languages are at hand. -/
def ArchitectureModel.ofDirectory (parsers : Parsers) (c : Config) (rootName : String)
    (root : FileTree) : ArchitectureModel :=
  let layout := Layout.scan rootName root.entries
  let (sources, unreadable) := readSources root layout
  let model := outcome parsers c layout sources
  { model with
    stats := { model.stats with
      attempted := model.stats.attempted + unreadable.length
      failed := model.stats.failed + unreadable.length
      failedFiles := model.stats.failedFiles ++ unreadable } }

/-- **A directory is analyzed if the settings are valid** and all languages are at hand. -/
theorem analyzeDirectory_eq_ok (hv : c.validate = .ok ())
    (hl : ∀ l : Language, parsers.supports l) :
    analyzeDirectory parsers c rootName (some root) =
      .ok (.ofDirectory parsers c rootName root) := by
  have hok : analyzeSources parsers c (Layout.scan rootName root.entries)
      (readSources root (Layout.scan rootName root.entries)).1 = .ok _ :=
    analyzeSources_eq_ok_iff.mpr ⟨hv, fun s _ => hl s.language, rfl⟩
  simp only [analyzeDirectory, hok]
  rfl

/-- The counts of the model of a directory fit its files. -/
theorem counts_ofDirectory (parsers : Parsers) (c : Config) (rootName : String)
    (root : FileTree) :
    let m := ArchitectureModel.ofDirectory parsers c rootName root
    m.stats.attempted = m.stats.analyzed + m.stats.failed ∧
      m.stats.analyzed = m.files.length ∧ m.stats.failed = m.stats.failedFiles.length := by
  have hintegrity := integrity_outcome parsers c (Layout.scan rootName root.entries)
    (readSources root (Layout.scan rootName root.entries)).1
  refine ⟨?_, hintegrity.analyzed, ?_⟩
  · exact (congrArg (· + _) hintegrity.attempted).trans (Nat.add_assoc _ _ _)
  · exact (congrArg (· + _) hintegrity.failed).trans List.length_append.symm

/-- Sources fail that cannot be parsed, and source files that cannot be read, excluded or not. -/
theorem failedFiles_ofDirectory :
    (ArchitectureModel.ofDirectory parsers c rootName root).stats.failedFiles =
      (ArchitectureModel.outcome parsers c (Layout.scan rootName root.entries)
          (readSources root (Layout.scan rootName root.entries)).1).stats.failedFiles ++
        (Layout.scan rootName root.entries).sourceFiles.filter fun p =>
          (root.textAt? p).isNone := rfl

/-- Of some items, those that pass the first test and not the second, and those that fail the first,
are as many as those that fail the second, and those that pass it and fail the first. -/
theorem countP_filter_add_countP {α : Type} (items : List α) (readable excluded : α → Bool) :
    (items.filter readable).countP (fun x => !excluded x) + items.countP (fun x => !readable x) =
      items.countP (fun x => !excluded x) + items.countP fun x => excluded x && !readable x := by
  induction items with
  | nil => rfl
  | cons x items ih =>
    cases hr : readable x <;> cases he : excluded x <;> simp [hr, he] <;> omega

/-- What is attempted are the source files that are not excluded, and the excluded ones that cannot
be read. -/
theorem attempted_ofDirectory :
    (ArchitectureModel.ofDirectory parsers c rootName root).stats.attempted =
      (Layout.scan rootName root.entries).sourceFiles.countP (fun p => !c.excludes p) +
        (Layout.scan rootName root.entries).sourceFiles.countP
          fun p => c.excludes p && !(root.textAt? p).isSome := by
  have hsources : (readSources root (Layout.scan rootName root.entries)).1.map (·.path) =
      (Layout.scan rootName root.entries).sourceFiles.filter fun p => (root.textAt? p).isSome :=
    map_path_readSources fun _ hp => isSome_ofPath?_of_mem_sourceFiles hp
  have hkept := congrArg List.length
    (map_path_kept (c := c) (readSources root (Layout.scan rootName root.entries)).1)
  rw [List.length_map, ← List.countP_eq_length_filter, hsources] at hkept
  rw [← countP_filter_add_countP, ← hkept]
  -- sources are counted after they are filtered, files that cannot be read as they are
  show (c.kept (readSources root (Layout.scan rootName root.entries)).1).length +
    (List.filter (fun p => (root.textAt? p).isNone) _).length = _
  rw [← List.countP_eq_length_filter]
  simp only [Option.not_isSome]

/-- **Exclusion is complete if and only if all excluded source files can be read.**  A directory is
analyzed whenever the settings are valid, and nothing that is excluded occurs in what is found; but
an excluded file that cannot be read is attempted and fails. -/
theorem analyzeDirectory_excludesAll_iff (parsers : Parsers) (c : Config)
    (rootName : String) (root : FileTree) (hv : c.validate = .ok ())
    (hl : ∀ l : Language, parsers.supports l) :
    ∃ m, analyzeDirectory parsers c rootName (some root) = .ok m ∧
      (∀ p, m.Occurs p → c.excludes p = false) ∧
      (ExcludesAll c (Layout.scan rootName root.entries).sourceFiles m ↔
        ∀ p ∈ (Layout.scan rootName root.entries).sourceFiles,
          c.excludes p → (root.textAt? p).isSome) := by
  have hoccurs : ∀ p, (ArchitectureModel.ofDirectory parsers c rootName root).Occurs p →
      c.excludes p = false := fun p hp => not_excludes_of_occurs hp.of_stats
  refine ⟨_, analyzeDirectory_eq_ok hv hl, hoccurs, fun h p hp hexcluded => ?_, fun h => ?_⟩
  · -- an excluded file that fails is among the failed ones
    by_contra hunreadable
    have hfailed := h.failed p
      (List.mem_append_right _ (List.mem_filter.mpr ⟨hp, by simpa using hunreadable⟩))
    exact Bool.false_ne_true (hfailed.symm.trans hexcluded)
  · refine ⟨hoccurs, fun p hp => ?_, ?_⟩
    · rw [failedFiles_ofDirectory] at hp
      rcases List.mem_append.mp hp with hp | hp
      · exact not_excludes_of_mem_failedFiles hp
      obtain ⟨hp, hunreadable⟩ := List.mem_filter.mp hp
      by_contra hexcluded
      have hreadable := h p hp (by simpa using hexcluded)
      rw [Option.isNone_iff_eq_none.mp hunreadable] at hreadable
      exact Bool.false_ne_true hreadable
    · rw [attempted_ofDirectory, Nat.add_eq_left, List.countP_eq_zero]
      intro p hp hboth
      obtain ⟨hexcluded, hunreadable⟩ := Bool.and_eq_true_iff.mp hboth
      rw [h p hp hexcluded] at hunreadable
      exact Bool.false_ne_true hunreadable

/-! ## 5. Fixtures that are excluded -/

/-- A directory with a file that cannot be read and a fixture, which may have no text either. -/
def withFixture (text : Option String) : FileTree :=
  .directory [("fixtures", .directory [("user.ts", .file text)]), ("user.ts", .file none)]

theorem sourceFiles_withFixture (text : Option String) :
    (Layout.scan "repo" (withFixture text).entries).sourceFiles =
      ["fixtures/user.ts", "user.ts"] := by
  have hfound : (FileTree.foundIn "" (withFixture text).entries).filterMap Found.source? =
      ["fixtures/user.ts", "user.ts"] := by
    rfl
  show List.mergeSort _ _ = _
  rw [hfound]
  exact List.mergeSort_of_pairwise (by decide)

/-- Where the fixture can be read exclusion is complete, though another file cannot. -/
theorem analyzeDirectory_excludesAll_readable :
    withoutFixtures.validate = .ok () ∧
      ∃ m, analyzeDirectory Language.all withoutFixtures "repo"
          (some (withFixture (some "export class User {}"))) = .ok m ∧
        ExcludesAll withoutFixtures ["fixtures/user.ts", "user.ts"] m := by
  have hreadable : ∀ p ∈ ["fixtures/user.ts", "user.ts"], withoutFixtures.excludes p →
      ((withFixture (some "export class User {}")).textAt? p).isSome := by
    decide +kernel
  obtain ⟨m, hm, -, hiff⟩ := analyzeDirectory_excludesAll_iff Language.all withoutFixtures "repo"
    (withFixture (some "export class User {}")) validate_withoutFixtures Language.supports_all
  rw [sourceFiles_withFixture] at hiff
  exact ⟨validate_withoutFixtures, m, hm, hiff.mpr hreadable⟩

/-- Where the fixture cannot be read it fails, and it is counted. -/
theorem not_excludesAll_unreadable :
    withoutFixtures.validate = .ok () ∧ withoutFixtures.excludes "fixtures/user.ts" = true ∧
      ∃ m, analyzeDirectory Language.all withoutFixtures "repo" (some (withFixture none)) = .ok m ∧
        m.stats.failedFiles = ["fixtures/user.ts", "user.ts"] ∧ m.stats.attempted = 2 ∧
        ¬ ExcludesAll withoutFixtures ["fixtures/user.ts", "user.ts"] m := by
  have hexcluded : withoutFixtures.excludes "fixtures/user.ts" = true := by decide +kernel
  have hnone : (readSources (withFixture none)
      (Layout.scan "repo" (withFixture none).entries)).1 = [] := by
    rw [← List.map_eq_nil_iff (f := (·.path)),
      map_path_readSources fun _ hp => isSome_ofPath?_of_mem_sourceFiles hp,
      sourceFiles_withFixture]
    decide +kernel
  have hfailed : (ArchitectureModel.ofDirectory Language.all withoutFixtures "repo"
      (withFixture none)).stats.failedFiles = ["fixtures/user.ts", "user.ts"] := by
    rw [failedFiles_ofDirectory, hnone, sourceFiles_withFixture]
    decide +kernel
  have hattempted : (ArchitectureModel.ofDirectory Language.all withoutFixtures "repo"
      (withFixture none)).stats.attempted = 2 := by
    rw [attempted_ofDirectory, sourceFiles_withFixture]
    decide +kernel
  refine ⟨validate_withoutFixtures, hexcluded, _,
    analyzeDirectory_eq_ok validate_withoutFixtures Language.supports_all, hfailed, hattempted,
    fun h => ?_⟩
  have hkept := h.failed "fixtures/user.ts" (hfailed ▸ List.mem_cons_self)
  exact Bool.false_ne_true (hkept.symm.trans hexcluded)

end Codemap
