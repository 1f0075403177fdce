/-
# A model speaks of its files only

The stages of an analysis hand paths on to each other as text: the graph of imports works on normal
forms and spells paths as they are given in the end, services list the files that their roots own,
and the service of an entity is looked up by the path of its file.  What a model says in one place
fits what it says in the others (`Integrity`): each stage takes its paths from the files, and those
that meet at a path mean the same by it.

Main statement: `analyzeSources_integrity`.
-/
import Codemap.Proofs.Imports.Cycles
import Codemap.Proofs.Imports.Edges
import Codemap.Proofs.Pipeline.Run
import Codemap.Proofs.Services.Owner

namespace Codemap

/-! ## 1. What is promised -/

/-- How the parts of a model fit together, and the sources that it was made from. -/
structure Integrity (parsers : Parsers) (c : Config) (sources : List SourceFile)
    (m : ArchitectureModel) : Prop where
  /-- There is one file for each source that is not excluded and can be parsed, in the same
  order. -/
  files : m.files.map (·.path) =
    (sources.filter fun s => !c.excludes s.path && s.parses parsers).map (·.path)
  /-- If all of them can be parsed, there is one for each source that is not excluded. -/
  files_of_parses : (∀ s ∈ sources, c.excludes s.path = false → s.parses parsers) →
    m.files.map (·.path) = (sources.filter fun s => !c.excludes s.path).map (·.path) ∧
      m.stats.failedFiles = []
  /-- There is one layer for each file, in the same order. -/
  layers : m.layers.map (·.file) = m.files.map (·.path)
  dependencies : ∀ d ∈ m.dependencies,
    d.source ∈ m.files.map (·.path) ∧ d.target ∈ m.files.map (·.path)
  cycles : ∀ cycle ∈ m.cycles, ∀ p ∈ cycle, p ∈ m.files.map (·.path)
  entryPoints : m.entryPoints =
    (m.files.map (·.path)).filter fun p => ∀ d ∈ m.dependencies, d.target ≠ p
  /-- Violations are edges, with the layers that are listed last for their ends. -/
  violations : ∀ v ∈ m.violations,
    (∃ d ∈ m.dependencies, d.source = v.source ∧ d.target = v.target) ∧
      Layers.IsLastLayer m.layers v.source v.sourceLayer ∧
      Layers.IsLastLayer m.layers v.target v.targetLayer
  entities : ∀ e ∈ m.entities, e.file ∈ m.files.map (·.path)
  /-- At most one service lists the file of an entity. -/
  eq_of_lists : ∀ e ∈ m.entities, ∀ s ∈ m.services, ∀ t ∈ m.services,
    e.file ∈ s.files → e.file ∈ t.files → s = t
  /-- An entity has the name of the service that lists its file. -/
  service_eq_some : ∀ e ∈ m.entities, ∀ s ∈ m.services, e.file ∈ s.files → e.service = some s.name
  /-- It has none only if no service lists its file. -/
  service_eq_none : ∀ e ∈ m.entities,
    e.service = none ↔ ∀ s ∈ m.services, e.file ∉ s.files
  attempted : m.stats.attempted = m.stats.analyzed + m.stats.failed
  analyzed : m.stats.analyzed = m.files.length
  failed : m.stats.failed = m.stats.failedFiles.length
  /-- The failed files are the sources that are not excluded and cannot be parsed. -/
  failedFiles : m.stats.failedFiles =
    (sources.filter fun s => !c.excludes s.path && !s.parses parsers).map (·.path)
  /-- The number of failed files is the one that is reported. -/
  reported : m.stats.toData.member? "failed" = some (Json.ofNat m.stats.failed)

/-! ## 2. Stages -/

variable {parsers : Parsers} {files : List FileFacts} {c : Config} {layout : Layout}
  {sources : List SourceFile} {e : Entity} {s : Service}

/-- The files on circles of imports are among the files. -/
theorem mem_files_of_mem_cycles {cycle : List String} {p : String}
    (hc : cycle ∈ (ImportGraph.ofDependencies (Imports.dependencies files)).cycles)
    (hp : p ∈ cycle) : p ∈ files.map (·.path) := by
  obtain ⟨q, hpq, -⟩ := Relation.TransGen.head'_iff.mp
    (Imports.exists_mem_cycles_iff.mp ⟨cycle, hc, hp⟩)
  obtain ⟨d, hd, rfl, -⟩ := hpq
  exact Imports.source_mem_files hd

/-- The entities of files are of these files. -/
theorem file_mem_of_mem_entitiesAmong {d : EntityDetector} {texts : List (String × String)}
    (h : e ∈ d.entitiesAmong parsers files texts) : e.file ∈ files.map (·.path) := by
  rw [EntityDetector.entitiesAmong_eq, List.mem_mergeSort, List.mem_flatMap] at h
  obtain ⟨f, hf, he⟩ := h
  rw [EntityDetector.file_of_mem_entitiesIn he]
  exact List.mem_map_of_mem hf

/-- A service lists a file if and only if the file's path is looked up to be of that service. -/
theorem mem_files_iff_serviceOf? {p : String} (hp : p ∈ files.map (·.path))
    (hs : s ∈ Services.detect layout files) :
    p ∈ s.files ↔ serviceOf? (Services.detect layout files) p = some s := by
  obtain ⟨f, hf, rfl⟩ := List.mem_map.mp hp
  exact Services.path_mem_files_iff hs hf

/-- A path is of no service if and only if no service lists it. -/
theorem serviceOf?_eq_none_iff_not_listed {p : String} (hp : p ∈ files.map (·.path)) :
    serviceOf? (Services.detect layout files) p = none ↔
      ∀ s ∈ Services.detect layout files, p ∉ s.files := by
  constructor
  · intro hnone s hs hlisted
    rw [mem_files_iff_serviceOf? hp hs, hnone] at hlisted
    exact Option.some_ne_none s hlisted.symm
  · intro hnone
    cases howner : serviceOf? (Services.detect layout files) p with
    | none => rfl
    | some s =>
      have hs := ((serviceOf?_eq_some_iff fun _ ht _ hu =>
        Services.eq_of_root_eq ht hu).mp howner).1
      exact absurd ((mem_files_iff_serviceOf? hp hs).mpr howner) (hnone s hs)

/-! ## 3. Models -/

/-- What is not excluded is analyzed or fails. -/
theorem filter_kept (test : SourceFile → Bool) : (c.kept sources).filter test =
    sources.filter fun s => !c.excludes s.path && test s := by
  rw [Config.kept, List.filter_filter]
  simp only [Bool.and_comm]

/-- The parts of a model of sources fit together. -/
theorem integrity_outcome (parsers : Parsers) (c : Config) (layout : Layout)
    (sources : List SourceFile) :
    Integrity parsers c sources (.outcome parsers c layout sources) := by
  set m : ArchitectureModel := .outcome parsers c layout sources with hm
  set files := (AnalysisRun.outcome parsers (c.kept sources)).files with hfiles
  have hpaths : files.map (·.path) =
      ((c.kept sources).filter (SourceFile.parses parsers)).map (·.path) :=
    SourceFile.map_path_filterMap_facts? parsers (c.kept sources)
  have hfailed : m.stats.failedFiles =
      ((c.kept sources).filter fun s => !s.parses parsers).map (·.path) := rfl
  have hentity : ∀ e ∈ m.entities, e.file ∈ files.map (·.path) ∧
      e.service = (serviceOf? (Services.detect layout files) e.file).map (·.name) := by
    intro e he
    obtain ⟨bare, hbare, rfl⟩ := List.mem_map.mp he
    have hfile : bare.file ∈ files.map (·.path) := file_mem_of_mem_entitiesAmong hbare
    exact ⟨hfile, rfl⟩
  constructor
  case files => exact hpaths.trans (by rw [filter_kept])
  case files_of_parses =>
    intro hall
    have hkept : ∀ s ∈ c.kept sources, s.parses parsers := fun s hs => by
      obtain ⟨hs, hexcluded⟩ := List.mem_filter.mp hs
      exact hall s hs (by simpa using hexcluded)
    refine ⟨hpaths.trans ?_, hfailed.trans ?_⟩
    · rw [List.filter_eq_self.mpr hkept, Config.kept]
    · rw [List.filter_eq_nil_iff.mpr fun s hs => by simp [hkept s hs], List.map_nil]
  case layers =>
    show (files.map c.layerNames.classify).map (·.file) = files.map (·.path)
    rw [List.map_map]
    exact List.map_congr_left fun f _ => file_classify c.layerNames f
  case dependencies =>
    exact fun d hd => ⟨Imports.source_mem_files hd, Imports.target_mem_files hd⟩
  case cycles => exact fun cycle hc p hp => mem_files_of_mem_cycles hc hp
  case entryPoints =>
    refine List.filter_congr fun p _ => ?_
    rw [Bool.eq_iff_iff, decide_eq_true_iff, Bool.not_eq_true', List.any_eq_false]
    simp only [beq_iff_eq]
    rfl
  case violations =>
    intro v hv
    obtain ⟨hedge, hsource, htarget, -⟩ := Layers.mem_violations_iff.mp hv
    exact ⟨hedge, hsource, htarget⟩
  case entities => exact fun e he => (hentity e he).1
  case eq_of_lists =>
    intro e he s hs t ht hes het
    rw [mem_files_iff_serviceOf? (hentity e he).1 hs] at hes
    rw [mem_files_iff_serviceOf? (hentity e he).1 ht, hes] at het
    exact Option.some.inj het
  case service_eq_some =>
    intro e he s hs hes
    obtain ⟨hfile, hservice⟩ := hentity e he
    rw [hservice, (mem_files_iff_serviceOf? hfile hs).mp hes, Option.map_some]
  case service_eq_none =>
    intro e he
    obtain ⟨hfile, hservice⟩ := hentity e he
    rw [hservice, Option.map_eq_none_iff, serviceOf?_eq_none_iff_not_listed hfile]
    rfl
  case attempted =>
    -- each source that is kept can be parsed or not
    have hlength := (c.kept sources).length_eq_countP_add_countP (SourceFile.parses parsers)
    have hanalyzed := congrArg List.length hpaths
    rw [List.length_map, List.length_map, ← List.countP_eq_length_filter] at hanalyzed
    show (c.kept sources).length = files.length + m.stats.failedFiles.length
    rw [hanalyzed, hfailed, List.length_map, ← List.countP_eq_length_filter, hlength]
    simp
  case analyzed => rfl
  case failed => rfl
  case failedFiles => exact hfailed.trans (by rw [filter_kept])
  case reported => rfl

/-- **What a model says in one place fits what it says in the others**, for all parsers, settings,
layouts and sources: paths are those of the sources that are kept and can be parsed, layers,
services and counts those of the files. -/
theorem analyzeSources_integrity (parsers : Parsers) (c : Config) (layout : Layout)
    (sources : List SourceFile) (m : ArchitectureModel)
    (hm : analyzeSources parsers c layout sources = .ok m) :
    Integrity parsers c sources m := by
  obtain ⟨-, -, rfl⟩ := analyzeSources_eq_ok_iff.mp hm
  exact integrity_outcome parsers c layout sources

/-- Settings that exclude fixtures. -/
def withoutFixtures : Config := { Config.default with excluded := ["fixtures/**"] }

theorem validate_withoutFixtures : withoutFixtures.validate = .ok () := by
  have hflaw : withoutFixtures.flaw? = none := by decide +kernel
  rw [Config.validate, hflaw]

/-- A source that is excluded and one that is not. -/
theorem analyzeSources_integrity_excluding :
    let kept : SourceFile := ⟨"src/user.ts", .typescript, "export class User {}"⟩
    let left : SourceFile := ⟨"fixtures/user.ts", .typescript, "export class User {}"⟩
    let model : ArchitectureModel :=
      .outcome Language.all withoutFixtures (.empty "repo") [left, kept]
    analyzeSources Language.all withoutFixtures (.empty "repo") [left, kept] = .ok model ∧
      Integrity Language.all withoutFixtures [left, kept] model ∧
      model.files.map (·.path) = ["src/user.ts"] := by
  intro kept left model
  have hm : analyzeSources Language.all withoutFixtures (.empty "repo") [left, kept] = .ok model :=
    analyzeSources_eq_ok_iff.mpr
      ⟨validate_withoutFixtures, fun s _ => Language.supports_all s.language, rfl⟩
  have hintegrity :=
    analyzeSources_integrity Language.all withoutFixtures (.empty "repo") _ model hm
  refine ⟨hm, hintegrity, hintegrity.files.trans ?_⟩
  decide +kernel

end Codemap
