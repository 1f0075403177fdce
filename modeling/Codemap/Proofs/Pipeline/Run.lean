/-
# The model of a repository does not depend on the order of its sources

An analysis succeeds if the settings are valid and every source that is not excluded is in a
language at hand.  Sources that cannot be parsed are passed over, and what is found is then a
function of the facts about the others (`analyzeSources_eq_ok_iff`).  Every stage forgets the order
of the files: edges, entities, services and violations by the lemmas on each of them, cycles because
they are computed from the edges.  Only lists that have one item for each file show the order, and
they show nothing else.

Main statement: `analyzeSources_reordered`.  It holds for all parsers, those that give up on some
texts included.
-/
import Codemap.Pipeline.Run
import Codemap.Proofs.Entities.Detector
import Codemap.Proofs.Imports.Graph
import Codemap.Proofs.Layers.Violations
import Codemap.Proofs.Services.Detect

namespace Codemap

variable {parsers : Parsers} {c : Config} {layout : Layout} {f : SourceFile}
  {sources sources' : List SourceFile}

/-! ## 1. Files that can be parsed -/

namespace SourceFile

/-- A source file can be parsed. -/
def parses (parsers : Parsers) (f : SourceFile) : Bool :=
  (parsers.tree? f.language f.path f.text).isSome

/-- All facts about a source file, if it can be parsed. -/
def facts? (parsers : Parsers) (f : SourceFile) : Option FileFacts :=
  (parsers.tree? f.language f.path f.text).map fun tree =>
    FileFacts.ofTree ⟨f.path, f.language, tree⟩

@[simp] theorem isSome_facts? (parsers : Parsers) (f : SourceFile) :
    (f.facts? parsers).isSome = f.parses parsers := Option.isSome_map

theorem path_of_facts?_eq_some {x : FileFacts} (h : f.facts? parsers = some x) :
    x.path = f.path := by
  obtain ⟨tree, -, rfl⟩ := Option.map_eq_some_iff.mp h
  rfl

/-- A file in a language at hand is analyzed if it can be parsed. -/
theorem analyze_of_facts?_eq_some {x : FileFacts} (hl : parsers.supports f.language)
    (h : f.facts? parsers = some x) : f.analyze parsers = .ok x := by
  obtain ⟨tree, htree, rfl⟩ := Option.map_eq_some_iff.mp h
  rw [analyze, parse, Parsers.parse_of_tree?_eq_some hl htree]
  rfl

/-- If it cannot be parsed, that is an error of the file. -/
theorem analyze_of_facts?_eq_none (hl : parsers.supports f.language)
    (h : f.facts? parsers = none) :
    f.analyze parsers = .error (.unparsed f.language f.path Parsers.noTree) := by
  rw [analyze, parse, Parsers.parse_of_tree?_eq_none hl (Option.map_eq_none_iff.mp h)]
  rfl

theorem analyze_of_not_supports (hl : ¬ parsers.supports f.language) :
    f.analyze parsers = .error (.unsupportedLanguage f.language.name) := by
  rw [analyze, parse, Parsers.parse_of_not_supports hl]
  rfl

/-- Facts are about the files that can be parsed. -/
theorem map_path_filterMap_facts? (parsers : Parsers) (sources : List SourceFile) :
    (sources.filterMap (facts? parsers)).map (·.path) =
      (sources.filter (parses parsers)).map (·.path) := by
  induction sources with
  | nil => rfl
  | cons s sources ih =>
    have hs := isSome_facts? parsers s
    cases hfacts : s.facts? parsers with
    | none =>
      rw [hfacts, Option.isSome_none] at hs
      rw [List.filterMap_cons_none hfacts, List.filter_cons_of_neg (by simp [← hs]), ih]
    | some x =>
      rw [hfacts, Option.isSome_some] at hs
      rw [List.filterMap_cons_some hfacts, List.filter_cons_of_pos hs.symm, List.map_cons,
        List.map_cons, ih, path_of_facts?_eq_some hfacts]

end SourceFile

/-! ## 2. When an analysis succeeds -/

namespace AnalysisRun

/-- A run with what comes of more files in languages at hand. -/
def extended (run : AnalysisRun) (parsers : Parsers) (sources : List SourceFile) : AnalysisRun where
  files := run.files ++ sources.filterMap (SourceFile.facts? parsers)
  attempted := run.attempted
  failed := run.failed ++ (sources.filter fun s => !s.parses parsers).map (·.path)

/-- What comes of the analysis of files in languages at hand. -/
def outcome (parsers : Parsers) (sources : List SourceFile) : AnalysisRun where
  files := sources.filterMap (SourceFile.facts? parsers)
  attempted := sources.length
  failed := (sources.filter fun s => !s.parses parsers).map (·.path)

variable {run run' : AnalysisRun}

theorem extended_nil : run.extended parsers [] = run := by
  simp [extended]

theorem extended_append : run.extended parsers (sources ++ sources') =
    (run.extended parsers sources).extended parsers sources' := by
  simp only [extended, List.filterMap_append, List.filter_append, List.map_append,
    List.append_assoc]

/-- A file in a language at hand is noted, whether it can be parsed or not. -/
theorem add_analyze (hl : parsers.supports f.language) :
    run.add f.path (f.analyze parsers) = .ok (run.extended parsers [f]) := by
  have hparses := f.isSome_facts? parsers
  cases hfacts : f.facts? parsers with
  | some x =>
    rw [hfacts, Option.isSome_some] at hparses
    rw [SourceFile.analyze_of_facts?_eq_some hl hfacts]
    simp [add, extended, hfacts, ← hparses]
  | none =>
    rw [hfacts, Option.isSome_none] at hparses
    rw [SourceFile.analyze_of_facts?_eq_none hl hfacts]
    simp [add, AnalysisError.isRecoverable, extended, hfacts, ← hparses]

/-- A file in another language ends the run. -/
theorem add_analyze_of_not_supports (hl : ¬ parsers.supports f.language) :
    run.add f.path (f.analyze parsers) = .error (.unsupportedLanguage f.language.name) := by
  rw [SourceFile.analyze_of_not_supports hl]
  rfl

theorem foldlM_add_eq_ok_iff :
    sources.foldlM (fun run f => run.add f.path (f.analyze parsers)) run = .ok run' ↔
      (∀ s ∈ sources, parsers.supports s.language) ∧ run' = run.extended parsers sources := by
  induction sources generalizing run with
  | nil =>
    rw [List.foldlM_nil, extended_nil]
    exact ⟨fun h => ⟨fun s hs => absurd hs List.not_mem_nil, (Except.ok.inj h).symm⟩,
      fun h => congrArg Except.ok h.2.symm⟩
  | cons s sources ih =>
    rw [List.foldlM_cons, List.forall_mem_cons, ← List.singleton_append, extended_append]
    by_cases hl : parsers.supports s.language
    · rw [add_analyze hl]
      exact ih.trans ⟨fun h => ⟨⟨hl, h.1⟩, h.2⟩, fun h => ⟨h.1.2, h.2⟩⟩
    · rw [add_analyze_of_not_supports hl]
      exact iff_of_false (fun h => nomatch h) fun h => hl h.1.1

/-- **When files are analyzed, and what comes of it.** -/
theorem ofSources_eq_ok_iff : ofSources parsers sources = .ok run ↔
    (∀ s ∈ sources, parsers.supports s.language) ∧ run = outcome parsers sources :=
  foldlM_add_eq_ok_iff

end AnalysisRun

/-- The sources that are not excluded. -/
def Config.kept (c : Config) (sources : List SourceFile) : List SourceFile :=
  sources.filter fun s => !c.excludes s.path

/-- What is found out about sources in languages at hand. -/
def ArchitectureModel.outcome (parsers : Parsers) (c : Config) (layout : Layout)
    (sources : List SourceFile) : ArchitectureModel :=
  .ofRun parsers c layout (c.kept sources) (.outcome parsers (c.kept sources))

/-- **When an analysis succeeds, and what it finds.** -/
theorem analyzeSources_eq_ok_iff {m : ArchitectureModel} :
    analyzeSources parsers c layout sources = .ok m ↔
      c.validate = .ok () ∧ (∀ s ∈ c.kept sources, parsers.supports s.language) ∧
        m = .outcome parsers c layout sources := by
  rw [analyzeSources]
  cases hv : c.validate with
  | error e => exact iff_of_false (fun h => nomatch h) fun h => nomatch h.1
  | ok _ =>
    show (AnalysisRun.ofSources parsers (c.kept sources) >>= fun run =>
      pure (ArchitectureModel.ofRun parsers c layout (c.kept sources) run)) = _ ↔ _
    cases ha : AnalysisRun.ofSources parsers (c.kept sources) with
    | error e =>
      refine iff_of_false (fun h => nomatch h) fun h => ?_
      rw [AnalysisRun.ofSources_eq_ok_iff.mpr ⟨h.2.1, rfl⟩] at ha
      exact nomatch ha
    | ok run =>
      obtain ⟨hlang, rfl⟩ := AnalysisRun.ofSources_eq_ok_iff.mp ha
      show Except.ok _ = Except.ok m ↔ _
      rw [Except.ok.injEq]
      exact ⟨fun h => ⟨rfl, hlang, h.symm⟩, fun h => h.2.2.symm⟩

/-! ## 3. Limits of time -/

/-- The parsers that settings ask for give up on the texts that take longer than is set. -/
theorem parses_parsers (c : Config) (duration : Language → String → Nat) (f : SourceFile) :
    f.parses (c.parsers duration) =
      (c.timeout == 0 || decide (duration f.language f.text ≤ c.timeout)) := by
  rw [SourceFile.parses, Config.parsers, Config.limit?]
  by_cases htimeout : c.timeout = 0
  · simp [htimeout, Parsers.builtIn]
  · by_cases hduration : duration f.language f.text ≤ c.timeout <;>
      simp [htimeout, hduration, Parsers.withLimit, Parsers.builtIn]

theorem Language.supports_all (l : Language) : Parsers.supports Language.all l := by
  cases l <;> decide

/-- All languages are at hand with the parsers that settings ask for. -/
theorem supports_parsers (c : Config) (duration : Language → String → Nat) (l : Language) :
    (c.parsers duration).supports l := by
  rw [Config.parsers]
  split <;> exact Language.supports_all l

/-- **With the parsers that valid settings ask for, an analysis succeeds**, and what fails are the
sources that take longer than is set. -/
theorem analyzeSources_parsers (c : Config) (duration : Language → String → Nat)
    (layout : Layout) (sources : List SourceFile) (hv : c.validate = .ok ()) :
    ∃ m, analyzeSources (c.parsers duration) c layout sources = .ok m ∧
      m.stats.failedFiles = ((c.kept sources).filter fun s =>
        c.timeout != 0 && decide (c.timeout < duration s.language s.text)).map (·.path) := by
  refine ⟨_, analyzeSources_eq_ok_iff.mpr ⟨hv, fun s _ => supports_parsers c duration _, rfl⟩, ?_⟩
  show ((c.kept sources).filter fun s => !s.parses (c.parsers duration)).map (·.path) = _
  refine congrArg (List.map _) (List.filter_congr fun s _ => ?_)
  rw [parses_parsers, Bool.not_or, ← decide_not]
  simp only [Nat.not_le, bne]

/-! ## 4. Another order of the sources -/

/-- How the models of two lists of sources compare when the lists differ in their order only: what
is found is the same, and lists with one item for each file follow the sources. -/
structure Reordered (parsers : Parsers) (c : Config) (sources sources' : List SourceFile)
    (m m' : ArchitectureModel) : Prop where
  dependencies : m.dependencies = m'.dependencies
  cycles : m.cycles = m'.cycles
  /-- Entities come with their services. -/
  entities : m.entities = m'.entities
  services : m.services = m'.services
  violations : m.violations = m'.violations
  /-- Both list the facts about those of their sources that can be parsed, in the order of these. -/
  files : m.files = (c.kept sources).filterMap (SourceFile.facts? parsers) ∧
    m'.files = (c.kept sources').filterMap (SourceFile.facts? parsers)
  /-- Both list the paths of the others, in the order of these. -/
  failedFiles :
    m.stats.failedFiles =
        ((c.kept sources).filter fun s => !s.parses parsers).map (·.path) ∧
      m'.stats.failedFiles =
        ((c.kept sources').filter fun s => !s.parses parsers).map (·.path)
  attempted : m.stats.attempted = m'.stats.attempted
  analyzed : m.stats.analyzed = m'.stats.analyzed
  failed : m.stats.failed = m'.stats.failed
  withSyntaxErrors : m.stats.withSyntaxErrors = m'.stats.withSyntaxErrors
  /-- Both list the layers of their files, in the order of these. -/
  layers : ∃ layer : FileFacts → LayerAnalysis,
    m.layers = m.files.map layer ∧ m'.layers = m'.files.map layer
  /-- Both list those of their files that are entry points, in the order of these. -/
  entryPoints : ∃ isEntryPoint : String → Bool,
    m.entryPoints = (m.files.map (·.path)).filter isEntryPoint ∧
      m'.entryPoints = (m'.files.map (·.path)).filter isEntryPoint

section Reorder

theorem kept_perm (h : sources.Perm sources') : (c.kept sources).Perm (c.kept sources') :=
  h.filter _

theorem files_outcome_perm (parsers : Parsers) (h : sources.Perm sources') :
    (AnalysisRun.outcome parsers sources).files.Perm
      (AnalysisRun.outcome parsers sources').files :=
  h.filterMap _

theorem failed_outcome_perm (parsers : Parsers) (h : sources.Perm sources') :
    (AnalysisRun.outcome parsers sources).failed.Perm
      (AnalysisRun.outcome parsers sources').failed :=
  (h.filter _).map _

/-- The paths of what is kept are distinct, if the normal forms of those of the sources are. -/
theorem nodup_path_kept (hd : (sources.map fun s => Path.normalized s.path).Nodup) :
    ((c.kept sources).map (·.path)).Nodup := by
  have hkept : ((c.kept sources).map fun s => Path.normalized s.path).Nodup :=
    hd.sublist (List.filter_sublist.map _)
  rw [List.Nodup, List.pairwise_map] at hkept ⊢
  exact hkept.imp fun hne heq => hne (congrArg Path.normalized heq)

theorem nodup_path_files (parsers : Parsers) (c : Config)
    (hd : (sources.map fun s => Path.normalized s.path).Nodup) :
    ((AnalysisRun.outcome parsers (c.kept sources)).files.map (·.path)).Nodup := by
  rw [AnalysisRun.outcome, SourceFile.map_path_filterMap_facts?]
  exact (nodup_path_kept hd).sublist (List.filter_sublist.map _)

/-- The normal forms of the files are distinct, if those of the sources are. -/
theorem nodup_normalized_files (hd : (sources.map fun s => Path.normalized s.path).Nodup) :
    ((AnalysisRun.outcome parsers (c.kept sources)).files.map
      fun f => Path.normalized f.path).Nodup := by
  have hfiles : (AnalysisRun.outcome parsers (c.kept sources)).files.map
      (fun f => Path.normalized f.path) =
        ((c.kept sources).filter (SourceFile.parses parsers)).map
          fun s => Path.normalized s.path := by
    have hpaths := congrArg (List.map Path.normalized)
      (SourceFile.map_path_filterMap_facts? parsers (c.kept sources))
    rwa [List.map_map, List.map_map] at hpaths
  rw [hfiles]
  exact hd.sublist ((List.filter_sublist.trans List.filter_sublist).map _)

/-- The models of the same sources in two orders. -/
theorem reordered_outcome (layout : Layout) (hp : sources.Perm sources')
    (hd : (sources.map fun s => Path.normalized s.path).Nodup) :
    Reordered parsers c sources sources' (.outcome parsers c layout sources)
      (.outcome parsers c layout sources') := by
  have hkept : (c.kept sources).Perm (c.kept sources') := kept_perm hp
  have hfiles := files_outcome_perm parsers hkept
  have hpath := nodup_path_files parsers c hd
  have hdependencies := Imports.dependencies_eq_of_perm hfiles (nodup_normalized_files hd)
  have hservices := Services.detect_eq_of_perm (l := layout) hfiles
  have hentities : c.detector.entitiesAmong parsers
        (AnalysisRun.outcome parsers (c.kept sources)).files
        ((c.kept sources).map fun s => (s.path, s.text)) =
      c.detector.entitiesAmong parsers (AnalysisRun.outcome parsers (c.kept sources')).files
        ((c.kept sources').map fun s => (s.path, s.text)) := by
    refine EntityDetector.entitiesAmong_eq_of_perm hfiles hpath (hkept.map _) ?_
    rw [List.map_map]
    exact nodup_path_kept hd
  have hlayers := hfiles.map c.layerNames.classify
  have hlayersPath : (((AnalysisRun.outcome parsers (c.kept sources)).files.map
      c.layerNames.classify).map (·.file)).Nodup := by
    have hfile : (fun a : LayerAnalysis => a.file) ∘ c.layerNames.classify = (·.path) := by
      funext f
      exact file_classify c.layerNames f
    rw [List.map_map, hfile]
    exact hpath
  constructor
  case dependencies => exact hdependencies
  case cycles => exact congrArg (fun ds => (ImportGraph.ofDependencies ds).cycles) hdependencies
  case entities =>
    simp only [ArchitectureModel.outcome, ArchitectureModel.ofRun]
    rw [hentities, hservices]
  case services => exact hservices
  case violations =>
    simp only [ArchitectureModel.outcome, ArchitectureModel.ofRun]
    rw [Layers.violations_eq_of_perm hlayers hlayersPath, hdependencies]
  case files => exact ⟨rfl, rfl⟩
  case failedFiles => exact ⟨rfl, rfl⟩
  case attempted => exact hkept.length_eq
  case analyzed => exact hfiles.length_eq
  case failed => exact (failed_outcome_perm parsers hkept).length_eq
  case withSyntaxErrors => exact (hfiles.filter _).length_eq
  case layers => exact ⟨c.layerNames.classify, rfl, rfl⟩
  case entryPoints =>
    refine ⟨fun p => !(Imports.dependencies
      (AnalysisRun.outcome parsers (c.kept sources)).files).any fun d => d.target == p, rfl, ?_⟩
    rw [hdependencies]
    rfl

end Reorder

/-- **The model of a repository does not depend on the order of its sources.**  If the analysis of
sources with distinct normal forms succeeds, so does that of the same sources in any order, and it
finds the same. -/
theorem analyzeSources_reordered (parsers : Parsers) (c : Config) (layout : Layout)
    {sources sources' : List SourceFile} (hp : sources.Perm sources')
    (hd : (sources.map fun s => Path.normalized s.path).Nodup) {m : ArchitectureModel}
    (hm : analyzeSources parsers c layout sources = .ok m) :
    ∃ m', analyzeSources parsers c layout sources' = .ok m' ∧
      Reordered parsers c sources sources' m m' := by
  obtain ⟨hvalid, hlang, rfl⟩ := analyzeSources_eq_ok_iff.mp hm
  have hlang' : ∀ s ∈ c.kept sources', parsers.supports s.language := fun s hs =>
    hlang s ((kept_perm hp).mem_iff.mpr hs)
  exact ⟨_, analyzeSources_eq_ok_iff.mpr ⟨hvalid, hlang', rfl⟩, reordered_outcome layout hp hd⟩

/-- Settings under which no text may take longer than thirty milliseconds. -/
def impatient : Config := { Config.default with timeout := 30 }

/-- Two sources that can be parsed and one that takes too long, in one order and the other. -/
theorem analyzeSources_reordered_impatient :
    let parsers : Parsers := impatient.parsers fun _ text => text.length
    let first : SourceFile := ⟨"src/user.ts", .typescript, "import { id } from './id';"⟩
    let second : SourceFile := ⟨"src/./id.ts", .typescript, "export function id() {}"⟩
    let third : SourceFile := ⟨"src/sum.ts", .typescript, "export const sum = 1 + 2 + 3 + 4;"⟩
    let layout : Layout := .empty "repo"
    let model : ArchitectureModel := .outcome parsers impatient layout [first, second, third]
    ([first, second, third].Perm [third, second, first] ∧
      ([first, second, third].map fun s => Path.normalized s.path).Nodup ∧
      analyzeSources parsers impatient layout [first, second, third] = .ok model) ∧
      model.stats.failedFiles = ["src/sum.ts"] ∧
      ∃ m', analyzeSources parsers impatient layout [third, second, first] = .ok m' ∧
        Reordered parsers impatient [first, second, third] [third, second, first] model m' := by
  intro parsers first second third layout model
  have hp : [first, second, third].Perm [third, second, first] := (List.reverse_perm _).symm
  have hd : ([first, second, third].map fun s => Path.normalized s.path).Nodup := by decide
  have hlang : ∀ s ∈ impatient.kept [first, second, third], parsers.supports s.language :=
    fun s _ => supports_parsers impatient _ s.language
  have hflaw : impatient.flaw? = none := by decide
  have hvalid : impatient.validate = .ok () := by rw [Config.validate, hflaw]
  have hm : analyzeSources parsers impatient layout [first, second, third] = .ok model :=
    analyzeSources_eq_ok_iff.mpr ⟨hvalid, hlang, rfl⟩
  have hfailed : model.stats.failedFiles = ["src/sum.ts"] := by decide +kernel
  exact ⟨⟨hp, hd, hm⟩, hfailed, analyzeSources_reordered parsers impatient layout hp hd hm⟩

end Codemap
