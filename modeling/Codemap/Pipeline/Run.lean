/-
# Analyzing a repository

Files that the configuration excludes are left out at first; all else is found out about the files
that remain and can be parsed.
-/
import Codemap.Config.Read
import Codemap.Layout.Scan
import Codemap.Pipeline.Model
import Codemap.Pipeline.Sources
import Codemap.Services.Detect

namespace Codemap

/-! ## 1. Source files -/

/-- The detector of entities that the settings ask for. -/
def Config.detector (c : Config) : EntityDetector := ⟨c.mappingPackages, c.threshold⟩

/-- The entity with the name of the service that owns its file. -/
def Entity.assigned (services : List Service) (e : Entity) : Entity :=
  { e with service := (serviceOf? services e.file).map (·.name) }

/-- The model of source files, of which a run of the analysis tells the facts. -/
def ArchitectureModel.ofRun (parsers : Parsers) (c : Config) (layout : Layout)
    (sources : List SourceFile) (run : AnalysisRun) : ArchitectureModel :=
  let files := run.files
  let dependencies := Imports.dependencies files
  let layers := files.map c.layerNames.classify
  let services := Services.detect layout files
  let entities := c.detector.entitiesAmong parsers files (sources.map fun s => (s.path, s.text))
  { files
    dependencies
    entryPoints := Imports.entryPoints files dependencies
    cycles := (ImportGraph.ofDependencies dependencies).cycles
    entities := entities.map (Entity.assigned services)
    services
    layers
    violations := Layers.violations layers dependencies
    stats :=
      { attempted := run.attempted
        analyzed := files.length
        failed := run.failed.length
        failedFiles := run.failed
        withSyntaxErrors := (files.filter (·.hasSyntaxErrors)).length } }

/-- The model of source files. -/
def analyzeSources (parsers : Parsers) (c : Config) (layout : Layout)
    (sources : List SourceFile) : Except AnalysisError ArchitectureModel := do
  c.validate
  let sources := sources.filter fun s => !c.excludes s.path
  let run ← AnalysisRun.ofSources parsers sources
  return .ofRun parsers c layout sources run

/-! ## 2. Directories -/

/-- The source files of a layout that can be read from a directory, and the paths of those that
cannot. -/
def readSources (root : FileTree) (layout : Layout) : List SourceFile × List String :=
  let source? (path : String) : Option SourceFile := do
    let language ← Language.ofPath? path
    return ⟨path, language, ← root.textAt? path⟩
  (layout.sourceFiles.filterMap source?,
    layout.sourceFiles.filter fun path => (root.textAt? path).isNone)

/-- The model of a directory.  Files that cannot be read count as failed. -/
def analyzeDirectory (parsers : Parsers) (c : Config) (rootName : String)
    (root : Option FileTree) : Except AnalysisError ArchitectureModel := do
  match root with
  | none => throw .unreadable
  | some root =>
    let layout := Layout.scan rootName root.entries
    let (sources, unreadable) := readSources root layout
    let model ← analyzeSources parsers c layout sources
    let stats := model.stats
    return { model with stats := { stats with
      attempted := stats.attempted + unreadable.length
      failed := stats.failed + unreadable.length
      failedFiles := stats.failedFiles ++ unreadable } }

/-- The configuration in a file of a directory. -/
def Config.ofFile (root : Option FileTree) (path : String) : Except AnalysisError Config :=
  match root.bind fun r => r.textAt? path with
  | some text => Config.parse text
  | none => .error .unreadable

end Codemap
