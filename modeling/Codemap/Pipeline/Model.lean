/-
# The model of a repository

All that is found out about a repository: the facts about its files, the graph of their imports,
the entities, the services and the layers.  A model can be drawn and written as a report.
-/
import Codemap.Config.Basic
import Codemap.Diagram.Components
import Codemap.Diagram.Entities
import Codemap.Entities.Data
import Codemap.Imports.Data
import Codemap.Json.Text
import Codemap.Layers.Data
import Codemap.Services.Data

namespace Codemap

open Json

/-! ## 1. Models -/

/-- How many files were to be analyzed, how many were, and how many and which were not. -/
structure RunStats where
  attempted : Nat
  analyzed : Nat
  failed : Nat
  failedFiles : List String
  withSyntaxErrors : Nat
deriving Repr, DecidableEq, Inhabited

/-- What is found out about a repository. -/
structure ArchitectureModel where
  files : List FileFacts
  dependencies : List Dependency
  entryPoints : List String
  cycles : List (List String)
  entities : List Entity
  services : List Service
  layers : List LayerAnalysis
  violations : List LayerViolation
  stats : RunStats
deriving Inhabited

/-- The kind of diagram that a text asks for. -/
def diagramKindOf (text : String) : Except AnalysisError DiagramKind :=
  match DiagramKind.ofText? text with
  | some k => .ok k
  | none => .error (.unknownDiagram text)

namespace ArchitectureModel

/-- The first entity of a given name. -/
def entity? (m : ArchitectureModel) (name : String) : Option Entity :=
  m.entities.find? fun e => e.name == name

/-- The first service of a given name. -/
def service? (m : ArchitectureModel) (name : String) : Option Service :=
  m.services.find? fun s => s.name == name

/-- The layer of a file. -/
def layer? (m : ArchitectureModel) (path : String) : Option Layer :=
  (m.layers.find? fun l => l.file == path).map (·.layer)

/-! ## 2. Diagrams -/

/-- The text of a diagram of the model. -/
def diagram (m : ArchitectureModel) (c : Config) : DiagramKind → String
  | .types => Diagram.Types.text c.typeOptions m.files
  | .components => Diagram.Components.text m.files
  | .sequence => Diagram.Sequence.text m.files c.depth
  | .entities => Diagram.Entities.text m.entities

/-- The texts of several diagrams, with an empty line between each two. -/
def diagrams (m : ArchitectureModel) (c : Config) (kinds : List DiagramKind) : String :=
  "\n".intercalate (kinds.map (m.diagram c))

end ArchitectureModel

/-! ## 3. Reports -/

/-- The counts of a run as a data value. -/
def RunStats.toData (s : RunStats) : Json := object
  [("attempted", ofNat s.attempted), ("analyzed", ofNat s.analyzed),
    ("failed", ofNat s.failed), ("failedFiles", ofStrings s.failedFiles),
    ("filesWithSyntaxErrors", ofNat s.withSyntaxErrors)]

namespace ArchitectureModel

/-- The members of a model but for its files; `number` writes floating point numbers. -/
def members (number : Float → Json) (m : ArchitectureModel) : List (String × Json) :=
  [("dependencies", array (m.dependencies.map Dependency.toData)),
    ("entryPoints", ofStrings m.entryPoints), ("cycles", array (m.cycles.map ofStrings)),
    ("entities", array (m.entities.map (Entity.toData number))),
    ("services", array (m.services.map Service.toData)),
    ("layers", array (m.layers.map (LayerAnalysis.toData number))),
    ("layerViolations", array (m.violations.map LayerViolation.toData)),
    ("stats", m.stats.toData)]

/-- A model as a data value. -/
def toData (number : Float → Json) (m : ArchitectureModel) : Json :=
  object (("files", array (m.files.map FileFacts.toData)) :: m.members number)

/-- How much of everything there is in a model. -/
def summary (m : ArchitectureModel) : Json := object
  [("files", ofNat m.files.length),
    ("functions", ofNat (m.files.flatMap fun f => f.functions).length),
    ("classes", ofNat (m.files.flatMap fun f => f.types).length),
    ("dependencies", ofNat m.dependencies.length), ("entryPoints", ofNat m.entryPoints.length),
    ("cycles", ofNat m.cycles.length), ("entities", ofNat m.entities.length),
    ("services", ofNat m.services.length), ("layerViolations", ofNat m.violations.length)]

/-- The version of the form of reports. -/
def reportVersion : String := "0.1.0"

/-- The report on a model. -/
def report (m : ArchitectureModel) : Json := object
  [("version", string reportVersion), ("summary", m.summary), ("stats", m.stats.toData),
    ("model", m.toData ofFloat)]

/-- The text of the report, with a line feed at its end. -/
def reportText (m : ArchitectureModel) : String := m.report.pretty 0 ++ "\n"

end ArchitectureModel

end Codemap
