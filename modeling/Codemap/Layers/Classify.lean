/-
# Layers of an architecture

Each file votes on the layer it belongs to: a directory, or a part of its name, that names a layer
counts twice, and an import of a package that is typical of a layer counts once.  The layer with
most votes wins; of several, the one that stands first in the fixed order.

An import that leads from a lower layer to a higher one is a violation.
-/
import Codemap.Imports.Graph
import Codemap.Packages.Known

namespace Codemap

open Codemap.Text

/-! ## 1. Layers -/

/-- A layer of an architecture. -/
inductive Layer where
  | presentation
  | business
  | data
  | infrastructure
  | external
  | unknown
deriving Repr, DecidableEq, Inhabited

namespace Layer

/-- The layers that files are voted into, in the order in which ties are broken. -/
def ranked : List Layer := [presentation, business, data, infrastructure, external]

/-- All layers. -/
def all : List Layer := ranked ++ [unknown]

/-- The name of a layer. -/
def name : Layer → String
  | presentation => "presentation"
  | business => "business"
  | data => "data"
  | infrastructure => "infrastructure"
  | external => "external"
  | unknown => "unknown"

/-- The layer of a given name. -/
def ofName? (s : String) : Option Layer := all.find? fun l => l.name == s

/-- The layer that a text names, in whatever case. -/
def ofText? (s : String) : Option Layer := ofName? (lowered s)

/-- What is said of a text that names no layer. -/
def unknownMessage (s : String) : String := "unknown layer: " ++ s

end Layer

/-! ## 2. Words and packages -/

namespace Layers

/-- The names of directories, and the parts of file names, that tell a layer. -/
def words : Layer → List String
  | .presentation =>
    ["presentation", "routes", "route", "router", "routers", "controllers", "controller", "views",
      "view", "api", "handlers", "handler", "endpoints", "resolvers", "pages", "components", "ui"]
  | .business =>
    ["business", "service", "services", "domain", "usecases", "usecase", "logic", "application"]
  | .data =>
    ["data", "repositories", "repository", "repo", "models", "model", "entities", "entity", "dao",
      "db", "database", "persistence", "migrations"]
  | .infrastructure =>
    ["infrastructure", "infra", "config", "configuration", "cache", "queue", "queues",
      "messaging", "events"]
  | .external =>
    ["external", "clients", "client", "integrations", "integration", "gateways", "gateway",
      "thirdparty"]
  | .unknown => []

/-- The packages that are typical of a layer, in the order in which they are asked for. -/
def provenance : List (Layer × List String) :=
  [(.data, Packages.data), (.infrastructure, Packages.infrastructure),
    (.external, Packages.httpClient), (.presentation, Packages.web)]

end Layers

/-- The names that tell layers.  Of several entries for a name, the first counts. -/
structure LayerNames where
  entries : List (String × Layer)
deriving Repr, Inhabited

namespace LayerNames

/-- The names that tell layers unless something else is said. -/
def default : LayerNames :=
  ⟨Layer.ranked.flatMap fun l => (Layers.words l).map fun w => (w, l)⟩

/-- Adds a name for a layer, or gives a name to another layer. -/
def assign (n : LayerNames) (layer : Layer) (word : String) : LayerNames :=
  ⟨(lowered word, layer) :: n.entries⟩

/-- Adds names for layers, in the fixed order of the layers. -/
def withOverrides (n : LayerNames) (overrides : Layer → List String) : LayerNames :=
  Layer.ranked.foldl (fun n l => (overrides l).foldl (fun n w => n.assign l w) n) n

/-- The layer that a name tells, in whatever case. -/
def layer? (n : LayerNames) (word : List Char) : Option Layer :=
  let w : String := .ofList (lower word)
  (n.entries.find? fun e => e.1 == w).map (·.2)

end LayerNames

/-! ## 3. Votes -/

/-- A vote for a layer, and what it is founded on. -/
structure Vote where
  layer : Layer
  weight : Nat
  reason : String
deriving Repr, DecidableEq, Inhabited

/-- The layer of a file, the share of the votes that it got, and what they were founded on. -/
structure LayerAnalysis where
  file : String
  layer : Layer
  confidence : Float
  evidence : List String
deriving Repr, Inhabited

namespace LayerNames

/-- The vote of a name. -/
def vote? (n : LayerNames) (place : String) (word : List Char) : Option Vote :=
  (n.layer? word).map fun l =>
    ⟨l, 2, place ++ " '" ++ .ofList word ++ "' -> " ++ l.name⟩

/-- The votes of the directories of a path and of the parts of its file's name, less the
extension. -/
def pathVotes (n : LayerNames) (path : List Char) : List Vote :=
  let (directories, file) := (cutLast '/' path).getD ([], path)
  let stem := ((cutLast '.' file).map (·.1)).getD file
  let parts := pieces (fun c => c == '_' || c == '-' || c == '.') stem
  ((piecesAt '/' directories).filter (!·.isEmpty)).filterMap (n.vote? "directory") ++
    (parts.filter (!·.isEmpty)).filterMap (n.vote? "file name")

end LayerNames

namespace Layers

/-- The votes of one import. -/
def importVotes (source : String) : List Vote :=
  if source.toList.head? == some '.' then []
  else provenance.filterMap fun (l, keys) =>
    (Packages.longestMatch? keys source).map fun package =>
      ⟨l, 1, "import '" ++ package ++ "' -> " ++ l.name⟩

/-- The weight of votes together. -/
def weight (votes : List Vote) : Nat := votes.foldr (fun v n => v.weight + n) 0

/-- The votes for a layer. -/
def tally (votes : List Vote) (layer : Layer) : Nat :=
  weight (votes.filter fun v => v.layer == layer)

/-- The layer with most votes, and their number; of several, the first in the fixed order. -/
def winner? (votes : List Vote) : Option (Layer × Nat) :=
  Layer.ranked.foldl
    (fun best l =>
      let count := tally votes l
      if count == 0 then best
      else match best with
        | some (_, most) => if count ≤ most then best else some (l, count)
        | none => some (l, count))
    none

end Layers

namespace LayerNames

/-- All votes of a file. -/
def votes (n : LayerNames) (f : FileFacts) : List Vote :=
  n.pathVotes f.path.toList ++ f.importSources.flatMap Layers.importVotes

/-- The layer of a file. -/
def classify (n : LayerNames) (f : FileFacts) : LayerAnalysis :=
  let votes := n.votes f
  let evidence := votes.map (·.reason)
  match Layers.winner? votes with
  | some (layer, count) =>
    let total := Layers.weight votes
    ⟨f.path, layer, Float.ofNat count / Float.ofNat total, evidence⟩
  | none => ⟨f.path, .unknown, 0.0, evidence⟩

end LayerNames

/-! ## 4. Violations -/

/-- An import that leads from a lower layer to a higher one. -/
structure LayerViolation where
  source : String
  target : String
  sourceLayer : Layer
  targetLayer : Layer
deriving Repr, DecidableEq, Inhabited

namespace Layers

/-- Whether the first layer is lower than the second and may not use it. -/
def isUpward : Layer → Layer → Bool
  | .data, .business | .data, .presentation => true
  | .business, .presentation | .infrastructure, .presentation => true
  | _, _ => false

/-- The layer of a path; of several, the last that is given. -/
def layerOf? (analyses : List LayerAnalysis) (path : String) : Option Layer :=
  (analyses.reverse.find? fun a => a.file == path).map (·.layer)

/-- The violation that an edge is. -/
def violation? (analyses : List LayerAnalysis) (d : Dependency) : Option LayerViolation := do
  let sourceLayer ← layerOf? analyses d.source
  let targetLayer ← layerOf? analyses d.target
  if isUpward sourceLayer targetLayer then
    some ⟨d.source, d.target, sourceLayer, targetLayer⟩
  else none

/-- The violations among the edges, in their order. -/
def violations (analyses : List LayerAnalysis) (ds : List Dependency) : List LayerViolation :=
  ds.filterMap (violation? analyses)

end Layers

end Codemap
