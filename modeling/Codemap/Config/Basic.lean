/-
# Configuration

How a repository is analyzed and drawn.  Every setting has a default.  A configuration is valid if
its threshold lies between zero and one and its patterns can be read.
-/
import Codemap.Diagram.Sequence
import Codemap.Diagram.Types
import Codemap.Entities.Detector
import Codemap.Glob.Match
import Codemap.Layers.Classify
import Codemap.Pipeline.Error

namespace Codemap

/-! ## 1. Settings -/

/-- The settings of an analysis.  Languages and layers are listed once each, in their fixed
orders. -/
structure Config where
  threshold : Float
  includePrivate : Bool
  showExternal : Bool
  depth : Nat
  timeout : Nat
  packages : List (Language × List String)
  layers : List (Layer × List String)
  excluded : List String
deriving Repr, Inhabited

namespace Config

/-- The settings that count unless something else is said. -/
def default : Config where
  threshold := Entities.defaultThreshold
  includePrivate := false
  showExternal := false
  depth := Diagram.Sequence.defaultDepth
  timeout := 0
  packages := []
  layers := []
  excluded := []

/-! ## 2. Validity -/

/-- The first thing that is wrong with the settings. -/
def flaw? (c : Config) : Option AnalysisError :=
  if !(0.0 ≤ c.threshold && c.threshold ≤ 1.0) then some (.thresholdOutOfRange c.threshold)
  else (c.excluded.find? fun p => (Glob.parse? p).isNone).map .invalidPattern

/-- Fails with what is wrong with the settings. -/
def validate (c : Config) : Except AnalysisError Unit :=
  match c.flaw? with
  | some e => .error e
  | none => .ok ()

/-! ## 3. What the settings mean -/

/-- How long a file may be parsed, in milliseconds; zero is no limit. -/
def limit? (c : Config) : Option Nat := if c.timeout == 0 then none else some c.timeout

/-- The parsers of the library for all languages, with the limit of time that is set; `duration` is
how long a text takes, in milliseconds. -/
def parsers (c : Config) (duration : Language → String → Nat) : Parsers :=
  match c.limit? with
  | some limit => (Parsers.builtIn Language.all).withLimit limit duration
  | none => .builtIn Language.all

/-- The packages that map objects to tables. -/
def mappingPackages (c : Config) : MappingPackages :=
  c.packages.foldl (fun m (language, packages) => m.add language packages) .known

/-- What diagrams of types show. -/
def typeOptions (c : Config) : Diagram.Types.Options := ⟨c.includePrivate, c.showExternal⟩

/-- The names that tell layers. -/
def layerNames (c : Config) : LayerNames :=
  LayerNames.default.withOverrides fun l => (c.layers.lookup l).getD []

/-- Whether a path is left out of the analysis. -/
def excludes (c : Config) (path : String) : Bool :=
  c.excluded.any fun p => ((Glob.parse? p).map fun g => g.isMatch path).getD false

end Config

end Codemap
