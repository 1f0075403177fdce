/-
# Layers as data values
-/
import Codemap.Json.Value
import Codemap.Layers.Classify

namespace Codemap

open Json

/-- A layer as a data value. -/
def Layer.toData (l : Layer) : Json := string l.name

/-- The layer that a data value describes. -/
def Layer.ofData? (j : Json) : Option Layer := do ofName? (← j.string?)

/-- The layer of a file as a data value; `number` writes floating point numbers. -/
def LayerAnalysis.toData (number : Float → Json) (a : LayerAnalysis) : Json := object
  [("filePath", string a.file), ("layer", a.layer.toData), ("confidence", number a.confidence),
    ("evidence", ofStrings a.evidence)]

/-- A violation as a data value. -/
def LayerViolation.toData (v : LayerViolation) : Json := object
  [("source", string v.source), ("target", string v.target),
    ("sourceLayer", v.sourceLayer.toData), ("targetLayer", v.targetLayer.toData)]

end Codemap
