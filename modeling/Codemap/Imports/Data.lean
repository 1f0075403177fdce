/-
# Dependencies as data values
-/
import Codemap.Imports.Graph
import Codemap.Json.Value

namespace Codemap

open Json

/-- An edge between two files as a data value. -/
def Dependency.toData (d : Dependency) : Json := object
  [("source", string d.source), ("target", string d.target),
    ("importedNames", ofStrings d.names)]

/-- The edge that a data value describes. -/
def Dependency.ofData? (j : Json) : Option Dependency := do
  let source ← j.required "source" string?
  let target ← j.required "target" string?
  let names ← j.required "importedNames" (listOf string?)
  return ⟨source, target, names⟩

end Codemap
