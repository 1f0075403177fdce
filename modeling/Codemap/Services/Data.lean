/-
# Services, manifests and layouts as data values
-/
import Codemap.Json.Value
import Codemap.Services.Basic

namespace Codemap

open Json

/-- A kind of manifest as a data value. -/
def ManifestKind.toData (k : ManifestKind) : Json := string k.name

/-- The kind of manifest that a data value describes. -/
def ManifestKind.ofData? (j : Json) : Option ManifestKind := do ofName? (← j.string?)

/-- A manifest as a data value. -/
def Manifest.toData (m : Manifest) : Json := object <|
  [("kind", m.kind.toData), ("dir", string m.directory), ("path", string m.path)]
    ++ omitted "name" string m.declared.name
    ++ [("dependencies", ofStrings m.declared.dependencies),
      ("workspaces", ofStrings m.declared.workspaces)]

/-- A layout as a data value. -/
def Layout.toData (l : Layout) : Json := object
  [("rootName", string l.rootName), ("manifests", array (l.manifests.map Manifest.toData)),
    ("directories", ofStrings l.directories), ("workspaceGlobs", ofStrings l.workspaces),
    ("sourceFiles", ofStrings l.sourceFiles)]

/-- A service as a data value. -/
def Service.toData (s : Service) : Json := object <|
  [("name", string s.name), ("serviceType", string s.kind.name)]
    ++ omitted "framework" string s.framework ++ [("root", string s.root)]
    ++ omitted "manifest" string s.manifest
    ++ [("files", ofStrings s.files), ("dependencies", ofStrings s.dependencies)]

end Codemap
