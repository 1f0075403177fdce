/-
# Reading manifests of every kind
-/
import Codemap.Manifests.Builds
import Codemap.Manifests.GoModule
import Codemap.Manifests.Package

namespace Codemap

/-- What a file of some kind declares. -/
def ManifestKind.read (kind : ManifestKind) (text : String) : Except ManifestError Declarations :=
  match kind with
  | packageFile =>
    match Manifests.readPackage? text with
    | some d => .ok d
    | none => .error .malformed
  | pyProject => .ok (Manifests.readProject text.toList)
  | requirements => .ok (Manifests.readRequirements text.toList)
  | setupScript => .ok (Manifests.readSetupScript text.toList)
  | goModule => Manifests.readGoModule text.toList
  | projectModel => .ok (Manifests.readProjectModel text.toList)
  | gradleBuild => .ok (Manifests.readBuildScript text.toList)

end Codemap
