/-
# Package files

A package file is an object, or the list of its values in a fixed order.  It names the package, its
dependencies of three sorts, and its workspaces.  Workspaces may be declared in a file of their own
as well.
-/
import Codemap.Json.Members
import Codemap.Manifests.Basic
import Codemap.Order.Ascending
import Codemap.Yaml.Decode

namespace Codemap.Manifests

/-! ## 1. Package files -/

/-- The members of a package file, in the order in which a list gives their values. -/
def packageMembers : List String :=
  ["name", "dependencies", "devDependencies", "peerDependencies", "workspaces"]

/-- The names that stand before values in an object. -/
def packageNames? (j : Json) : Option (List String) := (j.object?).map fun ms => ms.map (·.1)

/-- The patterns that are given for workspaces: a list, or an object with a list of packages. -/
def workspacePatterns? : Json → Option (List String)
  | .array items => items.mapM Json.string?
  | .object members =>
    match members.filter fun m => m.1 == "packages" with
    | [] => some []
    | [(_, v)] => Json.listOf Json.string? v
    | _ => none
  | .null => some []
  | _ => none

/-- What the members of a package file declare; none may be given twice. -/
def ofMembers? (members : List (String × Json)) : Option Declarations := do
  let keys := members.map (·.1)
  if keys.eraseDups.length != keys.length then none
  let j := Json.object members
  let name ← j.optional "name" Json.string?
  let dependencies ← j.defaulted "dependencies" packageNames? []
  let ofDevelopment ← j.defaulted "devDependencies" packageNames? []
  let ofPeers ← j.defaulted "peerDependencies" packageNames? []
  let workspaces ← j.defaulted "workspaces" workspacePatterns? []
  return {
    name := name.filter (!·.isEmpty)
    dependencies := Order.ascending (dependencies ++ ofPeers ++ ofDevelopment)
    workspaces }

/-- What a package file declares. -/
def readPackage? (text : String) : Option Declarations :=
  match Json.wantedMembers? packageMembers text.toList with
  | some members => ofMembers? members
  | none =>
    match Json.parse? text with
    | some (.array values) =>
      if values.length ≤ packageMembers.length then ofMembers? (packageMembers.zip values)
      else none
    | _ => none

/-! ## 2. Workspace files -/

/-- The patterns in a file of workspaces. -/
def readWorkspaces? (text : String) : Option (List String) := do
  let members ← (← Yaml.parse? text).record? ["packages"]
  Yaml.memberOr members "packages" (Yaml.listOf Yaml.text?) []

end Codemap.Manifests
