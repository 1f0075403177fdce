/-
# Setup scripts

A setup script is a program; the name of the project and its requirements are taken from the first
places that look like them.
-/
import Codemap.Manifests.Project
import Codemap.Text.Search

namespace Codemap.Manifests

open Codemap.Text

/-- What follows a word, blanks and an equals sign. -/
def afterAssigned? (word s : List Char) : Option (List Char) :=
  match (after? word s).map trimStart with
  | some ('=' :: rest) => some (trimStart rest)
  | _ => none

/-- A text in quotes, which is not empty, and what follows it.  Either mark ends it. -/
def quotedText? (s : List Char) : Option (List Char × List Char) :=
  match s with
  | [] => none
  | c :: rest =>
    let inside := rest.takeWhile (!isMark ·)
    if !isMark c || inside.isEmpty then none
    else
      match rest.drop inside.length with
      | _ :: rest => some (inside, rest)
      | [] => none

/-- The first text that is assigned to `name`. -/
def assignedName? (text : List Char) : Option (List Char) :=
  firstMatch? (fun s => ((afterAssigned? "name".toList s).bind quotedText?).map (·.1)) text

/-- The first list that is assigned to the requirements, up to its first closing bracket. -/
def assignedList? (text : List Char) : Option (List Char) :=
  firstMatch?
    (fun s => do
      match ← afterAssigned? "install_requires".toList s with
      | '[' :: rest => (cutFirst ']' rest).map (·.1)
      | _ => none)
    text

/-- The requirements in the quotes of a list. -/
def quotedRequirements (list : List Char) : List String :=
  (allMatches (fun _ => quotedText?) list).filterMap requirement?

/-- What a setup script declares. -/
def readSetupScript (text : List Char) : Declarations where
  name := (assignedName? text).map String.ofList
  dependencies := Order.ascending (((assignedList? text).map quotedRequirements).getD [])
  workspaces := []

end Codemap.Manifests
