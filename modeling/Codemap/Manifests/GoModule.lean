/-
# Module files

A module file is read line by line.  One line gives the path of the module; others name required
modules, one a line, or many between brackets.
-/
import Codemap.Manifests.Basic
import Codemap.Order.Ascending

namespace Codemap.Manifests

open Codemap.Text

/-! ## 1. Lines -/

/-- The mark that starts a comment. -/
def commentMark : List Char := ['/', '/']

/-- The module that a line requires: its first word, unless that is in a comment. -/
def requiredModule? (line : List Char) : Option String :=
  let spec := ((cutAround commentMark line).map (·.1)).getD line
  (words spec).head?.map String.ofList

/-- What has been read of a module file. -/
structure ModuleDraft where
  path : List Char
  inBlock : Bool
  required : List String
deriving Repr, Inhabited

/-- Reads a line. -/
def ModuleDraft.readLine (d : ModuleDraft) (line : List Char) : ModuleDraft :=
  let line := trim line
  if line.isEmpty || commentMark.isPrefixOf line then d
  else if let some rest := after? "module ".toList line then
    { d with path := strip (·.toNat == 34) (trim rest) }
  else if line == "require (".toList then { d with inBlock := true }
  else if line == [')'] then { d with inBlock := false }
  else if let some rest := after? "require ".toList line then
    if rest.contains '(' then d
    else { d with required := d.required ++ (requiredModule? rest).toList }
  else if d.inBlock then { d with required := d.required ++ (requiredModule? line).toList }
  else d

/-! ## 2. Files -/

/-- What a module file declares; it must give a path for the module, whose last part is the
name. -/
def readGoModule (text : List Char) : Except ManifestError Declarations :=
  let d := (lines text).foldl ModuleDraft.readLine ⟨[], false, []⟩
  if d.path.isEmpty then .error .noModule
  else .ok
    { name := some (.ofList (lastPart '/' d.path))
      dependencies := Order.ascending d.required
      workspaces := [] }

end Codemap.Manifests
