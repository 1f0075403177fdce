/-
# Project files with sections

A project file is read line by line.  Lines in square brackets start sections, the others give
values to keys.  The section of the project has its name and a list of requirements, which may run
over several lines; sections of dependencies have a key for each package.
-/
import Codemap.Manifests.Requirements

namespace Codemap.Manifests

open Codemap.Text

/-! ## 1. Lines -/

/-- A quotation mark, double or single. -/
def isMark (c : Char) : Bool := c.toNat == 34 || c.toNat == 39

/-- A line up to the first `#` outside quotes; `quote` is the mark of the quotes that are open. -/
def uncommented (quote : Option Char) : List Char → List Char
  | [] => []
  | c :: s =>
    match quote with
    | none =>
      if c == '#' then [] else c :: uncommented (if isMark c then some c else none) s
    | some q => c :: uncommented (if c == q then none else some q) s

/-- The requirement that an item of a list is, without its quotes and the end of the list. -/
def listedRequirement? (item : List Char) : Option String :=
  requirement? (strip (fun c => isMark c || c == ']') (trim item))

/-- The requirements in a line of a list. -/
def listedRequirements (line : List Char) : List String :=
  (piecesAt ',' line).filterMap listedRequirement?

/-! ## 2. Files -/

/-- What has been read of a project file. -/
structure ProjectDraft where
  name : Option (List Char)
  dependencies : List String
  heading : List Char
  inList : Bool
deriving Repr, Inhabited

namespace ProjectDraft

/-- Adds requirements. -/
def require (d : ProjectDraft) (names : List String) : ProjectDraft :=
  { d with dependencies := d.dependencies ++ names }

/-- Reads a line of a list of requirements. -/
def readItems (d : ProjectDraft) (line : List Char) : ProjectDraft :=
  if line.head? == some ']' then { d with inList := false }
  else
    let d := d.require (listedRequirements line)
    if line.getLast? == some ']' then { d with inList := false } else d

/-- Gives a value to a key. -/
def readValue (d : ProjectDraft) (key value : List Char) : ProjectDraft :=
  let heading : String := .ofList d.heading
  let word : String := .ofList key
  if (heading == "project" || heading == "tool.poetry") && word == "name" then
    { d with name := some (strip isMark value) }
  else if heading == "project" && word == "dependencies" then
    { d.require (listedRequirements (value.dropWhile (· == '['))) with
      inList := !value.contains ']' }
  else if heading == "tool.poetry.dependencies" || heading == "tool.poetry.dev-dependencies" then
    d.require ((requirement? key).toList.filter (· != "python"))
  else d

/-- Reads a line. -/
def readLine (d : ProjectDraft) (line : List Char) : ProjectDraft :=
  let line := trim (uncommented none line)
  if line.isEmpty then d
  else if d.inList then d.readItems line
  else if line.head? == some '[' then
    { d with heading := strip (fun c => c == '[' || c == ']') line }
  else
    match cutFirst '=' line with
    | some (key, value) => d.readValue (trim key) (trim value)
    | none => d

end ProjectDraft

/-- What a project file declares. -/
def readProject (text : List Char) : Declarations :=
  let d := (lines text).foldl ProjectDraft.readLine ⟨none, [], [], false⟩
  { name := (d.name.filter (!·.isEmpty)).map String.ofList
    dependencies := Order.ascending d.dependencies
    workspaces := [] }

end Codemap.Manifests
