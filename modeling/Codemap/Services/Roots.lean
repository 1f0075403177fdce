/-
# The roots of services

Directories with manifests are roots where a directory around them says that it holds services, or
where a pattern for workspaces matches them.  Failing that, if the repository itself has no
manifest, its directories with manifests are roots; without any manifests, its directories that
call themselves services; but one alone does not count.  Failing all that, the repository is one
service.
-/
import Codemap.Facts.Basic
import Codemap.Glob.Match
import Codemap.Services.Basic

namespace Codemap.Services

open Codemap.Text

/-! ## 1. Patterns for workspaces -/

/-- A pattern for workspaces as it is matched: without `./` before it and slashes after it. -/
def workspacePattern (pattern : String) : String :=
  .ofList (dropEndWhile (· == '/') (dropCopiesStart ['.', '/'] pattern.toList))

/-- The patterns for workspaces of a layout; those that are none are left out. -/
def workspaceGlobs (l : Layout) : List Glob :=
  l.workspaces.filterMap fun p => Glob.parse? (workspacePattern p)

/-! ## 2. Candidates -/

/-- Directories that hold services. -/
def containers : List String := ["packages", "services", "apps"]

/-- Whether a directory lies in one that holds services. -/
def isContained (directory : String) : Bool :=
  (piecesAt '/' directory.toList).dropLast.any fun s => containers.contains (.ofList s)

/-- Whether a directory is a child of the root. -/
def isTopLevel (directory : String) : Bool :=
  !directory.isEmpty && !directory.toList.contains '/'

/-- Whether the name of a directory says that it is a service. -/
def isNamedService (name : String) : Bool :=
  "-service".toList.isSuffixOf name.toList || "_service".toList.isSuffixOf name.toList

/-- The directories with manifests that are declared to be services or workspaces. -/
def declaredRoots (l : Layout) : List String :=
  let globs := workspaceGlobs l
  l.manifestDirectories.filter fun d =>
    !d.isEmpty && (isContained d || globs.any fun g => Glob.isMatch g d)

/-- The first segment of a path that has several. -/
def topSegment? (path : String) : Option String :=
  (cutFirst '/' path.toList).map fun cut => .ofList cut.1

/-- The children of the root that call themselves services. -/
def namedServices (l : Layout) (files : List FileFacts) : List String :=
  Order.ascending <|
    (l.directories.filter fun d => !d.toList.contains '/' && isNamedService d) ++
      (files.filterMap fun f => topSegment? f.path).filter isNamedService

/-! ## 3. Roots -/

/-- The items, if there are at least two. -/
def several (items : List String) : List String := if 2 ≤ items.length then items else []

/-- The first of the lists that is not empty. -/
def firstOf : List (List String) → List String
  | [] => []
  | xs :: more => if xs.isEmpty then firstOf more else xs

/-- The roots of the services of a repository. -/
def roots (l : Layout) (files : List FileFacts) : List String :=
  let directories := l.manifestDirectories
  firstOf
    [declaredRoots l,
      if l.hasManifest "" then [] else several (directories.filter isTopLevel),
      if directories.isEmpty then several (namedServices l files) else [],
      [""]]

end Codemap.Services
