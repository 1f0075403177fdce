/-
# The layout of a repository

What is known of a repository besides its source texts: its manifests, its directories, the
patterns for its workspaces, and the paths of its source files.  Paths are relative to the root,
which has the empty path.  Directories come with all directories around them.
-/
import Codemap.Manifests.Basic
import Codemap.Order.Ascending

namespace Codemap

open Codemap.Text

/-- The layout of a repository.  Manifests are ordered by path, directories are strictly
ascending. -/
structure Layout where
  rootName : String
  manifests : List Manifest
  directories : List String
  workspaces : List String
  sourceFiles : List String
deriving Repr, Inhabited

namespace Layout

/-! ## 1. Building a layout -/

/-- A repository about which only the name of its root is known. -/
def empty (rootName : String) : Layout := ⟨rootName, [], [], [], []⟩

/-- Manifests are ordered by path; those with one path keep their order. -/
def byPath (a b : Manifest) : Bool := a.path ≤ b.path

/-- The segments of a path before some place and after it, each with those before it. -/
def chain (passed : List (List Char)) : List (List Char) → List (List Char)
  | [] => []
  | s :: rest => join ['/'] (passed ++ [s]) :: chain (passed ++ [s]) rest

/-- A directory and all directories around it, without empty segments. -/
def directoryChain (directory : String) : List String :=
  (chain [] ((piecesAt '/' directory.toList).filter (!·.isEmpty))).map String.ofList

/-- The layout with a directory and all directories around it. -/
def withDirectory (l : Layout) (directory : String) : Layout :=
  { l with directories := Order.ascending (directoryChain directory ++ l.directories) }

/-- The layout with a manifest and its directory. -/
def withManifest (l : Layout) (m : Manifest) : Layout :=
  { l.withDirectory m.directory with manifests := (l.manifests ++ [m]).mergeSort byPath }

/-- The layout with a pattern for workspaces. -/
def withWorkspace (l : Layout) (pattern : String) : Layout :=
  { l with workspaces := l.workspaces ++ [pattern] }

/-! ## 2. Asking a layout -/

/-- The manifests in a directory. -/
def manifestsIn (l : Layout) (directory : String) : List Manifest :=
  l.manifests.filter fun m => m.directory == directory

/-- Whether a directory has a manifest. -/
def hasManifest (l : Layout) (directory : String) : Bool := !(l.manifestsIn directory).isEmpty

/-- The directories that have manifests. -/
def manifestDirectories (l : Layout) : List String :=
  Order.ascending (l.manifests.map (·.directory))

end Layout

/-- Whether a path is a directory or lies below it; everything lies below the root. -/
def isWithin (directory path : String) : Bool :=
  directory.isEmpty || path == directory || (directory.toList ++ ['/']).isPrefixOf path.toList

/-- The directories at or below one. -/
def Layout.directoriesWithin (l : Layout) (directory : String) : List String :=
  l.directories.filter (isWithin directory)

end Codemap
