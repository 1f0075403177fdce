/-
# Scanning a directory

A directory holds files and directories by name.  Directories with certain names, which hold
installed packages, caches or results of builds, are left out with all that is in them.  Files that
are not texts, and manifests that cannot be read, are passed over.
-/
import Codemap.Layout.Basic
import Codemap.Manifests.Read
import Codemap.Source.Language

namespace Codemap

open Codemap.Text

/-! ## 1. Trees of files -/

/-- A file or a directory.  A file that is no text has no contents. -/
inductive FileTree where
  | file (text : Option String)
  | directory (entries : List (String × FileTree))
deriving Inhabited

namespace FileTree

/-- The entries of a directory. -/
def entries : FileTree → List (String × FileTree)
  | directory es => es
  | file _ => []

/-- The entries with another one in the place of the one with its name, or at the end. -/
def put (name : String) (t : FileTree) : List (String × FileTree) → List (String × FileTree)
  | [] => [(name, t)]
  | e :: es => if e.1 == name then (name, t) :: es else e :: put name t es

/-- The tree with another one at the end of a way of names; directories on the way are made. -/
def insert (t : FileTree) : List String → FileTree → FileTree
  | [], _ => t
  | name :: way, parent =>
    let child := (parent.entries.lookup name).getD (directory [])
    directory (put name (insert t way child) parent.entries)

/-- What lies at the end of a way of names. -/
def at? : List String → FileTree → Option FileTree
  | [], t => some t
  | name :: way, t => (t.entries.lookup name).bind (at? way)

/-- The names on the way to a path. -/
def wayOf (path : String) : List String :=
  ((piecesAt '/' path.toList).filter (!·.isEmpty)).map String.ofList

/-- The text of the file with a path, if it is a text. -/
def textAt? (t : FileTree) (path : String) : Option String :=
  match t.at? (wayOf path) with
  | some (file text) => text
  | _ => none

end FileTree

/-! ## 2. What is found -/

/-- A directory or a file that is found, with its path; a file with the directory that it lies in,
its own name and its text. -/
inductive Found where
  | directory (path : String)
  | file (path directory name : String) (text : Option String)
deriving Repr, Inhabited

/-- Directories that are left out. -/
def prunedDirectories : List String :=
  ["node_modules", ".git", "target", "venv", ".venv", "env", "__pycache__", ".tox",
    ".mypy_cache", ".pytest_cache", "dist", "build", ".next", "vendor"]

/-- A path with slashes only. -/
def withSlashes (path : String) : String :=
  .ofList (replaceChar (· == '\\') '/' path.toList)

mutual

/-- What is found at and below an entry of a directory, whose path is `parent`. -/
def FileTree.found (parent name : String) : FileTree → List Found
  | .file text => [.file (withSlashes (pathIn parent name)) (withSlashes parent) name text]
  | .directory es =>
    if prunedDirectories.contains name then []
    else
      let path := pathIn parent name
      .directory (withSlashes path) :: FileTree.foundIn path es

/-- What is found below the entries of a directory. -/
def FileTree.foundIn (parent : String) : List (String × FileTree) → List Found
  | [] => []
  | (name, t) :: es => t.found parent name ++ FileTree.foundIn parent es

end

/-! ## 3. Layouts -/

/-- The file that declares workspaces at the root. -/
def workspaceFile : String := "pnpm-workspace.yaml"

namespace Found

/-- The directory that was found. -/
def directory? : Found → Option String
  | directory path => some path
  | file .. => none

/-- The source file that was found. -/
def source? : Found → Option String
  | directory _ => none
  | file path _ _ _ => if (Language.ofPath? path).isSome then some path else none

/-- The manifest that was found, if it can be read. -/
def manifest? : Found → Option Manifest
  | directory _ => none
  | file _ parent name text => do
    let kind ← ManifestKind.ofFileName? name
    match kind.read (← text) with
    | .ok declared => some ⟨kind, parent, pathIn parent name, declared⟩
    | .error _ => none

/-- The patterns for workspaces that what was found declares; only files at the root may. -/
def workspaces (f : Found) : List String :=
  match f with
  | directory _ => []
  | file _ parent name text =>
    if !parent.isEmpty then []
    else if name == workspaceFile then (text.bind Manifests.readWorkspaces?).getD []
    else (f.manifest?.map fun m => m.declared.workspaces).getD []

end Found

/-- The layout of a repository with the given entries at its root. -/
def Layout.scan (rootName : String) (entries : List (String × FileTree)) : Layout :=
  let found := FileTree.foundIn "" entries
  { rootName
    manifests := (found.filterMap Found.manifest?).mergeSort byPath
    directories := Order.ascending (found.filterMap Found.directory?)
    workspaces := Order.ascending (found.flatMap Found.workspaces)
    sourceFiles := (found.filterMap Found.source?).mergeSort fun a b => a ≤ b }

end Codemap
