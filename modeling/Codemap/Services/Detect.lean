/-
# Detecting services

The kind of a service is told by the packages that it depends on, whether they are declared or only
imported, and by the names of its directories.
-/
import Codemap.Imports.Path
import Codemap.Packages.Known
import Codemap.Services.Roots

namespace Codemap.Services

open Codemap.Text

/-! ## 1. Kinds -/

/-- Directories of services that answer requests. -/
def apiDirectories : List String := ["routes", "controllers", "api"]

/-- Directories of services that work off queues. -/
def workerDirectories : List String := ["workers", "jobs"]

/-- The first of the packages that belongs to one of the known ones, as that one. -/
def knownPackage? (keys : List String) (packages : List String) : Option String :=
  packages.findSome? (Packages.longestMatch? keys)

/-- The kind of service that packages and directories tell, and the package that told it. -/
def classify (packages directories : List String) : ServiceKind × Option String :=
  let has (names : List String) : Bool := names.any directories.contains
  match knownPackage? Packages.frontend packages with
  | some p => (.frontend, some p)
  | none =>
    match knownPackage? Packages.web packages with
    | some p => (.apiServer, some p)
    | none =>
      if has apiDirectories then (.apiServer, none)
      else
        match knownPackage? Packages.worker packages with
        | some p => (.worker, some p)
        | none =>
          if has workerDirectories then (.worker, none)
          else
            match knownPackage? Packages.cli packages with
            | some p => (.cli, some p)
            | none => (.library, none)

/-! ## 2. What belongs to a service -/

/-- The names of the directories around a path, from the inside up to but not including `root`. -/
def namesAround (root : List Char) : Nat → List Char → List (List Char)
  | 0, _ => []
  | fuel + 1, path =>
    let directory := Path.directory path
    if directory.isEmpty || directory == root then []
    else Path.name directory :: namesAround root fuel directory

/-- The names of the directories of a service. -/
def directoryNames (l : Layout) (root : String) (files : List FileFacts) : List String :=
  (((l.directoriesWithin root).filter (· != root)).map fun d => Path.name d.toList).map
      String.ofList ++
    files.flatMap fun f =>
      (namesAround root.toList f.path.length f.path.toList).map String.ofList

/-- The packages that files import. -/
def importedPackages (files : List FileFacts) : List String :=
  files.flatMap fun f => f.importSources.filterMap (Packages.external? f.language)

/-- The service with the given root that owns the given files. -/
def build (l : Layout) (root : String) (files : List FileFacts) : Service :=
  let manifests := l.manifestsIn root
  let dependencies := Order.ascending (manifests.flatMap (·.declared.dependencies))
  let packages := Order.ascending (dependencies ++ importedPackages files)
  let rootName := if root.isEmpty then l.rootName else .ofList (Path.name root.toList)
  let (kind, framework) :=
    if files.isEmpty && packages.isEmpty then (.unknown, none)
    else classify packages (directoryNames l root files)
  { name := (manifests.findSome? (·.declared.name)).getD rootName
    kind
    framework
    root
    manifest := manifests.head?.map (·.path)
    files := (files.map (·.path)).mergeSort fun a b => a ≤ b
    dependencies }

/-- The services of a repository, in the order of their roots. -/
def detect (l : Layout) (files : List FileFacts) : List Service :=
  let roots := roots l files
  roots.map fun r => build l r (files.filter fun f => owningRoot? roots f.path == some r)

end Codemap.Services
