/-
# Services

A service is a part of a repository that is deployed on its own.  It is rooted at a directory and
owns the files at and below it, unless a service with a deeper root does.
-/
import Codemap.Layout.Basic

namespace Codemap

/-! ## 1. Services -/

/-- The kinds of services. -/
inductive ServiceKind where
  | apiServer
  | worker
  | frontend
  | library
  | cli
  | unknown
deriving Repr, DecidableEq, Inhabited

namespace ServiceKind

/-- All kinds of services. -/
def all : List ServiceKind := [apiServer, worker, frontend, library, cli, unknown]

/-- The name of a kind of service. -/
def name : ServiceKind → String
  | apiServer => "api-server"
  | worker => "worker"
  | frontend => "frontend"
  | library => "library"
  | cli => "cli"
  | unknown => "unknown"

/-- The kind of service of a given name. -/
def ofName? (s : String) : Option ServiceKind := all.find? fun k => k.name == s

end ServiceKind

/-- A service.  The framework is the package that told its kind, if one did. -/
structure Service where
  name : String
  kind : ServiceKind
  framework : Option String
  root : String
  manifest : Option String
  files : List String
  dependencies : List String
deriving Repr, DecidableEq, Inhabited

/-! ## 2. Ownership -/

/-- The item with the longest key; of several, the last. -/
def longestBy {α : Type} (key : α → String) (items : List α) : Option α :=
  items.foldl
    (fun best x =>
      match best with
      | some b => if (key b).length ≤ (key x).length then some x else some b
      | none => some x)
    none

/-- Whether a path is a root or lies below it: if it begins with the root, the byte behind tells.
Everything lies below the root of the repository. -/
def isRootOf (root path : String) : Bool :=
  root.isEmpty || path == root ||
    (root.toList.isPrefixOf path.toList && path.toUTF8[root.utf8ByteSize]? == some '/'.toUInt8)

/-- The deepest of the roots that a path lies below. -/
def owningRoot? (roots : List String) (path : String) : Option String :=
  longestBy id (roots.filter fun r => isRootOf r path)

/-- The service that owns a path: of those that it lies below, the one with the deepest root. -/
def serviceOf? (services : List Service) (path : String) : Option Service :=
  longestBy (·.root) (services.filter fun s => isRootOf s.root path)

end Codemap
