/-
# The diagram of files

Each file is a node, and each edge of the graph of imports is an arrow.  A node is named for its
path; where two paths give the same identifier, the later one gets the first number that makes it
differ from all names given before.
-/
import Codemap.Diagram.Basic
import Codemap.Imports.Graph

namespace Codemap.Diagram.Components

/-! ## 1. Nodes -/

/-- A file and the identifier of its node. -/
structure FileNode where
  path : String
  identifier : String
deriving Repr, DecidableEq, Inhabited

/-- The identifiers that are tried for a name: itself, and itself with numbers from two on.  With
one more number than there are identifiers in use, one of them is free. -/
def choices (used : List String) (base : String) : List String :=
  base :: (List.range (used.length + 1)).map fun n => base ++ "_" ++ toString (n + 2)

/-- An identifier for a name that is not yet in use. -/
def fresh (used : List String) (base : String) : String :=
  ((choices used base).find? fun c => !used.contains c).getD base

/-- The nodes so far and one for another path, unless it has one. -/
def addNode (nodes : List FileNode) (path : String) : List FileNode :=
  if nodes.any fun n => n.path == path then nodes
  else nodes ++ [⟨path, fresh (nodes.map (·.identifier)) (Diagram.identifier path)⟩]

/-- One node for each path, in the order in which the paths are first given. -/
def nodes (paths : List String) : List FileNode := paths.foldl addNode []

/-! ## 2. Lines -/

/-- The line that declares a node. -/
def nodeLine (n : FileNode) : String :=
  indent ++ n.identifier ++ "[" ++ quotedLabel n.path ++ "]"

/-- The identifier of the node of a path. -/
def identifierOf? (nodes : List FileNode) (path : String) : Option String :=
  (nodes.find? fun n => n.path == path).map (·.identifier)

/-- The line that draws an edge. -/
def edgeLine? (nodes : List FileNode) (d : Dependency) : Option String := do
  let source ← identifierOf? nodes d.source
  let target ← identifierOf? nodes d.target
  return indent ++ source ++ " --> " ++ target

/-- The lines of the diagram. -/
def lines (files : List FileFacts) : List String :=
  let nodes := nodes (files.map (·.path))
  "graph TD" :: nodes.map nodeLine ++
    (Imports.dependencies files).filterMap (edgeLine? nodes)

/-- The text of the diagram. -/
def text (files : List FileFacts) : String := ofLines (lines files)

end Codemap.Diagram.Components
