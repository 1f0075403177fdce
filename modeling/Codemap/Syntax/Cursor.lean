/-
# Places in a tree

A cursor is a node together with everything around it: the siblings on its left and right and
the place of its parent.  From a cursor one can move down to the children, sideways to the
neighbours and up to the ancestors, which is what a question such as "which function encloses
this call?" needs.

`Cursor.walk` lists the places at and below a cursor by moving: down to a first child when there
is one, else to the next sibling, climbing as long as there is none, and never above the place it
started from.
-/
import Codemap.Syntax.Node

namespace Codemap.Syntax

/-! ## 1. Moving about -/

/-- A node in its surroundings.  The left siblings are listed nearest first. -/
structure Cursor where
  node : Node
  left : List Node
  right : List Node
  parent : Option Cursor
deriving Inhabited

namespace Cursor

/-- The place of a whole tree. -/
def top (n : Node) : Cursor := ⟨n, [], [], none⟩

/-- The kind of the node here. -/
def kind (c : Cursor) : String := c.node.kind

/-- The text of the node here. -/
def text (c : Cursor) : String := c.node.text

/-- The place of the first child. -/
def firstChild? (c : Cursor) : Option Cursor :=
  match c.node.children with
  | [] => none
  | d :: ds => some ⟨d, [], ds, some c⟩

/-- The place of the next sibling. -/
def next? (c : Cursor) : Option Cursor :=
  match c.right with
  | [] => none
  | d :: ds => some ⟨d, c.node :: c.left, ds, c.parent⟩

/-- The place of the previous sibling. -/
def previous? (c : Cursor) : Option Cursor :=
  match c.left with
  | [] => none
  | d :: ds => some ⟨d, ds, c.node :: c.right, c.parent⟩

/-- The places of a row of siblings, of which those in `left` have been passed. -/
def row (up : Option Cursor) (left : List Node) : List Node → List Cursor
  | [] => []
  | d :: ds => ⟨d, left, ds, up⟩ :: row up (d :: left) ds

/-- The places of the children. -/
def children (c : Cursor) : List Cursor := row (some c) [] c.node.children

/-- The places of the named children. -/
def namedChildren (c : Cursor) : List Cursor := c.children.filter (·.node.named)

/-- The place of the first child that fills `field`. -/
def field? (c : Cursor) (field : String) : Option Cursor :=
  c.children.find? fun d => d.node.field == some field

/-- The place of the first child of the given kind. -/
def childOfKind? (c : Cursor) (kind : String) : Option Cursor :=
  c.children.find? fun d => d.kind == kind

/-- The places above, nearest first. -/
def ancestors : Cursor → List Cursor
  | ⟨_, _, _, none⟩ => []
  | ⟨_, _, _, some p⟩ => p :: ancestors p

/-- Whether some ancestor has one of the kinds. -/
def hasAncestor (c : Cursor) (kinds : List String) : Bool :=
  c.ancestors.any fun a => kinds.contains a.kind

/-- The nearest ancestor that has one of the kinds. -/
def ancestor? (c : Cursor) (kinds : List String) : Option Cursor :=
  c.ancestors.find? fun a => kinds.contains a.kind

/-! ## 2. Walking -/

/-- The next sibling of this place or of the nearest place above that has one, looking at most
`depth` levels up; with it, how far below the start of the walk it lies. -/
def climb? : Nat → Cursor → Option (Nat × Cursor)
  | 0, _ => none
  | depth + 1, c =>
    match c.next? with
    | some d => some (depth + 1, d)
    | none => c.parent.bind (climb? depth)

/-- The place that a walk visits after `c`, which lies `depth` levels below its start. -/
def step? (depth : Nat) (c : Cursor) : Option (Nat × Cursor) :=
  match c.firstChild? with
  | some d => some (depth + 1, d)
  | none => climb? depth c

/-- At most `fuel` places of a walk that has come to `c`, `depth` levels below its start. -/
def walkFrom : Nat → Nat → Cursor → List Cursor
  | 0, _, _ => []
  | fuel + 1, depth, c =>
    c :: match step? depth c with
      | some (depth, d) => walkFrom fuel depth d
      | none => []

/-- The places at and below this one in the order of a walk.  A walk visits each node once, so
the size of the tree bounds it. -/
def walk (c : Cursor) : List Cursor := walkFrom c.node.size 0 c

end Cursor

end Codemap.Syntax
