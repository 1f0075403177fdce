/-
# Concrete syntax trees

A node stands for a stretch of source text.  It has a kind (`"class_declaration"`, or the text
itself for a keyword or a punctuation mark), an extent, its own text, the name of the field it
fills in its parent, if any, and its children in source order.  *Named* nodes are those that a
grammar rule names; the others are the fixed words and marks between them.

A tree is plain data.  What surrounds a node (its parent, its siblings) is known only to a
`Cursor`.
-/

namespace Codemap.Syntax

/-! ## 1. Extents -/

/-- A place between two characters: a line counted from zero, and a column in bytes of UTF-8. -/
structure Position where
  line : Nat
  column : Nat
deriving Repr, DecidableEq, Inhabited

/-- Where a node starts and where it stops. -/
structure Span where
  start : Position
  stop : Position
deriving Repr, DecidableEq, Inhabited

/-- Reading order of positions. -/
def Position.le (a b : Position) : Prop :=
  a.line < b.line ∨ (a.line = b.line ∧ a.column ≤ b.column)

instance : LE Position := ⟨Position.le⟩

instance (a b : Position) : Decidable (a ≤ b) :=
  inferInstanceAs (Decidable (a.line < b.line ∨ (a.line = b.line ∧ a.column ≤ b.column)))

/-- The position after reading one character. -/
def Position.advance (p : Position) (c : Char) : Position :=
  if c = '\n' then ⟨p.line + 1, 0⟩ else ⟨p.line, p.column + c.utf8Size⟩

/-! ## 2. Nodes -/

/-- A node of a concrete syntax tree. -/
structure Node where
  kind : String
  named : Bool
  field : Option String
  span : Span
  text : String
  children : List Node
deriving Repr, Inhabited

namespace Node

/-- The kind given to stretches of text that fit no rule, and to marks that are missing. -/
def errorKind : String := "ERROR"

/-- The named children. -/
def namedChildren (n : Node) : List Node := n.children.filter (·.named)

/-- The first child that fills `field`. -/
def field? (n : Node) (field : String) : Option Node :=
  n.children.find? fun c => c.field == some field

/-- The text of the first child that fills `field`. -/
def fieldText? (n : Node) (field : String) : Option String := (n.field? field).map (·.text)

/-- The first child of the given kind. -/
def childOfKind? (n : Node) (kind : String) : Option Node :=
  n.children.find? fun c => c.kind == kind

/-- Whether a child has the given kind; said of words such as `async` or `static`. -/
def hasToken (n : Node) (kind : String) : Bool := n.children.any fun c => c.kind == kind

mutual

/-- The nodes of a tree, parents before children and earlier siblings before later ones. -/
def preorder : Node → List Node
  | ⟨k, m, f, s, t, cs⟩ => ⟨k, m, f, s, t, cs⟩ :: preorderAll cs

/-- The nodes of a row of trees, tree by tree. -/
def preorderAll : List Node → List Node
  | [] => []
  | c :: cs => preorder c ++ preorderAll cs

end

mutual

/-- The number of nodes of a tree. -/
def size : Node → Nat
  | ⟨_, _, _, _, _, cs⟩ => sizeAll cs + 1

/-- The number of nodes of a row of trees. -/
def sizeAll : List Node → Nat
  | [] => 0
  | c :: cs => size c + sizeAll cs

end

/-- Whether some stretch of the text fitted no rule. -/
def hasErrors (n : Node) : Bool := n.preorder.any fun m => m.kind == errorKind

end Node

end Codemap.Syntax
