/-
# The diagram of types

Each declared type is a block that lists its properties and methods, and each supertype is an
arrow.  Types whose names give the same identifier are drawn once, as the first of them.  Options
say whether private members are listed, and whether arrows lead to types that are not drawn.
-/
import Codemap.Diagram.Basic
import Codemap.Facts.Basic
import Codemap.Facts.Wording
import Codemap.Order.Distinct

namespace Codemap.Diagram.Types

/-! ## 1. Options -/

/-- What a diagram of types shows. -/
structure Options where
  includePrivate : Bool
  showExternal : Bool
deriving Repr, DecidableEq, Inhabited

/-- Neither private members nor types from elsewhere. -/
def Options.default : Options := ⟨false, false⟩

/-! ## 2. Members -/

/-- The sign of a visibility. -/
def sign : Visibility → String
  | .publicAccess => "+"
  | .privateAccess => "-"
  | .protectedAccess => "#"

/-- Whether a member of some visibility is listed. -/
def Options.lists (o : Options) (v : Visibility) : Bool := o.includePrivate || v != .privateAccess

/-- A type after what it is the type of. -/
def typed (between : String) (type : Option String) : String :=
  match type with
  | some t => between ++ typeLabel t
  | none => ""

/-- A parameter of a method. -/
def parameterText (p : Parameter) : String :=
  p.name ++ (if p.isOptional then "?" else "") ++ typed ": " p.type

/-- A property of a type. -/
def propertyText (p : Property) : String :=
  sign p.visibility ++ p.name ++ typed ": " p.type ++ (if p.isStatic then "$" else "")

/-- A method of a type. -/
def methodText (m : Method) : String :=
  sign m.visibility ++ m.function.name ++ "("
    ++ ", ".intercalate (m.function.parameters.map parameterText) ++ ")"
    ++ (if m.isStatic then "$" else if m.isAbstract then "*" else "")
    ++ typed " " m.function.returnType

/-! ## 3. Pieces -/

/-- The kind of a type, where it is worth a line. -/
def stereotype? (t : TypeDecl) : Option String :=
  match t.kind with
  | .interfaceType => some "<<interface>>"
  | .enumType => some "<<enumeration>>"
  | .aliasType => some "<<type>>"
  | .classType => if t.isAbstract then some "<<abstract>>" else none

/-- A piece of the diagram, which is one line unless a name in it holds a line break. -/
inductive Piece where
  | header
  | opening (name : String)
  | stereotype (text : String)
  | member (text : String)
  | closing
  | arrow (parent sign child : String)
deriving Repr, DecidableEq, Inhabited

/-- The text of a piece, without the line feed that ends it. -/
def Piece.text : Piece → String
  | header => "classDiagram"
  | opening name => indent ++ "class " ++ name ++ " \x7b"
  | stereotype text => indent ++ indent ++ text
  | member text => indent ++ indent ++ text
  | closing => indent ++ "\x7d"
  | arrow parent sign child => indent ++ parent ++ " " ++ sign ++ " " ++ child

/-- The types that are drawn. -/
def drawn (files : List FileFacts) : List TypeDecl :=
  Order.distinctBy (fun t : TypeDecl => identifier t.name) (files.flatMap (·.types))

/-- The pieces of the block of a type. -/
def block (o : Options) (t : TypeDecl) : List Piece :=
  [.opening (identifier t.name)] ++ ((stereotype? t).map Piece.stereotype).toList
    ++ ((t.properties.filter fun p => o.lists p.visibility).map fun p => .member (propertyText p))
    ++ ((t.methods.filter fun m => o.lists m.visibility).map fun m => .member (methodText m))
    ++ [.closing]

/-- The arrows from the supertypes of a type to it. -/
def arrows (t : TypeDecl) : List Piece :=
  let arrow (sign parent : String) : Piece :=
    .arrow (identifier (Facts.onString Facts.baseType parent)) sign (identifier t.name)
  t.supertypes.map (arrow "<|--") ++ t.interfaces.map (arrow "<|..")

/-- Whether an arrow is drawn, given the identifiers of the types that are. -/
def Options.draws (o : Options) (known : List String) : Piece → Bool
  | .arrow parent _ _ => o.showExternal || known.contains parent
  | _ => true

/-- The pieces of the diagram. -/
def pieces (o : Options) (files : List FileFacts) : List Piece :=
  let types := drawn files
  let known := types.map fun t => identifier t.name
  [.header] ++ types.flatMap (block o) ++
    Order.distinct ((types.flatMap arrows).filter (o.draws known))

/-- The text of the diagram. -/
def text (o : Options) (files : List FileFacts) : String :=
  ofLines ((pieces o files).map Piece.text)

end Codemap.Diagram.Types
