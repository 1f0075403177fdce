/-
# Go: functions, types, imports and exports

Names that start with an upper-case letter are exported.  Types are declared at the top level;
structures are classes and interfaces are interfaces, and every other type is an alias.  A method
belongs to the type of its receiver where the file declares that as a structure or an interface,
and is a free function `Type.method` otherwise.  What a type embeds, it extends.
-/
import Codemap.Facts.Basic
import Codemap.Facts.Doc
import Codemap.Text.Case

namespace Codemap.Facts.Go

open Codemap.Syntax

/-! ## 1. Names and types -/

/-- Whether a name is exported: its first letter is in upper case. -/
def isExportedName (name : String) : Bool :=
  match name.toList with
  | c :: _ => Text.isUpper c
  | [] => false

/-- The visibility of a member. -/
def visibility (name : String) : Visibility :=
  if isExportedName name then .publicAccess else .privateAccess

/-- A type without the stars before it and the arguments after it. -/
def bareType (raw : List Char) : List Char :=
  Text.trim (((Text.trim raw).dropWhile (· == '*')).takeWhile (· != '['))

/-- The documentation of a declaration. -/
def doc? (c : Cursor) : Option String := lineDoc? c "comment"

/-- The variable and the type of a receiver. -/
structure Receiver where
  selfName : Option String
  type : String
deriving Repr, DecidableEq

/-- The receiver of a method. -/
def receiver? (n : Node) : Option Receiver := do
  let list ← n.field? "receiver"
  let declaration ← list.namedChildren.find? fun p => p.kind == "parameter_declaration"
  let type ← declaration.fieldText? "type"
  return ⟨declaration.fieldText? "name", onString bareType type⟩

/-! ## 2. Functions -/

/-- The children that fill a field. -/
def allInField (n : Node) (field : String) : List Node :=
  n.children.filter fun c => c.field == some field

/-- The parameters that one declaration in a list makes. -/
def parametersOf (n : Node) : List Parameter :=
  let type := n.fieldText? "type"
  match n.kind with
  | "parameter_declaration" =>
    match allInField n "name" with
    | [] => [⟨"_", type, false, none⟩]
    | names => names.map fun name => ⟨name.text, type, false, none⟩
  | "variadic_parameter_declaration" =>
    [⟨(n.fieldText? "name").getD "_", type.map ("..." ++ ·), false, none⟩]
  | _ => []

/-- The parameters of a function. -/
def parameters (n : Node) : List Parameter :=
  match n.field? "parameters" with
  | some list => list.namedChildren.flatMap parametersOf
  | none => []

/-- The function at a place, under its names. -/
def function (path : String) (c : Cursor) (name qualifiedName : String) : Function where
  name
  qualifiedName
  parameters := parameters c.node
  returnType := c.node.fieldText? "result"
  isExported := isExportedName name
  isAsync := false
  location := .ofSpan path c.node.span
  doc := doc? c

/-! ## 3. Types -/

/-- A specification of a type: its name, its place and the type it stands for. -/
structure Spec where
  name : String
  place : Cursor
  type : Node

/-- The specification at a place. -/
def spec? (c : Cursor) : Option Spec := do
  if c.kind != "type_spec" && c.kind != "type_alias" then none
  return ⟨← c.node.fieldText? "name", c, ← c.node.field? "type"⟩

/-- The types that a file declares at the top level. -/
def specs (tree : Node) : List Spec :=
  (Cursor.top tree).namedChildren.flatMap fun declaration =>
    if declaration.kind == "type_declaration" then declaration.namedChildren.filterMap spec?
    else []

/-- The kind of type that a specification makes. -/
def Spec.kind (s : Spec) : TypeKind :=
  match s.type.kind with
  | "struct_type" => .classType
  | "interface_type" => .interfaceType
  | _ => .aliasType

/-- A structure with what one of its fields adds. -/
def addField (path : String) (t : TypeDecl) (n : Node) : TypeDecl :=
  if n.kind == "field_declaration" then
    let type := n.fieldText? "type"
    match allInField n "name" with
    | [] => { t with supertypes := t.supertypes ++ (type.map (onString bareType)).toList }
    | names =>
      { t with
        properties := t.properties ++ names.map fun name =>
          { name := name.text
            type
            visibility := visibility name.text
            isStatic := false
            isOptional := (type.bind fun s => s.toList.head?) == some '*'
            location := .ofSpan path n.span } }
  else t

/-- A method as a member of a type. -/
def method (path typeName : String) (isAbstract : Bool) (c : Cursor) (name : String) : Method where
  function := function path c name (memberName typeName name)
  visibility := visibility name
  isStatic := false
  isAbstract

/-- The kinds of elements by which an interface lists a method. -/
def methodElementKinds : List String := ["method_elem", "method_spec"]

/-- The kinds of elements by which an interface embeds a type. -/
def typeElementKinds : List String :=
  ["type_elem", "constraint_elem", "type_identifier", "qualified_type"]

/-- An interface with what one of its elements adds.  Grammars differ in how they call elements. -/
def addElement (path : String) (t : TypeDecl) (c : Cursor) : TypeDecl :=
  if methodElementKinds.contains c.kind then
    match c.node.fieldText? "name" with
    | some name => { t with methods := t.methods ++ [method path t.name true c name] }
    | none => t
  else if typeElementKinds.contains c.kind then
    { t with supertypes := t.supertypes ++ [onString bareType c.text] }
  else t

/-- The type that a specification declares, without the methods declared outside of it. -/
def typeOfSpec (path : String) (s : Spec) : TypeDecl :=
  let shell :=
    { TypeDecl.bare s.name s.kind (.ofSpan path s.place.node.span) with
      isExported := isExportedName s.name
      doc := doc? s.place <|> s.place.parent.bind doc? }
  match s.kind with
  | .classType =>
    match s.type.childOfKind? "field_declaration_list" with
    | some fields => fields.namedChildren.foldl (addField path) shell
    | none => shell
  | .interfaceType =>
    match s.place.field? "type" with
    | some type => type.namedChildren.foldl (addElement path) shell
    | none => shell
  | _ => shell

/-- The first type that methods of `name` may belong to gets the method `m`. -/
def attach (name : String) (m : Method) : List TypeDecl → List TypeDecl
  | [] => []
  | t :: ts =>
    if t.name == name && t.kind != .aliasType then { t with methods := t.methods ++ [m] } :: ts
    else t :: attach name m ts

/-- The types with the method that is declared at a place. -/
def attachMethod (path : String) (ts : List TypeDecl) (c : Cursor) : List TypeDecl :=
  if c.kind == "method_declaration" then
    match c.node.fieldText? "name", receiver? c.node with
    | some name, some r => attach r.type (method path r.type false c name) ts
    | _, _ => ts
  else ts

/-- All types of a tree. -/
def types (path : String) (tree : Node) : List TypeDecl :=
  (Cursor.top tree).namedChildren.foldl (attachMethod path) ((specs tree).map (typeOfSpec path))

/-- The free function that is declared at a place; `owners` are the types that have methods of
their own. -/
def freeFunction? (path : String) (owners : List String) (c : Cursor) : Option Function := do
  let name ← c.node.fieldText? "name"
  match c.kind with
  | "function_declaration" => return function path c name name
  | "method_declaration" =>
    let r ← receiver? c.node
    if owners.contains r.type then none
    else return function path c name (memberName r.type name)
  | _ => none

/-- All free functions of a tree. -/
def functions (path : String) (tree : Node) : List Function :=
  let owners := ((specs tree).filter fun s => s.kind != .aliasType).map (·.name)
  (Cursor.top tree).namedChildren.filterMap (freeFunction? path owners)

/-! ## 4. Imports and exports -/

/-- The import that a node describes. -/
def import? (path : String) (n : Node) : Option Import :=
  if n.kind == "import_spec" then
    (n.fieldText? "path").map fun literal =>
      let source := onString unquote literal
      let package := onString (Text.lastPart '/') source
      let binding := (Binding.everything package).withAlias (n.fieldText? "name")
      ⟨source, [binding], .ofSpan path n.span⟩
  else none

/-- All imports of a tree. -/
def imports (path : String) (tree : Node) : List Import := tree.preorder.filterMap (import? path)

/-- The export of a name that is declared by a node. -/
def export? (path name : String) (n : Node) : Option Export :=
  if isExportedName name then some ⟨none, [.named name], .ofSpan path n.span⟩ else none

/-- The exports of a tree, in source order: functions and types, not methods. -/
def exports (path : String) (tree : Node) : List Export :=
  let ofFunctions := tree.namedChildren.filterMap fun n =>
    if n.kind == "function_declaration" then
      (n.fieldText? "name").bind fun name => export? path name n
    else none
  let ofTypes := (specs tree).filterMap fun s => export? path s.name s.place.node
  (ofFunctions ++ ofTypes).mergeSort fun a b =>
    a.location.startLine < b.location.startLine ||
      (a.location.startLine == b.location.startLine &&
        a.location.startColumn ≤ b.location.startColumn)

end Codemap.Facts.Go
