/-
# Java: types, imports and exports

There are no free functions; all functions are methods of classes, interfaces, enumerations and
records.  What is public is exported.  The constants of an enumeration are static properties, the
components of a record private ones.
-/
import Codemap.Facts.Basic
import Codemap.Facts.Doc

namespace Codemap.Facts.Java

open Codemap.Syntax

/-! ## 1. Modifiers and documentation -/

/-- The kinds of type declarations. -/
def typeKinds : List String :=
  ["class_declaration", "interface_declaration", "enum_declaration", "record_declaration"]

/-- The kinds of block comments. -/
def blockCommentKinds : List String := ["block_comment", "comment"]

/-- Whether a declaration has a modifier. -/
def hasModifier (n : Node) (word : String) : Bool :=
  match n.childOfKind? "modifiers" with
  | some m => m.hasToken word
  | none => false

/-- The visibility that the modifiers of a member state; members are public without one. -/
def visibility (n : Node) : Visibility :=
  ([.publicAccess, .privateAccess, .protectedAccess].find? fun v =>
    hasModifier n v.keyword).getD .publicAccess

/-- The documentation of a declaration. -/
def doc? (c : Cursor) : Option String := blockDoc? c blockCommentKinds "/**"

/-! ## 2. Members -/

/-- The parameter that a node describes. -/
def parameter? (n : Node) : Option Parameter :=
  match n.kind with
  | "formal_parameter" =>
    (n.fieldText? "name").map fun name => ⟨name, n.fieldText? "type", false, none⟩
  | "spread_parameter" => do
    let declarator ← n.childOfKind? "variable_declarator"
    let name ← declarator.fieldText? "name"
    let type := n.namedChildren.find? fun c =>
      c.kind != "variable_declarator" && c.kind != "modifiers"
    return ⟨name, type.map (·.text ++ "..."), false, none⟩
  | _ => none

/-- The parameters that a list of them describes. -/
def parametersIn (list : Node) : List Parameter := list.namedChildren.filterMap parameter?

/-- The parameters of a method. -/
def parameters (n : Node) : List Parameter :=
  match n.field? "parameters" with
  | some list => parametersIn list
  | none => []

/-- The method at a place, as a member of a type. -/
def method (path : String) (owner : TypeDecl) (c : Cursor) : Method :=
  let n := c.node
  let inInterface := owner.kind == .interfaceType
  let name := (n.fieldText? "name").getD anonymous
  let isStatic := hasModifier n "static"
  let isBare := (n.field? "body").isNone && !isStatic && !hasModifier n "default"
  { function :=
      { name
        qualifiedName := memberName owner.name name
        parameters := parameters n
        returnType := n.fieldText? "type"
        isExported := owner.isExported && (inInterface || hasModifier n "public")
        isAsync := false
        location := .ofSpan path n.span
        doc := doc? c }
    visibility := visibility n
    isStatic
    isAbstract := hasModifier n "abstract" || (inInterface && isBare) }

/-- The properties that a declaration of fields makes, one for each name. -/
def fieldProperties (path : String) (owner : TypeDecl) (n : Node) : List Property :=
  let declarators := n.children.filter fun d => d.field == some "declarator"
  declarators.filterMap fun d => (d.fieldText? "name").map fun name =>
    { name
      type := n.fieldText? "type"
      visibility := visibility n
      isStatic := owner.kind == .interfaceType || hasModifier n "static"
      isOptional := false
      location := .ofSpan path n.span }

/-- A type with the methods or properties that a member of its body adds. -/
def addMember (path : String) (t : TypeDecl) (c : Cursor) : TypeDecl :=
  match c.kind with
  | "enum_constant" =>
    match c.node.fieldText? "name" with
    | some name =>
      { t with
        properties := t.properties ++
          [⟨name, none, .publicAccess, true, false, .ofSpan path c.node.span⟩] }
    | none => t
  | "method_declaration" | "constructor_declaration" =>
    { t with methods := t.methods ++ [method path t c] }
  | "field_declaration" | "constant_declaration" =>
    { t with properties := t.properties ++ fieldProperties path t c.node }
  | _ => t

/-! ## 3. Types -/

/-- The kind of type that a declaration makes. -/
def kindOf (declaration : String) : TypeKind :=
  match declaration with
  | "interface_declaration" => .interfaceType
  | "enum_declaration" => .enumType
  | _ => .classType

/-- The types that a clause lists. -/
def typesIn (clause : Node) : List String :=
  ((clause.childOfKind? "type_list").getD clause).namedChildren.map fun t =>
    onString baseType t.text

/-- The types that a declaration extends: the class first, then interfaces. -/
def supertypes (n : Node) : List String :=
  let superclass := ((n.field? "superclass").bind fun s => s.namedChildren.head?).map fun b =>
    onString baseType b.text
  let extended := match n.childOfKind? "extends_interfaces" with
    | some clause => typesIn clause
    | none => []
  superclass.toList ++ extended

/-- The interfaces that a declaration implements. -/
def interfaces (n : Node) : List String :=
  match n.field? "interfaces" with
  | some clause => typesIn clause
  | none => []

/-- The properties that the components of a record make. -/
def componentProperties (path : String) (n : Node) : List Property :=
  if n.kind == "record_declaration" then
    match n.field? "parameters" with
    | some list => (parametersIn list).map fun p =>
        ⟨p.name, p.type, .privateAccess, false, false, .ofSpan path list.span⟩
    | none => []
  else []

/-- The members of a body; those of an enumeration may stand in a part of their own, after the
constants. -/
def bodyMembers (body : Cursor) : List Cursor :=
  let more := match body.childOfKind? "enum_body_declarations" with
    | some part => part.namedChildren
    | none => []
  body.namedChildren ++ more

/-- The type that is declared at a place. -/
def typeAt? (path : String) (c : Cursor) : Option TypeDecl :=
  if typeKinds.contains c.kind then
    (c.node.fieldText? "name").map fun name =>
      let shell :=
        { TypeDecl.bare name (kindOf c.kind) (.ofSpan path c.node.span) with
          isExported := hasModifier c.node "public"
          isAbstract := hasModifier c.node "abstract"
          doc := doc? c
          supertypes := supertypes c.node
          interfaces := interfaces c.node
          properties := componentProperties path c.node }
      match c.field? "body" with
      | some body => (bodyMembers body).foldl (addMember path) shell
      | none => shell
  else none

/-- All types of a tree. -/
def types (path : String) (tree : Node) : List TypeDecl :=
  (Cursor.top tree).walk.filterMap (typeAt? path)

/-! ## 4. Imports and exports -/

/-- The import that a node describes. -/
def import? (path : String) (n : Node) : Option Import := do
  if n.kind != "import_declaration" then none
  let name ← n.children.find? fun c => c.kind == "scoped_identifier" || c.kind == "identifier"
  let binding :=
    if n.hasToken "asterisk" then .everything "*"
    else .named (onString (Text.lastPart '.') name.text)
  return ⟨name.text, [binding], .ofSpan path n.span⟩

/-- All imports of a tree, which stand in source order. -/
def imports (path : String) (tree : Node) : List Import := tree.preorder.filterMap (import? path)

/-- The exports of a tree: its public types, as far as they are not nested. -/
def exports (path : String) (tree : Node) : List Export :=
  tree.namedChildren.filterMap fun n =>
    if typeKinds.contains n.kind && hasModifier n "public" then
      (n.fieldText? "name").map fun name => ⟨none, [.named name], .ofSpan path n.span⟩
    else none

end Codemap.Facts.Java
