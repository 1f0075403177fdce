/-
# ECMAScript: functions and types

Free functions are declarations, and function expressions that a declaration or an assignment
names or that are exported as they stand.  Types are classes (also class expressions with a
name), interfaces, enumerations and type aliases.  The documentation of a declaration stands
before the statement it is part of.
-/
import Codemap.Facts.EcmaScript.Exports

namespace Codemap.Facts.EcmaScript

open Codemap.Syntax

/-! ## 1. Documentation -/

/-- Nodes between a declaration and the statement that its documentation precedes. -/
def statementWrappers : List String :=
  ["variable_declarator", "lexical_declaration", "variable_declaration", "export_statement",
    "expression_statement", "assignment_expression"]

/-- The outermost place that is reached from `c` through `places`, while each is a wrapper. -/
def anchorAmong (c : Cursor) : List Cursor → Cursor
  | [] => c
  | a :: rest => if statementWrappers.contains a.kind then anchorAmong a rest else c

/-- The statement that a declaration is part of. -/
def statementAnchor (c : Cursor) : Cursor := anchorAmong c c.ancestors

/-- The documentation of a declaration. -/
def statementDoc? (c : Cursor) : Option String :=
  blockDoc? (statementAnchor c) ["comment"] "/**"

/-- The place of the first of the decorators that directly precede `c`, or `c` itself. -/
def beforeDecorators : Nat → Cursor → Cursor
  | 0, c => c
  | fuel + 1, c =>
    match c.previous? with
    | some p => if p.kind == "decorator" then beforeDecorators fuel p else c
    | none => c

/-- The documentation of a member of a class, which precedes its decorators. -/
def memberDoc? (c : Cursor) : Option String :=
  blockDoc? (beforeDecorators c.left.length c) ["comment"] "/**"

/-! ## 2. Parameters and functions -/

/-- The type that the annotation in the field `type` states. -/
def typeOf? (n : Node) : Option String := (n.fieldText? "type").map (onString annotatedType)

/-- The parameter that a node describes. -/
def parameter? (n : Node) : Option Parameter :=
  match n.kind with
  | "required_parameter" | "optional_parameter" =>
    (n.fieldText? "pattern").map fun pattern =>
      ⟨pattern, typeOf? n, n.kind == "optional_parameter", n.fieldText? "value"⟩
  | "assignment_pattern" =>
    (n.fieldText? "left").map fun left => ⟨left, none, false, n.fieldText? "right"⟩
  | "identifier" | "rest_pattern" | "object_pattern" | "array_pattern" => some (.named n.text)
  | _ => none

/-- The parameters of a function. -/
def parameters (n : Node) : List Parameter :=
  match n.fieldText? "parameter" with
  | some single => [.named single]
  | none =>
    match n.field? "parameters" with
    | some ps => ps.namedChildren.filterMap parameter?
    | none => []

/-- The type that a function returns. -/
def returnType? (n : Node) : Option String :=
  (n.fieldText? "return_type").map (onString annotatedType)

/-- The function at a place, under a name; `listed` are the names that the file exports by
listing them. -/
def function (path : String) (listed : List String) (c : Cursor) (name : String) : Function where
  name
  qualifiedName := name
  parameters := parameters c.node
  returnType := returnType? c.node
  isExported := isExportedPlace c || listed.contains name
  isAsync := c.node.hasToken "async"
  location := .ofSpan path c.node.span
  doc := statementDoc? c

/-- The name of the free function at a place, if there is one. -/
def functionName? (c : Cursor) : Option String :=
  if c.kind == "function_declaration" || c.kind == "generator_function_declaration" then
    some (declaredName c.node)
  else if functionKinds.contains c.kind then
    boundName? c <|> do
      if (← c.parent).kind == "export_statement" then some (declaredName c.node) else none
  else none

/-- All free functions of a tree. -/
def functions (path : String) (tree : Node) : List Function :=
  let listed := listedNames path tree
  (Cursor.top tree).walk.filterMap fun c =>
    (functionName? c).map (function path listed c)

/-! ## 3. Members of types -/

/-- The visibility of a member: that of its modifier, else private for names that say so. -/
def memberVisibility (n : Node) (name : Option Node) : Visibility :=
  match (n.childOfKind? "accessibility_modifier").bind fun m => Visibility.ofModifier? m.text with
  | some v => v
  | none =>
    match name with
    | some m => if m.kind == "private_property_identifier" then .privateAccess else .publicAccess
    | none => .publicAccess

/-- The method at a place, as a member of a type. -/
def method (path typeName : String) (c : Cursor) : Method :=
  let n := c.node
  let nameNode := n.field? "name"
  let name := (nameNode.map (·.text)).getD anonymous
  { function :=
      { name
        qualifiedName := memberName typeName name
        parameters := parameters n
        returnType := returnType? n
        isExported := isExportedPlace c
        isAsync := n.hasToken "async"
        location := .ofSpan path n.span
        doc := memberDoc? c }
    visibility := memberVisibility n nameNode
    isStatic := n.hasToken "static"
    isAbstract := n.hasToken "abstract" }

/-- The property that a field of a class declares. -/
def fieldProperty? (path : String) (n : Node) : Option Property :=
  (n.field? "name" <|> n.field? "property").map fun name =>
    { name := name.text
      type := typeOf? n
      visibility := memberVisibility n (some name)
      isStatic := n.hasToken "static"
      isOptional := n.hasToken "?"
      location := .ofSpan path n.span }

/-- The property that a parameter of a constructor declares, if it has a modifier. -/
def parameterProperty? (path : String) (p : Node) : Option Property := do
  if p.kind != "required_parameter" && p.kind != "optional_parameter" then none
  if (p.childOfKind? "accessibility_modifier").isNone && !p.hasToken "readonly" then none
  let pattern ← p.field? "pattern"
  return {
    name := pattern.text
    type := typeOf? p
    visibility := memberVisibility p none
    isStatic := false
    isOptional := p.kind == "optional_parameter"
    location := .ofSpan path p.span }

/-- The properties that the parameters of a constructor declare. -/
def parameterProperties (path : String) (n : Node) : List Property :=
  match n.field? "parameters" with
  | some ps => ps.namedChildren.filterMap (parameterProperty? path)
  | none => []

/-- A type with the method or the properties that a member of its body adds. -/
def addMember (path : String) (t : TypeDecl) (c : Cursor) : TypeDecl :=
  match c.kind with
  | "method_definition" =>
    let m := method path t.name c
    let more := if m.name == "constructor" then parameterProperties path c.node else []
    { t with methods := t.methods ++ [m], properties := t.properties ++ more }
  | "abstract_method_signature" =>
    { t with methods := t.methods ++ [{ method path t.name c with isAbstract := true }] }
  | "public_field_definition" | "field_definition" =>
    { t with properties := t.properties ++ (fieldProperty? path c.node).toList }
  | _ => t

/-- A type with the method or the property that a signature adds. -/
def addSignature (path : String) (t : TypeDecl) (c : Cursor) : TypeDecl :=
  match c.kind with
  | "property_signature" =>
    match c.node.field? "name" with
    | some name =>
      { t with
        properties := t.properties ++
          [{ name := name.text
             type := typeOf? c.node
             visibility := memberVisibility c.node (some name)
             isStatic := false
             isOptional := c.node.hasToken "?"
             location := .ofSpan path c.node.span }] }
    | none => t
  | "method_signature" => { t with methods := t.methods ++ [method path t.name c] }
  | _ => t

/-! ## 4. Types -/

/-- The kinds of class declarations and expressions. -/
def classKinds : List String := ["class_declaration", "abstract_class_declaration", "class"]

/-- The supertypes that one part of the heritage of a class names. -/
def heritageSupertypes (part : Node) : List String :=
  match part.kind with
  | "extends_clause" =>
    (part.namedChildren.filter fun b => b.kind != "type_arguments").map fun b =>
      onString baseType b.text
  | "implements_clause" => []
  | _ => [onString baseType part.text]

/-- The interfaces that one part of the heritage of a class names. -/
def heritageInterfaces (part : Node) : List String :=
  if part.kind == "implements_clause" then part.namedChildren.map fun b => onString baseType b.text
  else []

/-- A type that shares what all kinds of types have. -/
def typeShell (path : String) (c : Cursor) (name : String) (kind : TypeKind) : TypeDecl :=
  { TypeDecl.bare name kind (.ofSpan path c.node.span) with
    isExported := isExportedPlace c
    doc := statementDoc? c }

/-- The class at a place, under a name. -/
def classType (path : String) (c : Cursor) (name : String) : TypeDecl :=
  let heritage := match c.node.childOfKind? "class_heritage" with
    | some h => h.namedChildren
    | none => []
  let shell :=
    { typeShell path c name .classType with
      isAbstract := c.kind == "abstract_class_declaration" || c.node.hasToken "abstract"
      supertypes := heritage.flatMap heritageSupertypes
      interfaces := heritage.flatMap heritageInterfaces }
  match c.field? "body" with
  | some body => body.namedChildren.foldl (addMember path) shell
  | none => shell

/-- The interface at a place. -/
def interfaceType (path : String) (c : Cursor) : TypeDecl :=
  let bases := c.node.children.flatMap fun clause =>
    if clause.kind == "extends_type_clause" || clause.kind == "extends_clause" then
      (clause.namedChildren.filter fun b => b.kind != "type_arguments").map fun b =>
        onString baseType b.text
    else []
  let shell :=
    { typeShell path c (declaredName c.node) .interfaceType with supertypes := bases }
  match c.field? "body" with
  | some body => body.namedChildren.foldl (addSignature path) shell
  | none => shell

/-- The type alias at a place; an object type has members. -/
def aliasType (path : String) (c : Cursor) : TypeDecl :=
  let shell := typeShell path c (declaredName c.node) .aliasType
  match c.field? "value" with
  | some value =>
    if value.kind == "object_type" then value.namedChildren.foldl (addSignature path) shell
    else shell
  | none => shell

/-- The name of a member of an enumeration. -/
def enumMember? (n : Node) : Option String :=
  match n.kind with
  | "property_identifier" => some n.text
  | "enum_assignment" => (n.fieldText? "name").map (onString unquote)
  | "string" => some (onString unquote n.text)
  | _ => none

/-- The enumeration at a place; its members are static properties. -/
def enumType (path : String) (c : Cursor) : TypeDecl :=
  let shell := typeShell path c (declaredName c.node) .enumType
  match c.node.field? "body" with
  | some body =>
    { shell with
      properties := body.namedChildren.filterMap fun n =>
        (enumMember? n).map fun name =>
          ⟨name, none, .publicAccess, true, false, .ofSpan path n.span⟩ }
  | none => shell

/-- The name of a class expression: the one it is bound to, else its own. -/
def classExpressionName? (c : Cursor) : Option String :=
  boundName? c <|> c.node.fieldText? "name"

/-- The type that is declared at a place. -/
def typeAt? (path : String) (c : Cursor) : Option TypeDecl :=
  match c.kind with
  | "class_declaration" | "abstract_class_declaration" =>
    some (classType path c (declaredName c.node))
  | "class" => (classExpressionName? c).map (classType path c)
  | "interface_declaration" => some (interfaceType path c)
  | "enum_declaration" => some (enumType path c)
  | "type_alias_declaration" => some (aliasType path c)
  | _ => none

/-- A type that is exported if it says so itself or is listed; its methods follow it. -/
def settleExport (listed : List String) (t : TypeDecl) : TypeDecl :=
  let isExported := t.isExported || listed.contains t.name
  { t with
    isExported
    methods := t.methods.map fun m => { m with function := { m.function with isExported } } }

/-- All types of a tree. -/
def types (path : String) (tree : Node) : List TypeDecl :=
  let listed := listedNames path tree
  (Cursor.top tree).walk.filterMap fun c => (typeAt? path c).map (settleExport listed)

end Codemap.Facts.EcmaScript
