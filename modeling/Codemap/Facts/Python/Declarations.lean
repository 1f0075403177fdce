/-
# Python: functions, classes, imports and exports

A name of the module is exported when it does not start with an underscore, or, where the module
lists its exports in `__all__`, when it is listed.  A function in the body of a class is a
method; every other function is free.  Definitions start at their decorators.
-/
import Codemap.Facts.Doc
import Codemap.Facts.Basic

namespace Codemap.Facts.Python

open Codemap.Syntax

/-! ## 1. Places of definitions -/

/-- What comes after the last dot of a name. -/
def lastSegment (name : List Char) : List Char :=
  match Text.cutLast '.' name with
  | some (_, last) => last
  | none => name

/-- The definition with its decorators. -/
def outerDefinition (c : Cursor) : Cursor :=
  match c.parent with
  | some p => if p.kind == "decorated_definition" then p else c
  | none => c

/-- Whether a definition stands at the top of the module. -/
def isModuleLevel (c : Cursor) : Bool :=
  match (outerDefinition c).parent with
  | some p => p.kind == "module"
  | none => false

/-- The class in whose body a definition stands. -/
def owningClass? (c : Cursor) : Option Cursor := do
  let block ← (outerDefinition c).parent
  if block.kind != "block" then none
  let owner ← block.parent
  if owner.kind == "class_definition" then some owner else none

/-- The name of a decorator, without its module and its arguments. -/
def decoratorName (d : Node) : String :=
  onString (fun s => lastSegment ((Text.trim (s.dropWhile (· == '@'))).takeWhile (· != '('))) d.text

/-- The names of the decorators of a definition. -/
def decoratorNames (c : Cursor) : List String :=
  let outer := outerDefinition c
  if outer.kind != "decorated_definition" then []
  else (outer.node.namedChildren.filter fun d => d.kind == "decorator").map decoratorName

/-! ## 2. Exports -/

/-- The inside of a string literal. -/
def stringInside (s : Node) : String :=
  onString (Text.strip fun c => c.toNat == 34 || c.toNat == 39) s.text

/-- The statement in which a module lists its exports, with the names it lists. -/
def exportList? (tree : Node) : Option (Node × List String) :=
  tree.namedChildren.findSome? fun stmt => do
    if stmt.kind != "expression_statement" then none
    let assignment ← stmt.namedChildren.find? fun n => n.kind == "assignment"
    if assignment.fieldText? "left" != some "__all__" then none
    let names := match assignment.field? "right" with
      | some list => (list.namedChildren.filter fun s => s.kind == "string").map stringInside
      | none => []
    return (stmt, names)

/-- Whether a name is exported, given the listed names of its module. -/
def isExportedName (listed : Option (List String)) (name : String) (moduleLevel : Bool) : Bool :=
  moduleLevel && match listed with
    | some names => names.contains name
    | none => name.toList.head? != some '_'

/-- The names that a module lists, if it lists its exports. -/
def listedNames? (tree : Node) : Option (List String) := (exportList? tree).map (·.2)

/-- All exports of a tree. -/
def exports (path : String) (tree : Node) : List Export :=
  match exportList? tree with
  | some (stmt, names) => [⟨none, names.map Binding.named, .ofSpan path stmt.span⟩]
  | none => []

/-! ## 3. Functions -/

/-- The words of the string that a body starts with. -/
def doc? (definition : Node) : Option String := do
  let first ← (← definition.field? "body").namedChildren.head?
  if first.kind != "expression_statement" then none
  let s ← first.namedChildren.head?
  if s.kind == "string" then some (onString docStringWords s.text) else none

/-- The visibility that a name asks for with its underscores. -/
def nameVisibility (name : String) : Visibility :=
  let s := name.toList
  if ['_', '_'].isPrefixOf s && ['_', '_'].isSuffixOf s then .publicAccess
  else if ['_', '_'].isPrefixOf s then .privateAccess
  else if ['_'].isPrefixOf s then .protectedAccess
  else .publicAccess

/-- The parameter that a node describes. -/
def parameter? (p : Node) : Option Parameter :=
  match p.kind with
  | "identifier" | "list_splat_pattern" | "dictionary_splat_pattern" => some (.named p.text)
  | "typed_parameter" =>
    p.namedChildren.head?.map fun name => ⟨name.text, p.fieldText? "type", false, none⟩
  | "default_parameter" | "typed_default_parameter" =>
    (p.fieldText? "name").map fun name =>
      let default := p.fieldText? "value"
      ⟨name, p.fieldText? "type", default.isSome, default⟩
  | _ => none

/-- The parameters without the object or the class that a method is called on. -/
def dropReceiver : List Parameter → List Parameter
  | p :: ps => if p.name == "self" || p.name == "cls" then ps else p :: ps
  | [] => []

/-- The parameters of a function. -/
def parameters (function : Node) : List Parameter :=
  match function.field? "parameters" with
  | some ps => ps.namedChildren.filterMap parameter?
  | none => []

/-- The name of a definition, empty if it has none. -/
def nameOf (definition : Node) : String := (definition.fieldText? "name").getD ""

/-- The function at a place. -/
def function (path : String) (c : Cursor) (qualifiedName : String)
    (isExported dropsReceiver : Bool) : Function where
  name := nameOf c.node
  qualifiedName
  parameters := if dropsReceiver then dropReceiver (parameters c.node) else parameters c.node
  returnType := c.node.fieldText? "return_type"
  isExported
  isAsync := c.node.hasToken "async"
  location := .ofSpan path (outerDefinition c).node.span
  doc := doc? c.node

/-- The free function at a place, if there is one. -/
def freeFunction? (path : String) (listed : Option (List String)) (c : Cursor) :
    Option Function := do
  if c.kind != "function_definition" || (owningClass? c).isSome then none
  let name ← c.node.fieldText? "name"
  return function path c name (isExportedName listed name (isModuleLevel c)) false

/-- All free functions of a tree. -/
def functions (path : String) (tree : Node) : List Function :=
  (Cursor.top tree).walk.filterMap (freeFunction? path (listedNames? tree))

/-! ## 4. Classes -/

/-- Base classes that make a class an enumeration. -/
def enumBases : List String := ["Enum", "IntEnum", "StrEnum", "Flag", "IntFlag"]

/-- A class with what one of its arguments says about it. -/
def addBase (t : TypeDecl) (argument : Node) : TypeDecl :=
  match argument.kind with
  | "keyword_argument" =>
    let value := (argument.fieldText? "value").map (onString lastSegment)
    if argument.fieldText? "name" == some "metaclass" && value == some "ABCMeta" then
      { t with isAbstract := true }
    else t
  | "identifier" | "attribute" | "subscript" =>
    let short := onString (fun s => lastSegment (s.takeWhile (· != '['))) argument.text
    let t :=
      if enumBases.contains short then { t with kind := .enumType }
      else if short == "Protocol" then { t with kind := .interfaceType }
      else if short == "ABC" then { t with isAbstract := true }
      else t
    if short != "object" && short != "Generic" then
      { t with supertypes := t.supertypes ++ [argument.text] }
    else t
  | _ => t

/-- The method that a function in the body of a class is. -/
def method (path typeName : String) (typeExported : Bool) (c : Cursor) : Method :=
  let decorators := decoratorNames c
  let name := nameOf c.node
  let visibility := nameVisibility name
  { function := function path c (memberName typeName name)
      (typeExported && visibility == .publicAccess) (!decorators.contains "staticmethod")
    visibility
    isStatic := decorators.contains "staticmethod" || decorators.contains "classmethod"
    isAbstract := decorators.contains "abstractmethod" }

/-- The property that an assignment in the body of a class declares. -/
def classProperty? (path : String) (kind : TypeKind) (stmt : Node) : Option Property := do
  let assignment ← stmt.namedChildren.find? fun n => n.kind == "assignment"
  let left ← assignment.field? "left"
  if left.kind != "identifier" then none
  let s := left.text.toList
  if ['_', '_'].isPrefixOf s && ['_', '_'].isSuffixOf s then none
  return {
    name := left.text
    type := assignment.fieldText? "type"
    visibility := nameVisibility left.text
    isStatic := kind == .enumType
    isOptional := false
    location := .ofSpan path stmt.span }

/-- The property that an assignment to a member of the object declares. -/
def instanceProperty? (path : String) (n : Node) : Option Property := do
  if n.kind != "assignment" then none
  let left ← n.field? "left"
  if left.kind != "attribute" || left.fieldText? "object" != some "self" then none
  let name ← left.fieldText? "attribute"
  return {
    name
    type := n.fieldText? "type"
    visibility := nameVisibility name
    isStatic := false
    isOptional := false
    location := .ofSpan path n.span }

/-- The properties that the body of a constructor declares. -/
def instanceProperties (path : String) (constructor : Node) : List Property :=
  match constructor.field? "body" with
  | some body => body.preorder.filterMap (instanceProperty? path)
  | none => []

/-- A type with a property, unless it has one of that name. -/
def addProperty (t : TypeDecl) (p : Property) : TypeDecl :=
  if t.properties.any fun q => q.name == p.name then t
  else { t with properties := t.properties ++ [p] }

/-- A type with a method; a constructor brings the properties it declares. -/
def addMethod (path : String) (t : TypeDecl) (definition : Cursor) : TypeDecl :=
  let m := method path t.name t.isExported definition
  let t := { t with isAbstract := t.isAbstract || m.isAbstract }
  let t :=
    if m.name == "__init__" then
      (instanceProperties path definition.node).foldl addProperty t
    else t
  { t with methods := t.methods ++ [m] }

/-- A type with what a statement of its body adds. -/
def addStatement (path : String) (t : TypeDecl) (stmt : Cursor) : TypeDecl :=
  match stmt.kind with
  | "function_definition" => addMethod path t stmt
  | "decorated_definition" =>
    match stmt.field? "definition" with
    | some d => if d.kind == "function_definition" then addMethod path t d else t
    | none => t
  | "expression_statement" =>
    match classProperty? path t.kind stmt.node with
    | some p => addProperty t p
    | none => t
  | _ => t

/-- The class at a place, if it has a name. -/
def classType? (path : String) (listed : Option (List String)) (c : Cursor) :
    Option TypeDecl := do
  if c.kind != "class_definition" then none
  let name ← c.node.fieldText? "name"
  let shell :=
    { TypeDecl.bare name .classType (.ofSpan path (outerDefinition c).node.span) with
      isExported := isExportedName listed name (isModuleLevel c)
      doc := doc? c.node }
  let withBases := match c.node.field? "superclasses" with
    | some arguments => arguments.namedChildren.foldl addBase shell
    | none => shell
  return match c.field? "body" with
    | some body => body.namedChildren.foldl (addStatement path) withBases
    | none => withBases

/-- All classes of a tree. -/
def types (path : String) (tree : Node) : List TypeDecl :=
  (Cursor.top tree).walk.filterMap (classType? path (listedNames? tree))

/-! ## 5. Imports -/

/-- The binding that an imported name describes. -/
def importedName? (n : Node) : Option Binding :=
  match n.kind with
  | "dotted_name" | "identifier" => some (.named n.text)
  | "aliased_import" =>
    (n.fieldText? "name").map fun name => (Binding.named name).withAlias (n.fieldText? "alias")
  | _ => none

/-- The imports that a node describes: one for each module of an import statement. -/
def importsAt (path : String) (n : Node) : List Import :=
  let names := (n.children.filter fun c => c.field == some "name").filterMap importedName?
  match n.kind with
  | "import_statement" =>
    names.map fun b => ⟨b.name, [{ b with isNamespace := true }], .ofSpan path n.span⟩
  | "import_from_statement" =>
    match n.fieldText? "module_name" with
    | some source =>
      let all := if (n.namedChildren.any fun c => c.kind == "wildcard_import") then
          [Binding.everything "*"]
        else []
      [⟨source, names ++ all, .ofSpan path n.span⟩]
    | none => []
  | _ => []

/-- Reading order of imports. -/
def importBefore (a b : Import) : Bool :=
  a.location.startLine < b.location.startLine
    || (a.location.startLine == b.location.startLine
      && a.location.startColumn ≤ b.location.startColumn)

/-- All imports of a tree, in reading order. -/
def imports (path : String) (tree : Node) : List Import :=
  ((Cursor.top tree).walk.flatMap fun c => importsAt path c.node).mergeSort importBefore

end Codemap.Facts.Python
