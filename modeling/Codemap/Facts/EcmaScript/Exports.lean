/-
# ECMAScript: imports and exports

Imports are import statements, `import('m')` and `require('m')`; exports are export statements
and assignments to `module.exports` or to a member of it.
-/
import Codemap.Facts.Doc
import Codemap.Facts.Basic

namespace Codemap.Facts.EcmaScript

open Codemap.Syntax

/-! ## 1. Names bound by the surroundings -/

/-- The kinds of function expressions. -/
def functionKinds : List String :=
  ["function_expression", "function", "arrow_function", "generator_function"]

/-- The declared name of a node. -/
def declaredName (n : Node) : String := (n.fieldText? "name").getD anonymous

/-- The name that the declaration or assignment around an expression binds it to. -/
def boundName? (c : Cursor) : Option String := do
  let parent := (← c.parent).node
  match parent.kind with
  | "variable_declarator" =>
    let name ← parent.field? "name"
    if name.kind == "identifier" then some name.text else none
  | "assignment_expression" =>
    let left ← parent.field? "left"
    match left.kind with
    | "identifier" => some left.text
    | "member_expression" => left.fieldText? "property"
    | _ => none
  | _ => none

/-- Whether a text names what a file exports as a whole, or a member of it. -/
def isExportTarget (left : String) : Bool :=
  left == "module.exports" || "module.exports.".toList.isPrefixOf left.toList
    || "exports.".toList.isPrefixOf left.toList

/-- Whether a node is part of an export statement, or of an assignment to an export target. -/
def isExportedPlace (c : Cursor) : Bool :=
  c.hasAncestor ["export_statement"]
    || c.ancestors.any fun a =>
      a.kind == "assignment_expression"
        && ((a.node.fieldText? "left").map isExportTarget).getD false

/-! ## 2. Imports -/

/-- The names that the clause of an import statement binds. -/
def clauseBindings (clause : Node) : List Binding :=
  clause.namedChildren.flatMap fun c =>
    match c.kind with
    | "identifier" => [.byDefault c.text]
    | "namespace_import" =>
      match c.namedChildren.getLast? with
      | some name => [.everything name.text]
      | none => []
    | "named_imports" =>
      c.namedChildren.filterMap fun s =>
        if s.kind != "import_specifier" then none
        else (s.fieldText? "name").map fun name =>
          (Binding.named (onString unquote name)).withAlias (s.fieldText? "alias")
    | _ => []

/-- The import that an import statement describes. -/
def statementImport? (path : String) (n : Node) : Option Import := do
  let bindings := match n.childOfKind? "import_clause" with
    | some clause => clauseBindings clause
    | none => []
  let requireClause := n.childOfKind? "import_require_clause"
  let required := match requireClause.bind (·.childOfKind? "identifier") with
    | some name => [Binding.byDefault name.text]
    | none => []
  let source ← (n.fieldText? "source") <|> requireClause.bind (·.fieldText? "source")
  return ⟨onString unquote source, bindings ++ required, .ofSpan path n.span⟩

/-- The first string among the arguments of a call. -/
def firstString? (call : Node) : Option String := do
  let arguments ← call.field? "arguments"
  let s ← arguments.namedChildren.find? fun a => a.kind == "string"
  return onString unquote s.text

/-- The import that a call of `import` describes. -/
def dynamicImport? (path : String) (n : Node) : Option Import := do
  let function ← n.field? "function"
  if function.kind != "import" then none
  let source ← firstString? n
  return ⟨source, [], .ofSpan path n.span⟩

/-- The names that the declaration around a call of `require` binds. -/
def requireBindings (call : Cursor) : List Binding :=
  match call.parent with
  | none => []
  | some parent =>
    if parent.kind != "variable_declarator" then []
    else match parent.node.field? "name" with
      | none => []
      | some name =>
        match name.kind with
        | "identifier" => [.byDefault name.text]
        | "object_pattern" =>
          name.namedChildren.filterMap fun p =>
            match p.kind with
            | "shorthand_property_identifier_pattern" => some (.named p.text)
            | "pair_pattern" =>
              (p.fieldText? "key").map fun key =>
                (Binding.named key).withAlias (p.fieldText? "value")
            | _ => none
        | _ => []

/-- The import that a call of `require` on a string describes. -/
def requireImport? (path : String) (call : Cursor) : Option Import := do
  let function ← call.node.field? "function"
  if function.kind != "identifier" || function.text != "require" then none
  let arguments ← call.node.field? "arguments"
  if arguments.kind != "arguments" then none
  let first ← arguments.namedChildren.head?
  if first.kind != "string" then none
  return ⟨onString unquote first.text, requireBindings call, .ofSpan path call.node.span⟩

/-- Reading order of imports. -/
def importBefore (a b : Import) : Bool :=
  a.location.startLine < b.location.startLine
    || (a.location.startLine == b.location.startLine
      && a.location.startColumn ≤ b.location.startColumn)

/-- All imports of a tree, in reading order. -/
def imports (path : String) (tree : Node) : List Import :=
  let places := (Cursor.top tree).walk
  let direct := places.filterMap fun c =>
    match c.kind with
    | "import_statement" => statementImport? path c.node
    | "call_expression" => dynamicImport? path c.node
    | _ => none
  let required := places.filterMap fun c =>
    if c.kind == "call_expression" then requireImport? path c else none
  (direct ++ required).mergeSort importBefore

/-! ## 3. Exports -/

/-- The names that an exported declaration introduces. -/
def declarationNames (n : Node) : List String :=
  if n.kind == "lexical_declaration" || n.kind == "variable_declaration" then
    n.namedChildren.filterMap fun d =>
      if d.kind == "variable_declarator" then d.fieldText? "name" else none
  else (n.fieldText? "name").toList

/-- The names in the braces of an export statement. -/
def exportList (clause : Node) : List Binding :=
  clause.namedChildren.filterMap fun s =>
    if s.kind != "export_specifier" then none
    else (s.fieldText? "name").map fun name =>
      let alias? := (s.fieldText? "alias").map (onString unquote)
      { Binding.named (onString unquote name) with alias?, isDefault := alias? == some "default" }

/-- The names that an export statement exports. -/
def exportBindings (n : Node) : List Binding :=
  match n.field? "declaration" with
  | some declaration =>
    (declarationNames declaration).map
      (if n.hasToken "default" then Binding.byDefault else Binding.named)
  | none =>
    match n.field? "value" with
    | some value =>
      let name :=
        if value.kind == "identifier" then value.text
        else (value.fieldText? "name").getD "default"
      [.byDefault name]
    | none =>
      match n.childOfKind? "export_clause" with
      | some clause => exportList clause
      | none =>
        match n.childOfKind? "namespace_export" with
        | some all =>
          match all.namedChildren.getLast? with
          | some name => [.everything (onString unquote name.text)]
          | none => []
        | none => if n.hasToken "*" then [.everything "*"] else []

/-- The export that an export statement describes. -/
def statementExport (path : String) (n : Node) : Export where
  source := (n.fieldText? "source").map (onString unquote)
  bindings := exportBindings n
  location := .ofSpan path n.span

/-- What comes after the last dot of a name. -/
def lastMember (name : List Char) : List Char :=
  match Text.cutLast '.' name with
  | some (_, last) => last
  | none => name

/-- The names exported by assigning `right` to `module.exports`. -/
def assignedNames (right : Node) : List Binding :=
  match right.kind with
  | "object" =>
    right.namedChildren.filterMap fun entry =>
      match entry.kind with
      | "shorthand_property_identifier" => some (.named entry.text)
      | "pair" | "method_definition" =>
        (entry.fieldText? "key" <|> entry.fieldText? "name").map fun k =>
          .named (onString unquote k)
      | _ => none
  | "identifier" => [.byDefault right.text]
  | _ => [.byDefault ((right.fieldText? "name").getD "default")]

/-- The export that an assignment describes. -/
def assignmentExport? (path : String) (n : Node) : Option Export := do
  let left ← n.fieldText? "left"
  if !isExportTarget left then none
  let bindings ←
    if left == "module.exports" then (n.field? "right").map assignedNames
    else some [.named (onString lastMember left)]
  return ⟨none, bindings, .ofSpan path n.span⟩

/-- All exports of a tree. -/
def exports (path : String) (tree : Node) : List Export :=
  (Cursor.top tree).walk.filterMap fun c =>
    match c.kind with
    | "export_statement" => some (statementExport path c.node)
    | "assignment_expression" => assignmentExport? path c.node
    | _ => none

/-- The names of the file's own declarations that it exports by listing them. -/
def listedNames (path : String) (tree : Node) : List String :=
  (exports path tree).flatMap fun e =>
    if e.source.isNone then e.bindings.map (·.name) else []

end Codemap.Facts.EcmaScript
