/-
# ECMAScript: classes, modules and statements

Declarations of classes, interfaces, enumerations and type aliases, imports and exports, and the
statements.  A class keeps the decorators before it, except those before `export`, which belong
to the export; a decorated field keeps its decorators, while those of a method stand beside it
in the class body.  The three dialects are closed into one grammar at the end (`parse`).
-/
import Codemap.Grammar.EcmaScript.MarkupRules

namespace Codemap.Grammar.EcmaScript

namespace Rules

variable (r : Rules)

/-! ## 1. Classes -/

/-- `@name`, `@name.member` or `@name(…)`. -/
def decoratorForm : Rule Unit := node "decorator" do
  sym "@"
  oneOf [r.parenthesized, identifier]
  many (oneOf
    [wrap "member_expression" "object" (do sym "."; memberName),
     wrap "call_expression" "function" (do
      opt (do check r.typed; field "type_arguments" r.typeArguments)
      field "arguments" r.arguments)])

/-- What a class extends and implements. -/
def classHeritage : Rule Unit :=
  if r.typed then
    oneOf
      [node "class_heritage" (do extendsClause; opt implementsClause),
        node "class_heritage" implementsClause]
  else node "class_heritage" (do kw "extends"; superExpression)
where
  /-- The expression after `extends`. -/
  superExpression : Rule Unit := do
    oneOf [r.parenthesized, r.functionExpression, r.form .classExpression, r.object,
      namedWord "null" "null", namedWord "this" "this", identifier]
    many (oneOf
      [r.lookup,
       wrap "call_expression" "function" (do
        opt (do
          check r.typed
          field "type_arguments" r.typeArguments
          look (sym "("))
        field "arguments" r.arguments)])
  /-- `extends A<B>`. -/
  extendsClause : Rule Unit := node "extends_clause" do
    kw "extends"
    sepBy1
      (do
        field "value" superExpression
        opt (field "type_arguments" r.typeArguments))
      (sym ",")
  /-- `implements A, B`. -/
  implementsClause : Rule Unit := node "implements_clause" do
    kw "implements"
    sepBy1 r.type (sym ",")

/-- The name, heritage and body of a class whose name is read by `name`. -/
def classRest (name : Rule Unit) : Rule Unit := do
  name
  r.optTypeParameters
  opt r.classHeritage
  field "body" (r.form .classBody)

/-- The name of a class. -/
def className : Rule Unit :=
  field "name" (do
    never (oneOf [kw "implements", kw "extends"])
    identifierAs (if r.typed then "type_identifier" else "identifier"))

/-- `class X { … }` as a declaration. -/
def classDeclaration : Rule Unit :=
  oneOf
    [node "class_declaration" (do
      many (field "decorator" r.decoratorForm)
      kw "class"
      r.classRest r.className),
     do
      check r.typed
      node "abstract_class_declaration" do
        many (field "decorator" r.decoratorForm)
        kw "abstract"
        kw "class"
        r.classRest r.className]

/-- `class { … }` as an expression. -/
def classExpressionForm : Rule Unit := node "class" do
  many (field "decorator" r.decoratorForm)
  kw "class"
  r.classRest (opt r.className)

/-- `static { … }`. -/
def staticBlock : Rule Unit := node "class_static_block" do
  kw "static"
  field "body" r.block

/-- A field of a class, with its decorators. -/
def fieldDefinition : Rule Unit :=
  if r.typed then
    node "public_field_definition" do
      many (field "decorator" r.decoratorForm)
      opt (memberWord "declare")
      opt accessibility
      many (oneOf
        [memberWord "declare", memberWord "static", overrideModifier, memberWord "readonly",
          memberWord "abstract", memberWord "accessor"])
      field "name" r.propertyName
      opt (oneOf [sym "?", op "!" ["!="]])
      r.optTypeAnnotation
      opt r.initializer
      endOfField
  else
    node "field_definition" do
      many (field "decorator" r.decoratorForm)
      opt (memberWord "static")
      field "property" r.propertyName
      opt r.initializer
      endOfField
where
  /-- A field ends where its statement would. -/
  endOfField : Rule Unit := look (oneOf [semicolon, sym ","])

/-- An abstract method. -/
def abstractMethod : Rule Unit := node "abstract_method_signature" do
  opt accessibility
  memberWord "abstract"
  opt overrideModifier
  opt (oneOf [memberWord "get", memberWord "set", sym "*"])
  field "name" r.propertyName
  opt (sym "?")
  r.callSignature

/-- The members of a class. -/
def classBodyForm : Rule Unit := node "class_body" do
  openBrace
  many (oneOf
    ([do r.methodDefinition; opt (sym ";"),
      r.staticBlock] ++
    (if r.typed then
      [do r.abstractMethod; terminator,
       do r.methodSignature; terminator,
       do r.indexSignature; terminator,
       do r.fieldDefinition; terminator,
       r.decoratorForm]
    else [do r.fieldDefinition; terminator]) ++
    [sym ";"]))
  closing "\x7d"
where
  /-- What ends a member. -/
  terminator : Rule Unit := oneOf [sym ",", semicolon]

/-! ## 2. Other declarations -/

/-- `function f() { … }`. -/
def functionDeclaration : Rule Unit :=
  oneOf
    [node "generator_function_declaration" (do
      opt (kw "async")
      kw "function"
      sym "*"
      field "name" (identifierAs "identifier")
      r.callSignature
      field "body" r.block),
     node "function_declaration" (do
      opt (kw "async")
      kw "function"
      field "name" (identifierAs "identifier")
      r.callSignature
      field "body" r.block),
     do
      check r.typed
      node "function_signature" do
        opt (kw "async")
        kw "function"
        opt (sym "*")
        field "name" (identifierAs "identifier")
        r.callSignature
        semicolon]

/-- One name or pattern of a declaration of variables. -/
def variableDeclarator : Rule Unit := node "variable_declarator" do
  field "name" r.bindingTarget
  if r.typed then opt (op "!" ["!="])
  r.optTypeAnnotation
  opt (oneOf [r.initializer, do op "=" ["==", "=>"]; look (sym ";"); missing])

/-- `let`, `const` or `var`. -/
def variableStatement (stop : Rule Unit) : Rule Unit :=
  oneOf
    [node "lexical_declaration" (do
      field "kind" (oneOf [kw "const", kw "let"])
      never (kw "enum")
      sepBy1 r.variableDeclarator (sym ",")
      stop),
     node "variable_declaration" (do
      kw "var"
      sepBy1 r.variableDeclarator (sym ",")
      stop)]

/-- `interface X { … }`. -/
def interfaceDeclaration : Rule Unit := node "interface_declaration" do
  kw "interface"
  field "name" (identifierAs "type_identifier")
  r.optTypeParameters
  opt (node "extends_type_clause" do
    kw "extends"
    sepBy1 (field "type" r.typeName) (sym ","))
  field "body" (r.objectTypeAs "interface_body")

/-- `type X = …`. -/
def typeAlias : Rule Unit := node "type_alias_declaration" do
  kw "type"
  field "name" (identifierAs "type_identifier")
  r.optTypeParameters
  sym "="
  field "value" r.type
  semicolon

/-- `enum X { … }`. -/
def enumDeclaration : Rule Unit := node "enum_declaration" do
  opt (kw "const")
  kw "enum"
  field "name" (identifierAs "identifier")
  field "body" (node "enum_body" do
    openBrace
    commaSep (oneOf
      [node "enum_assignment" (do field "name" r.propertyName; r.initializer),
        field "name" r.propertyName])
    closeBrace)

/-- `namespace A.B { … }` and `module 'm' { … }`. -/
def moduleDeclaration : Rule Unit :=
  oneOf [node "internal_module" (do kw "namespace"; rest), node "module" (do kw "module"; rest)]
where
  /-- The name and the body. -/
  rest : Rule Unit := do
    sameLine
    field "name" (oneOf
      [string,
       do
        identifierAs "identifier"
        many (wrap "nested_identifier" "object" do
          sym "."
          field "property" (anyWord "property_identifier"))])
    opt (field "body" r.block)

/-- `import A = B.C`. -/
def importAlias : Rule Unit := node "import_alias" do
  kw "import"
  identifierAs "identifier"
  sym "="
  identifierAs "identifier"
  many (wrap "nested_identifier" "object" do
    sym "."
    field "property" (anyWord "property_identifier"))
  semicolon

/-- A declaration of types. -/
def typedDeclaration : Rule Unit := do
  check r.typed
  oneOf
    [r.interfaceDeclaration, r.typeAlias, r.enumDeclaration, r.moduleDeclaration, importAlias,
     node "ambient_declaration" (do
      kw "declare"
      sameLine
      oneOf
        [r.statement, do kw "global"; r.block])]

/-- A declaration. -/
def declaration : Rule Unit :=
  oneOf
    [r.functionDeclaration, r.classDeclaration, r.typedDeclaration, r.variableStatement semicolon]

/-! ## 3. Imports and exports -/

/-- `from 'm'`. -/
def fromClause : Rule Unit := do
  kw "from"
  field "source" string

/-- A name that a module gives to what it exports. -/
def exportedName (kind : String) : Rule Unit := oneOf [string, anyWord kind]

/-- `type` or `typeof` before what is imported or exported. -/
def typeWord : Rule Unit := do
  if r.typed then opt do
    oneOf [kw "type", kw "typeof"]
    never (oneOf [sym ",", kw "from", sym "=", do kw "as"; never (kw "as")])

/-- One name of an import list. -/
def importSpecifier : Rule Unit := node "import_specifier" do
  if r.typed then opt do
    oneOf [kw "type", kw "typeof"]
    look (anyWord "identifier")
    never (kw "as")
  oneOf
    [do
      field "name" (exportedName "identifier")
      kw "as"
      field "alias" (identifierAs "identifier"),
     field "name" (identifierAs "identifier")]

/-- `* as x`. -/
def namespaceImport : Rule Unit := node "namespace_import" do
  sym "*"
  kw "as"
  identifierAs "identifier"

/-- `{ a, b as c }` in an import. -/
def namedImports : Rule Unit := node "named_imports" do
  openBrace
  commaSep r.importSpecifier
  closeBrace

/-- What an import binds. -/
def importClause : Rule Unit := node "import_clause" (oneOf
  [namespaceImport, r.namedImports,
   do
    identifierAs "identifier"
    opt (do sym ","; oneOf [namespaceImport, r.namedImports])])

/-- `with { … }` after the source of an import. -/
def importAttribute : Rule Unit := opt (node "import_attribute" do
  oneOf [kw "with", do sameLine; kw "assert"]
  r.object)

/-- `import …`. -/
def importStatement : Rule Unit := node "import_statement" do
  kw "import"
  never (oneOf [sym "(", sym "."])
  r.typeWord
  oneOf
    [do r.importClause; fromClause,
     do
      check r.typed
      node "import_require_clause" do
        identifierAs "identifier"
        sym "="
        kw "require"
        sym "("
        field "source" string
        sym ")",
     field "source" string]
  r.importAttribute
  semicolon

/-- One name of an export list. -/
def exportSpecifier : Rule Unit := node "export_specifier" do
  if r.typed then opt do
    oneOf [kw "type", kw "typeof"]
    look (anyWord "identifier")
    never (kw "as")
  field "name" (exportedName "identifier")
  opt (do kw "as"; field "alias" (exportedName "identifier"))

/-- `{ a, b as c }` in an export. -/
def exportClause : Rule Unit := node "export_clause" do
  openBrace
  commaSep r.exportSpecifier
  closeBrace

/-- `export …`. -/
def exportStatement : Rule Unit := node "export_statement" do
  many (field "decorator" r.decoratorForm)
  kw "export"
  oneOf
    [do
      if r.typed then opt (kw "type")
      oneOf
        [do sym "*"; fromClause,
         do
          node "namespace_export" do
            sym "*"
            kw "as"
            exportedName "identifier"
          fromClause,
         do r.exportClause; opt fromClause]
      r.importAttribute
      semicolon,
     do
      kw "default"
      oneOf
        [field "declaration" r.declaration,
         do field "value" r.expression; semicolon],
     field "declaration" r.declaration,
     do
      check r.typed
      oneOf
        [do sym "="; r.expression; semicolon,
         do kw "as"; kw "namespace"; identifierAs "identifier"; semicolon]]

/-! ## 4. Statements -/

/-- A block of statements. -/
def blockForm : Rule Unit := node "statement_block" do
  openBrace
  many r.statement
  closing "\x7d"

/-- A condition in parentheses. -/
def condition : Rule Unit := field "condition" r.parenthesized

/-- The head of a loop over the elements or the keys of a value. -/
def forInHead : Rule Unit := do
  sym "("
  oneOf
    [do
      field "kind" (oneOf [kw "const", kw "let", kw "var"])
      field "left" r.bindingTarget,
     field "left" (oneOf [r.storagePlace, r.destructuring])]
  field "operator" (oneOf [kw "of", kw "in"])
  field "right" r.expressions
  sym ")"

/-- The head of a counting loop. -/
def forHead : Rule Unit := do
  sym "("
  field "initializer" (oneOf
    [r.variableStatement (sym ";"), node "empty_statement" (sym ";"),
      node "expression_statement" (do r.expressions; sym ";")])
  field "condition" (oneOf
    [node "empty_statement" (sym ";"),
      node "expression_statement" (do r.expressions; sym ";")])
  opt (field "increment" r.expressions)
  sym ")"

/-- `switch (x) { … }`. -/
def switchStatement : Rule Unit := node "switch_statement" do
  kw "switch"
  field "value" r.parenthesized
  field "body" (node "switch_body" do
    openBrace
    many (oneOf
      [node "switch_case" (do
        kw "case"
        field "value" r.expressions
        sym ":"
        many (field "body" r.statement)),
       node "switch_default" (do
        kw "default"
        sym ":"
        many (field "body" r.statement))])
    closeBrace)

/-- `try { … } catch (e) { … } finally { … }`. -/
def tryStatement : Rule Unit := node "try_statement" do
  kw "try"
  field "body" r.block
  opt (field "handler" (node "catch_clause" do
    kw "catch"
    opt (do
      sym "("
      field "parameter" r.bindingTarget
      r.optTypeAnnotation
      sym ")")
    field "body" r.block))
  opt (field "finalizer" (node "finally_clause" do
    kw "finally"
    field "body" r.block))

/-- A jump out of a loop. -/
def jump (kind word : String) : Rule Unit := node kind do
  kw word
  opt (do sameLine; field "label" (identifierAs "statement_identifier"))
  semicolon

/-- A statement that starts with a word of its own. -/
def wordStatement : Rule Unit :=
  oneOf
    [node "if_statement" (do
      kw "if"
      r.condition
      field "consequence" r.statement
      opt (field "alternative" (node "else_clause" do kw "else"; r.statement))),
     r.switchStatement,
     node "for_in_statement" (do
      kw "for"
      opt (kw "await")
      r.forInHead
      field "body" r.statement),
     node "for_statement" (do kw "for"; r.forHead; field "body" r.statement),
     node "while_statement" (do kw "while"; r.condition; field "body" r.statement),
     node "do_statement" (do
      kw "do"
      field "body" r.statement
      kw "while"
      r.condition
      opt (sym ";")),
     r.tryStatement,
     node "with_statement" (do
      kw "with"
      field "object" r.parenthesized
      field "body" r.statement),
     jump "break_statement" "break",
     jump "continue_statement" "continue",
     node "debugger_statement" (do kw "debugger"; semicolon),
     node "return_statement" (do
      kw "return"
      opt (do sameLine; r.expressions)
      semicolon),
     node "throw_statement" (do kw "throw"; r.expressions; semicolon)]

/-- A statement of any form. -/
def statementForm : Rule Unit :=
  oneOf
    [r.block,
     node "empty_statement" (sym ";"),
     r.exportStatement,
     r.importStatement,
     r.wordStatement,
     r.declaration,
     node "labeled_statement" (do
      field "label" (identifierAs "statement_identifier")
      sym ":"
      field "body" r.statement),
     node "expression_statement" (do r.expressions; semicolon)]

end Rules

/-! ## 5. The grammar -/

/-- The rule of each form. -/
def rules (dialect : Dialect) (g : Form → Rule Unit) (f : Form) : Rule Unit :=
  let r : Rules := ⟨dialect, g⟩
  match f with
  | .expression => r.expressionForm
  | .unary => r.unaryForm
  | .markup => r.markupForm
  | .pattern => r.patternForm
  | .typeExpr => r.typeExpr
  | .unaryType => r.unaryType
  | .formalParameters => r.formalParametersForm
  | .decorator => r.decoratorForm
  | .block => r.blockForm
  | .classBody => r.classBodyForm
  | .classExpression => r.classExpressionForm
  | .statement => r.statementForm

/-- A whole text: an interpreter line, if there is one, and statements.  Lines that fit no
statement become errors. -/
def program (dialect : Dialect) (depth : Nat) : Rule Unit := do
  opt (token "hash_bang_line" true fun text pos =>
    if standsAt text pos ['#', '!'] then runEnd isLineChar text pos else none)
  many (oneOf [tie (rules dialect) depth .statement, stray])

/-- The syntax tree of a source text. -/
def parse (dialect : Dialect) (source : String) : Syntax.Node :=
  let text := source.toList.toArray
  parseWith ⟨text, isWordChar, extra⟩ "program" (program dialect (depthBound text))

end Codemap.Grammar.EcmaScript
