/-
# Java: declarations and statements

Packages, modules, imports, types with their members, and the statements.  A declaration starts
at its annotations and modifiers; a documentation comment before it stands beside it.  At the
top level every statement may stand, not only declarations (`parse`).
-/
import Codemap.Grammar.Java.ExpressionRules

namespace Codemap.Grammar.Java

/-- The semicolon that ends a statement.  Where it is missing although the line, the block or the
text ends, that is an error, and what stands before it is kept. -/
def semicolon : Rule Unit :=
  oneOf [sym ";", do look lineEnd; missing]
where
  /-- The end of a line, of a block or of the text. -/
  lineEnd : Rule Unit := oneOf
    [closeBrace, atEnd,
     rawToken "" false fun text pos =>
      let stop := (runEnd (fun c => c != '\n' && Text.isBlank c) text pos).getD pos
      if text[stop]? == some '\n' then some stop else none]

namespace Rules

variable (r : Rules)

/-- A statement. -/
def statement : Rule Unit := r.form .statement

/-- The body of a class. -/
def classBody : Rule Unit := field "body" (r.form .classBody)

/-! ## 1. Variables and parameters -/

/-- The name of a variable, with the brackets that C programmers write after it. -/
def variableName : Rule Unit := do
  field "name" identifier
  opt (field "dimensions" r.dimensions)

/-- A variable and its value. -/
def variableDeclarator : Rule Unit := node "variable_declarator" do
  r.variableName
  opt (do
    op "=" ["=="]
    oneOf
      [field "value" (oneOf [r.form .arrayInitializer, r.expression]),
       do look (sym ";"); missing])

/-- Variables separated by commas. -/
def variableDeclarators : Rule Unit := sepBy1 (field "declarator" r.variableDeclarator) (sym ",")

/-- One parameter of a method. -/
def parameter : Rule Unit := nodeAs do
  r.modifiers
  field "type" r.plainType
  oneOf
    [do
      sym "..."
      many r.annotationMark
      r.variableDeclarator
      return "spread_parameter",
     do
      many (do identifier; sym ".")
      namedWord "this" "this"
      return "receiver_parameter",
     do
      r.variableName
      return "formal_parameter"]

/-- The parameters of a method. -/
def formalParametersForm : Rule Unit := node "formal_parameters" do
  sym "("
  opt (sepBy1 r.parameter (sym ","))
  sym ")"

/-! ## 2. Members -/

/-- The exceptions that a method declares. -/
def throwsClause : Rule Unit := opt (node "throws" do kw "throws"; sepBy1 r.type (sym ","))

/-- `this(…);` or `super(…);` at the start of a constructor. -/
def constructorCall : Rule Unit := node "explicit_constructor_invocation" do
  oneOf
    [do
      opt (field "type_arguments" r.typeArguments)
      field "constructor" (oneOf [namedWord "this" "this", namedWord "super" "super"])
      look (sym "("),
     do
      field "object" (oneOf [r.parenthesized, dottedName])
      sym "."
      field "constructor" (namedWord "super" "super")]
  field "arguments" r.argumentList
  semicolon

/-- A constructor, after its modifiers and type parameters. -/
def constructorRest : Rule Unit := do
  field "name" identifier
  field "parameters" (r.form .formalParameters)
  r.throwsClause
  field "body" (node "constructor_body" do
    openBrace
    opt r.constructorCall
    many r.statement
    closing "\x7d")

/-- A method, after its type. -/
def methodRest : Rule Unit := do
  field "name" identifier
  field "parameters" (r.form .formalParameters)
  opt (field "dimensions" r.dimensions)
  r.throwsClause
  oneOf [field "body" r.block, semicolon]

/-- An element of an annotation type, after its type. -/
def elementRest : Rule Unit := do
  field "name" identifier
  sym "("
  sym ")"
  opt (field "dimensions" r.dimensions)
  opt (do kw "default"; field "value" (r.form .elementValue))
  semicolon

/-- The types that a type implements or extends. -/
def typeList : Rule Unit := node "type_list" (sepBy1 r.type (sym ","))

/-- The types that may extend a sealed type. -/
def permitsClause : Rule Unit :=
  opt (field "permits" (node "permits" do kw "permits"; r.typeList))

/-- The types that a class implements. -/
def superInterfaces : Rule Unit :=
  opt (field "interfaces" (node "super_interfaces" do kw "implements"; r.typeList))

/-- The type parameters of a type. -/
def optTypeParameters : Rule Unit := opt (field "type_parameters" r.typeParameters)

/-- A constant of an enumeration. -/
def enumConstant : Rule Unit := node "enum_constant" do
  r.modifiers
  field "name" identifier
  opt (field "arguments" r.argumentList)
  opt r.classBody

/-- The members of a body. -/
def members (body : Body) : Rule Unit := do
  openBrace
  many (r.form (.member body))
  closing "\x7d"

/-- The declaration of a type, after its modifiers; tells its kind. -/
def typeDeclaration : Rule String :=
  oneOf
    [do
      kw "class"
      field "name" identifier
      r.optTypeParameters
      opt (field "superclass" (node "superclass" do kw "extends"; r.type))
      r.superInterfaces
      r.permitsClause
      field "body" (node "class_body" (r.members .ofClass))
      return "class_declaration",
     do
      kw "interface"
      field "name" identifier
      r.optTypeParameters
      opt (node "extends_interfaces" do kw "extends"; r.typeList)
      r.permitsClause
      field "body" (node "interface_body" (r.members .ofInterface))
      return "interface_declaration",
     do
      kw "enum"
      field "name" identifier
      r.superInterfaces
      field "body" (node "enum_body" do
        openBrace
        opt (sepBy1 r.enumConstant (sym ","))
        opt (sym ",")
        opt (node "enum_body_declarations" do sym ";"; many (r.form (.member .ofClass)))
        closeBrace)
      return "enum_declaration",
     do
      kw "record"
      field "name" identifier
      r.optTypeParameters
      field "parameters" (r.form .formalParameters)
      r.superInterfaces
      field "body" (node "class_body" (r.members .ofClass))
      return "record_declaration",
     do
      sym "@interface"
      field "name" identifier
      field "body" (node "annotation_type_body" (r.members .ofAnnotationType))
      return "annotation_type_declaration"]

/-- One member. -/
def memberForm (body : Body) : Rule Unit :=
  oneOf
    [sym ";",
     do
      check (body == .ofClass)
      oneOf [node "static_initializer" (do kw "static"; r.block), r.block],
     nodeAs do
      r.modifiers
      oneOf
        [r.typeDeclaration,
         do
          opt (do field "type_parameters" r.typeParameters; many r.annotationMark)
          oneOf
            [do
              check (body == .ofClass)
              oneOf
                [do r.constructorRest; return "constructor_declaration",
                 do
                  field "name" identifier
                  field "body" r.block
                  return "compact_constructor_declaration"],
             do
              field "type" r.plainType
              oneOf
                [do
                  check (body == .ofAnnotationType)
                  r.elementRest
                  return "annotation_type_element_declaration",
                 do r.methodRest; return "method_declaration",
                 do
                  r.variableDeclarators
                  semicolon
                  return if body == .ofClass then "field_declaration"
                    else "constant_declaration"]]]]

/-- The body of an anonymous class. -/
def classBodyForm : Rule Unit := node "class_body" (r.members .ofClass)

/-! ## 3. Modules and packages -/

/-- The directives of a module. -/
def moduleDirective : Rule Unit :=
  oneOf
    [node "requires_module_directive" (do
      kw "requires"
      many (node "requires_modifier" (oneOf [kw "transitive", kw "static"]))
      field "module" dottedName
      semicolon),
     node "exports_module_directive" (do kw "exports"; packages "to"),
     node "opens_module_directive" (do kw "opens"; packages "to"),
     node "uses_module_directive" (do kw "uses"; field "type" dottedName; semicolon),
     node "provides_module_directive" (do kw "provides"; packages "with")]
where
  /-- A package, and names after a word. -/
  packages (word : String) : Rule Unit := do
    field "package" dottedName
    opt (do kw word; sepBy1 (field "modules" dottedName) (sym ","))
    semicolon

/-- `module m { … }`. -/
def moduleDeclaration : Rule Unit := node "module_declaration" do
  many r.annotationMark
  opt (kw "open")
  kw "module"
  field "name" dottedName
  field "body" (node "module_body" do
    openBrace
    many moduleDirective
    closeBrace)

/-- `package a.b;`. -/
def packageDeclaration : Rule Unit := node "package_declaration" do
  many r.annotationMark
  kw "package"
  dottedName
  semicolon

/-- `import a.b.C;`, `import static a.b.*;`. -/
def importDeclaration : Rule Unit := node "import_declaration" do
  kw "import"
  opt (kw "static")
  dottedName
  opt (do sym "."; token "asterisk" true (fixedEnd "*"))
  semicolon

/-! ## 4. Statements -/

/-- A block of statements. -/
def blockForm : Rule Unit := node "block" do
  openBrace
  many r.statement
  closing "\x7d"

/-- A statement that an expression makes. -/
def expressionStatement : Rule Unit := node "expression_statement" do r.expression; semicolon

/-- `throw x;`. -/
def throwStatement : Rule Unit := node "throw_statement" do kw "throw"; r.expression; semicolon

/-- `case a, b` or `default`. -/
def switchLabel : Rule Unit := node "switch_label" (oneOf
  [do
    kw "case"
    oneOf
      [do
        node "pattern" (r.form .pattern)
        opt (node "guard" do kw "when"; r.expression)
        look mark,
       do
        sepBy1 r.expression (sym ",")
        opt (node "guard" do kw "when"; r.expression)],
   kw "default"])
where
  /-- What follows a label. -/
  mark : Rule Unit := oneOf [sym "->", sym ":"]

/-- The body of a switch: groups of statements, or rules with arrows. -/
def switchBlockForm : Rule Unit := node "switch_block" do
  openBrace
  many (oneOf
    [node "switch_rule" (do
      r.switchLabel
      sym "->"
      oneOf [r.block, r.throwStatement, r.expressionStatement]),
     node "switch_block_statement_group" (do
      many1 (do r.switchLabel; sym ":")
      many r.statement)])
  closeBrace

/-- A condition in parentheses. -/
def condition : Rule Unit := field "condition" r.parenthesized

/-- The head and the body of a loop over the elements of a value. -/
def elementLoop : Rule Unit := node "enhanced_for_statement" do
  kw "for"
  sym "("
  r.modifiers
  field "type" r.plainType
  r.variableName
  sym ":"
  field "value" r.expression
  sym ")"
  field "body" r.statement

/-- Variables declared in a block. -/
def localVariables : Rule Unit := do
  field "type" r.plainType
  r.variableDeclarators
  semicolon

/-- A counting loop. -/
def countingLoop : Rule Unit := node "for_statement" do
  kw "for"
  sym "("
  oneOf
    [field "init" (node "local_variable_declaration" do r.modifiers; r.localVariables),
     do
      opt (sepBy1 (field "init" r.expression) (sym ","))
      sym ";"]
  opt (field "condition" r.expression)
  sym ";"
  opt (sepBy1 (field "update" r.expression) (sym ","))
  sym ")"
  field "body" r.statement

/-- The exceptions that are caught and what is done then. -/
def catchClause : Rule Unit := node "catch_clause" do
  kw "catch"
  sym "("
  node "catch_formal_parameter" do
    r.modifiers
    node "catch_type" (sepBy1 r.plainType (sym "|"))
    r.variableName
  sym ")"
  field "body" r.block

/-- Something that is closed at the end of a `try`. -/
def resource : Rule Unit := node "resource" (oneOf
  [do
    r.modifiers
    field "type" r.plainType
    r.variableName
    sym "="
    field "value" r.expression,
   r.expression])

/-- `try { … } catch (E e) { … } finally { … }`. -/
def tryStatement : Rule Unit := nodeAs do
  kw "try"
  let kind ← oneOf
    [do
      field "resources" (node "resource_specification" do
        sym "("
        sepBy1 r.resource (sym ";")
        opt (sym ";")
        sym ")")
      return "try_with_resources_statement",
     return "try_statement"]
  field "body" r.block
  many r.catchClause
  opt (node "finally_clause" do kw "finally"; r.block)
  return kind

/-- A statement that starts with a word of its own. -/
def wordStatement : Rule Unit :=
  oneOf
    [node "if_statement" (do
      kw "if"
      r.condition
      field "consequence" r.statement
      opt (do kw "else"; field "alternative" r.statement)),
     node "while_statement" (do kw "while"; r.condition; field "body" r.statement),
     r.elementLoop,
     r.countingLoop,
     node "assert_statement" (do
      kw "assert"
      r.expression
      opt (do sym ":"; r.expression)
      semicolon),
     node "do_statement" (do
      kw "do"
      field "body" r.statement
      kw "while"
      r.condition
      semicolon),
     node "break_statement" (do kw "break"; opt identifier; semicolon),
     node "continue_statement" (do kw "continue"; opt identifier; semicolon),
     node "return_statement" (do kw "return"; opt r.expression; semicolon),
     node "yield_statement" (do kw "yield"; r.expression; semicolon),
     r.switchExpression,
     node "synchronized_statement" (do
      kw "synchronized"
      r.parenthesized
      field "body" r.block),
     r.throwStatement,
     r.tryStatement]

/-- A statement of any form. -/
def statementForm : Rule Unit :=
  oneOf
    [r.block,
     sym ";",
     r.wordStatement,
     importDeclaration,
     r.packageDeclaration,
     nodeAs do
      r.modifiers
      oneOf
        [r.typeDeclaration,
         do r.localVariables; return "local_variable_declaration"],
     node "labeled_statement" (do identifier; sym ":"; r.statement),
     r.moduleDeclaration,
     r.expressionStatement]

end Rules

/-! ## 5. The grammar -/

/-- The rule of each form. -/
def rules (g : Form → Rule Unit) (f : Form) : Rule Unit :=
  let r : Rules := ⟨g⟩
  match f with
  | .expression => r.expressionForm
  | .unary => r.unaryForm
  | .typeExpr => r.typeForm
  | .annotationMark => r.annotationForm
  | .elementValue => r.elementValueForm
  | .arrayInitializer => r.arrayInitializerForm
  | .pattern => r.patternForm
  | .formalParameters => r.formalParametersForm
  | .switchBlock => r.switchBlockForm
  | .classBody => r.classBodyForm
  | .block => r.blockForm
  | .statement => r.statementForm
  | .member body => r.memberForm body

/-- A method outside of all types. -/
def looseMethod (depth : Nat) : Rule Unit :=
  let r : Rules := ⟨tie rules depth⟩
  node "method_declaration" do
    r.modifiers
    opt (do field "type_parameters" r.typeParameters; many r.annotationMark)
    field "type" r.plainType
    r.methodRest

/-- A whole text: statements and methods.  Lines that fit none of them become errors. -/
def program (depth : Nat) : Rule Unit :=
  many (oneOf [tie rules depth .statement, looseMethod depth, stray])

/-- The syntax tree of a source text. -/
def parse (source : String) : Syntax.Node :=
  let text := source.toList.toArray
  parseWith ⟨text, isWordChar, extra⟩ "program" (program (depthBound text))

end Codemap.Grammar.Java
