/-
# Go: declarations and statements

Packages, imports, declarations and the statements.  Statements, fields and specifications are
separated by semicolons or line ends; only the semicolons are nodes.  At the top level every
statement may stand, not only declarations (`parse`).
-/
import Codemap.Grammar.Go.ExpressionRules

namespace Codemap.Grammar.Go

namespace Rules

variable (r : Rules)

/-- An expression in the head of a statement. -/
def headExpression : Rule Unit := r.form (.expression false)

/-- A statement. -/
def statement : Rule Unit := r.form .statement

/-- Expressions separated by commas. -/
def expressionList (braces : Bool) : Rule Unit :=
  node "expression_list" (sepBy1 (r.form (.expression braces)) (sym ","))

/-! ## 1. Declarations -/

/-- One specification, or specifications in parentheses, each with its terminator. -/
def specifications (spec : Rule Unit) : Rule Unit :=
  oneOf
    [do
      sym "("
      withExtra lineExtra do
        many (do
          spec
          oneOf [terminator, do look (sym ")"); missing])
        sym ")",
     spec]

/-- `import "p"`, with a name or not. -/
def importSpec : Rule Unit := node "import_spec" do
  opt (field "name" (oneOf
    [token "dot" true (fixedEnd "."), namedWord "blank_identifier" "_", packageName]))
  field "path" string

/-- The imports of a file. -/
def importDeclaration : Rule Unit := node "import_declaration" do
  kw "import"
  oneOf
    [node "import_spec_list" (do
      sym "("
      withExtra lineExtra do terminated importSpec; sym ")"),
     importSpec]

/-- Names, their type and their values. -/
def valueSpec (kind : String) : Rule Unit := node kind do
  sepBy1 (field "name" identifier) (sym ",")
  oneOf
    [do
      field "type" r.type
      opt values,
     values,
     check (kind == "const_spec")]
where
  /-- The values after the equality sign. -/
  values : Rule Unit := do
    op "=" ["=="]
    field "value" (r.expressionList true)

/-- `type A B` and `type A = B`. -/
def typeSpec : Rule Unit := nodeAs do
  field "name" typeName
  oneOf
    [do
      opt (field "type_parameters" r.typeParameters)
      let kind ← oneOf [do op "=" ["=="]; return "type_alias", return "type_spec"]
      field "type" r.type
      return kind,
     do
      field "type" r.type
      return "type_spec"]

/-- A declaration of constants, variables or types. -/
def declaration : Rule Unit :=
  oneOf
    [node "const_declaration" (do kw "const"; specifications (r.valueSpec "const_spec")),
     node "var_declaration" (do
      kw "var"
      oneOf
        [node "var_spec_list" (do look (sym "("); specifications (r.valueSpec "var_spec")),
         r.valueSpec "var_spec"]),
     node "type_declaration" (do kw "type"; specifications r.typeSpec)]

/-- A function or a method; its body may stand elsewhere. -/
def function : Rule Unit :=
  oneOf
    [node "function_declaration" (do
      kw "func"
      field "name" identifier
      opt (field "type_parameters" r.typeParameters)
      r.signature
      opt (field "body" r.block)),
     node "method_declaration" (do
      kw "func"
      field "receiver" r.parameters
      field "name" fieldName
      r.signature
      opt (field "body" r.block))]

/-! ## 2. Simple statements -/

/-- The operators that assign. -/
def assignments : List (Rule Unit) :=
  op "=" ["=="] ::
    (["+=", "-=", "*=", "/=", "%=", "<<=", ">>=", "&=", "&^=", "|=", "^="].map sym)

/-- A statement that may stand in the head of another. -/
def simpleStatement (braces : Bool) : Rule Unit := do
  let one := r.form (.expression braces)
  one
  oneOf
    [do
      wrap "expression_list" "" (many (do sym ","; one))
      oneOf
        [wrap "short_var_declaration" "left" (do
          sym ":="
          field "right" (r.expressionList braces)),
         wrap "assignment_statement" "left" (do
          field "operator" (oneOf assignments)
          field "right" (r.expressionList braces))],
     wrap "send_statement" "channel" (do
      sym "<-"
      field "value" one),
     wrap "inc_statement" "" (sym "++"),
     wrap "dec_statement" "" (sym "--"),
     wrap "expression_statement" "" (pure ())]

/-- A simple statement before the semicolon in a head. -/
def initializer : Rule Unit := opt do
  field "initializer" (r.simpleStatement false)
  sym ";"

/-! ## 3. Compound statements -/

/-- Statements, each followed by a terminator, as far as they do not end their block. -/
def statements : Rule Unit := terminated r.statement

/-- A block of statements. -/
def blockForm : Rule Unit := node "block" (braced r.statements)

/-- `if x { … } else { … }`. -/
def ifStatement : Nat → Rule Unit
  | 0 => failure
  | depth + 1 => node "if_statement" do
    kw "if"
    r.initializer
    field "condition" r.headExpression
    field "consequence" r.block
    opt do
      kw "else"
      field "alternative" (oneOf [r.block, ifStatement depth])

/-- The head of a loop over the elements of a value. -/
def rangeClause : Rule Unit := node "range_clause" do
  opt do
    field "left" (r.expressionList false)
    oneOf [sym ":=", sym "="]
  kw "range"
  field "right" r.headExpression

/-- The head of a counting loop. -/
def forClause : Rule Unit := node "for_clause" do
  opt (field "initializer" (r.simpleStatement false))
  sym ";"
  opt (field "condition" r.headExpression)
  sym ";"
  opt (field "update" (r.simpleStatement false))

/-- `for … { … }`. -/
def forStatement : Rule Unit := node "for_statement" do
  kw "for"
  oneOf
    [do
      oneOf [r.rangeClause, r.forClause, r.headExpression]
      field "body" r.block,
     field "body" r.block]

/-- What follows the colon of a case. -/
def caseBody : Rule Unit := do
  sym ":"
  r.statements

/-- The case for all that no other case names. -/
def defaultCase : Rule Unit := node "default_case" do
  kw "default"
  r.caseBody

/-- `switch x { … }`. -/
def expressionSwitch : Rule Unit := node "expression_switch_statement" do
  kw "switch"
  r.initializer
  opt (field "value" r.headExpression)
  braced (many (oneOf
    [node "expression_case" (do
      kw "case"
      field "value" (r.expressionList true)
      r.caseBody),
     r.defaultCase]))

/-- `switch x := y.(type) { … }`. -/
def typeSwitch : Rule Unit := node "type_switch_statement" do
  kw "switch"
  r.initializer
  opt do
    field "alias" (r.expressionList false)
    sym ":="
  field "value" r.headExpression
  sym "."
  parens (kw "type")
  braced (many (oneOf
    [node "type_case" (do
      kw "case"
      sepBy1 (field "type" r.type) (sym ",")
      r.caseBody),
     r.defaultCase]))

/-- `select { … }`. -/
def selectStatement : Rule Unit := node "select_statement" do
  kw "select"
  braced (many (oneOf
    [node "communication_case" (do
      kw "case"
      field "communication" (oneOf
        [node "send_statement" (do
          field "channel" r.expression
          sym "<-"
          field "value" r.expression),
         node "receive_statement" (do
          opt do
            field "left" (r.expressionList true)
            oneOf [sym ":=", sym "="]
          field "right" r.expression)])
      r.caseBody),
     r.defaultCase]))

/-- A jump to a label, which may be left out. -/
def jump (kind word : String) : Rule Unit := node kind do
  kw word
  opt (nameAs "label_name")

/-- A statement of any form. -/
def statementForm : Rule Unit := do
  let input ← read
  oneOf
    [r.declaration,
     node "return_statement" (do kw "return"; opt (r.expressionList true)),
     node "go_statement" (do kw "go"; r.expression),
     node "defer_statement" (do kw "defer"; r.expression),
     r.ifStatement (input.text.size + 1),
     r.forStatement,
     r.typeSwitch,
     r.expressionSwitch,
     r.selectStatement,
     node "labeled_statement" (do
      field "label" (nameAs "label_name")
      op ":" [":="]
      opt r.statement),
     node "fallthrough_statement" (kw "fallthrough"),
     jump "break_statement" "break",
     jump "continue_statement" "continue",
     jump "goto_statement" "goto",
     r.block,
     node "empty_statement" (look (sym ";")),
     r.simpleStatement true]

end Rules

/-! ## 4. The grammar -/

/-- The rule of each form. -/
def rules (g : Form → Rule Unit) (f : Form) : Rule Unit :=
  let r : Rules := ⟨g⟩
  match f with
  | .expression braces => r.expressionForm braces
  | .unary braces => r.unaryForm braces
  | .typeExpr => r.typeForm
  | .literalValue => r.literalValueForm
  | .parameters => r.parametersForm
  | .block => r.blockForm
  | .statement => r.statementForm

/-- What may stand at the top level only, and at the end of a text without a terminator. -/
def topLevel (depth : Nat) : Rule Unit :=
  let r : Rules := ⟨tie rules depth⟩
  oneOf
    [node "package_clause" (do kw "package"; packageName),
     Rules.importDeclaration,
     r.function]

/-- A whole text: declarations and statements, each with its terminator.  A statement that the
text ends without is incomplete.  Lines that fit no statement become errors. -/
def program (depth : Nat) : Rule Unit :=
  many (oneOf
    [do topLevel depth; oneOf [terminator, atEnd],
     do tie rules depth .statement; oneOf [terminator, do atEnd; missing],
     do stray; opt terminator])

/-- The syntax tree of a source text. -/
def parse (source : String) : Syntax.Node :=
  let text := source.toList.toArray
  parseWith ⟨text, isWordChar, lineExtra⟩ "source_file" (program (depthBound text))

end Codemap.Grammar.Go
