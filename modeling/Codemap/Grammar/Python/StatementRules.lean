/-
# Python: statements

Simple statements share a line, compound statements have blocks.  The block of a definition
starts with its first statement; comments before it belong to the definition itself.
-/
import Codemap.Grammar.Python.ExpressionRules

namespace Codemap.Grammar.Python

namespace Rules

variable (r : Rules)

/-! ## 1. Assignments -/

/-- A name, an attribute or an element of something. -/
def storagePlace : Rule Unit := do
  r.primary
  match (← get).nodes with
  | d :: _ => check (["identifier", "attribute", "subscript"].contains d.kind)
  | [] => failure

/-- A place that a value can be stored in. -/
def targetForm : Rule Unit :=
  oneOf
    [node "tuple_pattern" (do
      sym "("
      bracketed do
        items (r.form .target)
        sym ")"),
     node "list_pattern" (do
      sym "["
      bracketed do
        items (r.form .target)
        sym "]"),
     node "list_splat_pattern" (do op "*" ["**"]; r.storagePlace),
     r.storagePlace]

/-- Expressions separated by commas; several make a list. -/
def expressionList : Rule Unit := do
  r.element
  opt (wrap "expression_list" "" do
    oneOf [many1 (do sym ","; r.element), sym ","]
    opt (sym ","))

/-- What is assigned: another assignment, a `yield`, or expressions. -/
def assignedForm : Rule Unit :=
  oneOf
    [node "assignment" (do
      field "left" r.targets
      op "=" ["=="]
      field "right" (r.form .assigned)),
     r.yieldExpression,
     r.expressionList]

/-- A type annotation. -/
def annotation : Rule Unit := node "type" (oneOf
  [r.expression, node "splat_type" (do oneOf [sym "**", sym "*"]; identifier)])

/-- An assignment, or a declaration of a type. -/
def assignment : Rule Unit := node "assignment" do
  field "left" r.targets
  oneOf
    [do
      op "=" ["=="]
      field "right" (r.form .assigned),
     do
      op ":" [":="]
      field "type" r.annotation
      opt (do op "=" ["=="]; field "right" (r.form .assigned))]

/-- An assignment combined with an operation. -/
def augmentedAssignment : Rule Unit := node "augmented_assignment" do
  field "left" r.targets
  field "operator" (oneOf
    (["+=", "-=", "**=", "*=", "//=", "/=", "@=", "%=", "&=", "^=", "|=", ">>=", "<<="].map sym))
  field "right" (r.form .assigned)

/-! ## 2. Simple statements -/

/-- The end of a statement is next. -/
def endsHere : Rule Unit := look (oneOf [sym ";", newline])

/-- A statement that is an expression or an assignment. -/
def expressionStatement : Rule Unit := do
  never (oneOf (statementWords.map kw))
  node "expression_statement" (oneOf
    [do r.assignment; endsHere,
     do r.augmentedAssignment; endsHere,
     do r.yieldExpression; endsHere,
     do
      r.element
      many (do sym ","; r.element)
      opt (sym ",")
      endsHere])

/-- A name with dots. -/
def dottedName : Rule Unit := node "dotted_name" do
  looseIdentifier
  many (do sym "."; looseIdentifier)

/-- One imported name. -/
def importedName : Rule Unit := field "name" do
  dottedName
  opt (wrap "aliased_import" "name" do
    kw "as"
    field "alias" looseIdentifier)

/-- Imported names, in parentheses or not. -/
def importList : Rule Unit :=
  oneOf
    [do
      sym "("
      bracketed do
        items importedName
        sym ")",
     do
      sepBy1 importedName (sym ",")
      opt (sym ",")]

/-- `import a, b as c`. -/
def importStatement : Rule Unit := node "import_statement" do
  kw "import"
  sepBy1 importedName (sym ",")
  opt (sym ",")

/-- `from m import a`. -/
def importFrom : Rule Unit :=
  oneOf
    [node "future_import_statement" (do
      kw "from"
      kw "__future__"
      kw "import"
      importList),
     node "import_from_statement" (do
      kw "from"
      field "module_name" (oneOf
        [node "relative_import" (do
          node "import_prefix" (many1 (sym "."))
          opt (do never (kw "import"); dottedName)),
         dottedName])
      kw "import"
      oneOf [node "wildcard_import" (sym "*"), importList])]

/-- `print` and `exec` as statements of the older language. -/
def olderStatement : Rule Unit :=
  oneOf
    [node "print_statement" (do
      kw "print"
      opt (node "chevron" (do sym ">>"; r.expression; opt (sym ",")))
      opt (sepBy1 (field "argument" r.expression) (sym ","))
      opt (sym ",")),
     node "exec_statement" (do
      kw "exec"
      field "code" (oneOf [r.string, identifier])
      opt (do kw "in"; sepBy1 r.expression (sym ",")))]

/-- A statement without a block. -/
def simpleStatement : Rule Unit :=
  oneOf
    [importFrom, importStatement,
     node "print_statement" (do
      kw "print"
      node "chevron" (do sym ">>"; r.expression)
      many (do sym ","; field "argument" r.expression)
      opt (sym ",")
      endsHere),
     node "return_statement" (do kw "return"; opt r.expressionList),
     node "assert_statement" (do kw "assert"; sepBy1 r.expression (sym ",")),
     node "delete_statement" (do kw "del"; r.expressionList),
     node "raise_statement" (do
      kw "raise"
      opt r.expressionList
      opt (do kw "from"; field "cause" r.expression)),
     node "pass_statement" (kw "pass"),
     node "break_statement" (kw "break"),
     node "continue_statement" (kw "continue"),
     node "global_statement" (do kw "global"; sepBy1 identifier (sym ",")),
     node "nonlocal_statement" (do kw "nonlocal"; sepBy1 identifier (sym ",")),
     node "type_alias_statement" (do
      kw "type"
      field "left" r.annotation
      op "=" ["=="]
      field "right" r.annotation
      endsHere),
     r.expressionStatement,
     r.olderStatement]

/-- Simple statements up to the end of a line. -/
def simpleStatements : Rule Unit := do
  r.simpleStatement
  many (do sym ";"; r.simpleStatement)
  opt (sym ";")
  newline

/-! ## 3. Blocks -/

/-- The statements of a block whose lines are indented by `indent`. -/
def blockLines (indent : Nat) : Rule Unit := do
  r.form (.statement indent)
  many (do nextLine indent; r.form (.statement indent))
  many (trailingComment indent)

/-- What follows a colon: simple statements, or a block that is indented more deeply than
`indent`, or nothing. -/
def suiteForm (name : String) (indent : Nat) : Rule Unit :=
  oneOf
    [field name (node "block" (do
      never newline
      r.simpleStatements)),
     do
      newline
      let a ← lookAhead
      if a.indent > indent && !a.atEnd then
        skipLines
        field name (node "block" (r.blockLines a.indent))
      else
        field name (node "block" (pure ()))]

/-- A colon and the block after it. -/
def colonBlock (name : String) (indent : Nat) : Rule Unit := do
  sym ":"
  r.form (.suite name indent)

/-- A clause of a compound statement on a line of its own. -/
def clause (indent : Nat) (p : Rule Unit) : Rule Unit := do
  nextLine indent
  p

/-! ## 4. Definitions -/

/-- One parameter of a function. -/
def parameter : Rule Unit :=
  oneOf
    [node "typed_parameter" (do
      oneOf
        [node "dictionary_splat_pattern" (do sym "**"; looseIdentifier),
          node "list_splat_pattern" (do op "*" ["**"]; looseIdentifier)]
      sym ":"
      field "type" r.annotation),
     node "dictionary_splat_pattern" (do sym "**"; looseIdentifier),
     node "list_splat_pattern" (do sym "*"; looseIdentifier),
     node "keyword_separator" (sym "*"),
     node "positional_separator" (sym "/"),
     named,
     do
      look (sym "(")
      r.form .target]
where
  /-- A parameter that starts with its name. -/
  named : Rule Unit := do
    let kind ← kindAhead
    match kind with
    | "identifier" => looseIdentifier
    | "typed_parameter" =>
      node "typed_parameter" do
        looseIdentifier
        sym ":"
        field "type" r.annotation
    | "default_parameter" =>
      node "default_parameter" do
        field "name" looseIdentifier
        op "=" ["=="]
        field "value" r.expression
    | _ =>
      node "typed_default_parameter" do
        field "name" looseIdentifier
        sym ":"
        field "type" r.annotation
        op "=" ["=="]
        field "value" r.expression
  /-- What kind of parameter comes next. -/
  kindAhead : Rule String := do
    if ← ahead (do looseIdentifier; op "=" ["=="]) then return "default_parameter"
    else if ← ahead (do looseIdentifier; sym ":") then
      if ← ahead (do looseIdentifier; sym ":"; r.annotation; op "=" ["=="]) then
        return "typed_default_parameter"
      else return "typed_parameter"
    else return "identifier"

/-- The parameters of a function. -/
def parameters : Rule Unit := node "parameters" do
  sym "("
  bracketed do
    items r.parameter
    sym ")"

/-- Type parameters of a definition. -/
def typeParameters : Rule Unit := opt (field "type_parameters" (node "type_parameter" do
  sym "["
  bracketed do
    items (do r.annotation; opt (do sym ":"; r.annotation))
    sym "]"))

/-- `def f(x) -> T:` and its block. -/
def functionDefinition (indent : Nat) : Rule Unit := node "function_definition" do
  opt (kw "async")
  kw "def"
  field "name" looseIdentifier
  r.typeParameters
  field "parameters" r.parameters
  opt (do sym "->"; field "return_type" r.annotation)
  r.colonBlock "body" indent

/-- `class X(Y):` and its block. -/
def classDefinition (indent : Nat) : Rule Unit := node "class_definition" do
  kw "class"
  field "name" looseIdentifier
  r.typeParameters
  opt (field "superclasses" r.argumentList)
  r.colonBlock "body" indent

/-- A definition with decorators before it. -/
def decorated (indent : Nat) : Rule Unit := node "decorated_definition" do
  decorator
  many (clause indent decorator)
  clause indent (field "definition"
    (oneOf [r.functionDefinition indent, r.classDefinition indent]))
where
  /-- One decorator and the end of its line. -/
  decorator : Rule Unit := do
    node "decorator" do
      sym "@"
      r.expression
    newline

/-! ## 5. Compound statements -/

/-- `if`, `elif` and `else`. -/
def ifStatement (indent : Nat) : Rule Unit := node "if_statement" do
  kw "if"
  field "condition" r.expression
  r.colonBlock "consequence" indent
  many (clause indent (field "alternative" (node "elif_clause" do
    kw "elif"
    field "condition" r.expression
    r.colonBlock "consequence" indent)))
  opt (clause indent (field "alternative" (node "else_clause" do
    kw "else"
    r.colonBlock "body" indent)))

/-- The `else` of a loop. -/
def loopElse (indent : Nat) : Rule Unit :=
  opt (clause indent (field "alternative" (node "else_clause" do
    kw "else"
    r.colonBlock "body" indent)))

/-- `for`. -/
def forStatement (indent : Nat) : Rule Unit := node "for_statement" do
  opt (kw "async")
  kw "for"
  field "left" r.targets
  kw "in"
  field "right" r.expressionList
  r.colonBlock "body" indent
  r.loopElse indent

/-- `while`. -/
def whileStatement (indent : Nat) : Rule Unit := node "while_statement" do
  kw "while"
  field "condition" r.expression
  r.colonBlock "body" indent
  r.loopElse indent

/-- An expression with a name for its value. -/
def asPattern : Rule Unit := do
  r.expression
  opt (wrap "as_pattern" "" do
    kw "as"
    field "alias" (node "as_pattern_target" r.expression))

/-- `try` and its handlers. -/
def tryStatement (indent : Nat) : Rule Unit := node "try_statement" do
  kw "try"
  r.colonBlock "body" indent
  many (clause indent (nodeAs do
    kw "except"
    let kind ← oneOf
      [do
        sym "*"
        return "except_group_clause",
       return "except_clause"]
    opt (do r.asPattern; many (do sym ","; r.asPattern))
    r.colonBlock "" indent
    return kind))
  opt (clause indent (node "else_clause" do kw "else"; r.colonBlock "body" indent))
  opt (clause indent (node "finally_clause" do kw "finally"; r.colonBlock "" indent))

/-- `with`. -/
def withStatement (indent : Nat) : Rule Unit := node "with_statement" do
  opt (kw "async")
  kw "with"
  oneOf
    [node "with_clause" (do
      sym "("
      bracketed do
        sepBy1 withItem (sym ",")
        opt (sym ",")
        sym ")"
      look (sym ":")),
     node "with_clause" (do
      sepBy1 withItem (sym ",")
      opt (sym ","))]
  r.colonBlock "body" indent
where
  /-- One managed value. -/
  withItem : Rule Unit := node "with_item" (field "value" r.asPattern)

/-- A pattern of `match`. -/
def casePatternForm : Rule Unit := do
  node "case_pattern" simple
  many (do sym "|"; node "case_pattern" simple)
  opt (do kw "as"; identifier)
where
  /-- A pattern without alternatives. -/
  simple : Rule Unit :=
    oneOf
      [r.strings,
       do opt (sym "-"); number; opt (do oneOf [sym "+", sym "-"]; number),
       namedWord "true" "True", namedWord "false" "False", namedWord "none" "None",
       node "splat_pattern" (do oneOf [sym "**", sym "*"]; looseIdentifier),
       node "list_pattern" (do
        sym "["
        bracketed do
          items (r.form .casePattern)
          sym "]"),
       node "tuple_pattern" (do
        sym "("
        bracketed do
          items (r.form .casePattern)
          sym ")"),
       node "dict_pattern" (do
        sym "\x7b"
        bracketed do
          items (oneOf
            [do node "case_pattern" simple'; sym ":"; r.form .casePattern,
              r.form .casePattern])
          sym "\x7d"),
       do
        dottedName
        opt (wrap "class_pattern" "" do
          sym "("
          bracketed do
            items (oneOf
              [node "keyword_pattern" (do identifier; op "=" ["=="]; r.form .casePattern),
                r.form .casePattern])
            sym ")")]
  /-- A key of a mapping pattern. -/
  simple' : Rule Unit := oneOf [r.strings, number, dottedName]

/-- `match` and its cases. -/
def matchStatement (indent : Nat) : Rule Unit := node "match_statement" do
  kw "match"
  field "subject" r.expressionList
  sym ":"
  newline
  let a ← lookAhead
  check (a.indent > indent && !a.atEnd)
  skipLines
  field "body" (node "block" do
    caseClause a.indent
    many (do nextLine a.indent; caseClause a.indent)
    many (trailingComment a.indent))
where
  /-- One case. -/
  caseClause (indent : Nat) : Rule Unit := node "case_clause" do
    kw "case"
    sepBy1 (r.form .casePattern) (sym ",")
    opt (sym ",")
    opt (field "guard" (node "if_clause" do kw "if"; r.expression))
    r.colonBlock "consequence" indent

/-- A statement in a block that is indented by `indent`. -/
def statementForm (indent : Nat) : Rule Unit :=
  oneOf
    [r.functionDefinition indent, r.classDefinition indent, r.decorated indent,
      r.ifStatement indent, r.forStatement indent, r.whileStatement indent,
      r.tryStatement indent, r.withStatement indent, r.matchStatement indent,
      r.simpleStatements]

end Rules

/-! ## 6. The grammar -/

/-- The rule of each form. -/
def rules (g : Form → Rule Unit) (f : Form) : Rule Unit :=
  let r : Rules := ⟨g⟩
  match f with
  | .expression => r.expressionForm
  | .inversion => r.inversionForm
  | .factor => r.factorForm
  | .target => r.targetForm
  | .casePattern => r.casePatternForm
  | .assigned => r.assignedForm
  | .statement indent => r.statementForm indent
  | .suite name indent => r.suiteForm name indent

/-- A whole text.  Lines that fit no statement become errors. -/
def program (depth : Nat) : Rule Unit := do
  many (do
    skipLines
    oneOf [tie rules depth (.statement 0), stray])
  skipLines

/-- The syntax tree of a source text. -/
def parse (source : String) : Syntax.Node :=
  let text := source.toList.toArray
  parseWith ⟨text, isWordChar, lineExtra⟩ "module" (program (depthBound text))

end Codemap.Grammar.Python
