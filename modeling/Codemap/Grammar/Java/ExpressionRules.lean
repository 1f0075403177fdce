/-
# Java: tokens, types and expressions

Statements end with a semicolon; one that is missing at the end of a line is an error, and what
stands before it is kept.
-/
import Codemap.Grammar.Rule
import Codemap.Text.Blank

namespace Codemap.Grammar.Java

open Codemap.Syntax

/-! ## 1. Forms and extras -/

/-- The bodies that members stand in. -/
inductive Body where
  | ofClass
  | ofInterface
  | ofAnnotationType
deriving Repr, DecidableEq

/-- The forms that rules refer to before they are defined. -/
inductive Form where
  | expression
  | unary
  | typeExpr
  | annotationMark
  | elementValue
  | arrayInitializer
  | pattern
  | formalParameters
  | switchBlock
  | classBody
  | block
  | statement
  | member (body : Body)
deriving Repr, DecidableEq

/-- The rule of each form. -/
structure Rules where
  form : Form → Rule Unit

/-- The end of a block comment whose text starts at a place, if it is closed. -/
def blockEnd (text : Array Char) : Nat → Nat → Option Nat
  | 0, _ => none
  | fuel + 1, i =>
    match text[i]?, text[i + 1]? with
    | some '*', some '/' => some (i + 2)
    | some _, _ => blockEnd text fuel (i + 1)
    | none, _ => none

/-- White space and comments. -/
def extra : Extras := fun text _ pos =>
  match text[pos]? with
  | none => none
  | some c =>
    if Text.isBlank c then (runEnd Text.isBlank text pos).map (·, none)
    else if c == '/' then
      match text[pos + 1]? with
      | some '/' => some ((runEnd (· != '\n') text pos).getD pos, some "line_comment")
      | some '*' => (blockEnd text (text.size - pos) (pos + 2)).map (·, some "block_comment")
      | _ => none
    else none

/-! ## 2. Words and literals -/

/-- Characters that words start with. -/
def isWordStart (c : Char) : Bool :=
  c.isAlpha || c == '_' || c == '$' || (c.toNat ≥ 128 && !Text.isBlank c)

/-- Characters that words consist of. -/
def isWordChar (c : Char) : Bool := isWordStart c || c.isDigit

/-- Words that are never names. -/
def reserved : List String :=
  ["abstract", "assert", "boolean", "break", "byte", "case", "catch", "char", "class", "const",
    "continue", "default", "do", "double", "else", "enum", "extends", "final", "finally", "float",
    "for", "goto", "if", "implements", "import", "instanceof", "int", "interface", "long",
    "native", "new", "package", "private", "protected", "public", "return", "short", "static",
    "strictfp", "super", "switch", "synchronized", "this", "throw", "throws", "transient", "try",
    "void", "volatile", "while", "true", "false", "null"]

/-- A name. -/
def identifier : Rule Unit := wordToken "identifier" isWordStart isWordChar reserved

/-- The name of a type. -/
def typeIdentifier : Rule Unit := wordToken "type_identifier" isWordStart isWordChar reserved

/-- The opening brace. -/
def openBrace : Rule Unit := sym "\x7b"

/-- The closing brace. -/
def closeBrace : Rule Unit := sym "\x7d"

/-- The end of an escape sequence. -/
def escapeEnd (text : Array Char) (pos : Nat) : Option Nat :=
  if text[pos]? == some '\\' then
    match text[pos + 1]? with
    | none => none
    | some _ => some (pos + 2)
  else none

/-- The end of the plain text of a text block, before its closing quotation marks. -/
def textBlockEnd (text : Array Char) : Nat → Nat → Nat
  | 0, i => i
  | fuel + 1, i =>
    match text[i]? with
    | none => i
    | some '\\' => i
    | some c =>
      if c.toNat == 34 && text[i + 1]? == some c && text[i + 2]? == some c then i
      else textBlockEnd text fuel (i + 1)

/-- A string or a text block. -/
def string : Rule Unit :=
  oneOf
    [node "string_literal" (do
      sym "\"\"\""
      many (oneOf
        [rawToken "multiline_string_fragment" true fun text pos =>
          let stop := textBlockEnd text (text.size - pos) pos
          if stop == pos then none else some stop,
         rawToken "escape_sequence" true escapeEnd])
      rawSym "\"\"\""),
     node "string_literal" (do
      sym "\""
      many (oneOf
        [rawToken "string_fragment" true
          (runEnd fun c => c.toNat != 34 && c != '\\' && c != '\n'),
         rawToken "escape_sequence" true escapeEnd])
      rawSym "\"")]

/-- A character. -/
def character : Rule Unit := token "character_literal" true fun text pos =>
  if (text[pos]?.map (·.toNat)) == some 39 then
    let inside := match text[pos + 1]? with
      | some '\\' => runEnd (fun c => c.toNat != 39) text (pos + 3) |>.getD (pos + 3)
      | _ => pos + 2
    if (text[inside]?.map (·.toNat)) == some 39 then some (inside + 1) else none
  else none

/-- Characters of a number after its first digit. -/
def isNumberChar (c : Char) : Bool := c.isAlphanum || c == '_'

/-- The end of a number and whether it is a floating point number. -/
def numberAt (text : Array Char) (pos : Nat) : Option (Nat × Bool) :=
  match text[pos]? with
  | none => none
  | some c =>
    let dotted := c == '.' && ((text[pos + 1]?.map Char.isDigit).getD false)
    if c.isDigit || dotted then
      let hex := c == '0' && (text[pos + 1]? == some 'x' || text[pos + 1]? == some 'X')
      let whole := (runEnd isNumberChar text pos).getD pos
      let stop :=
        if text[whole]? == some '.' && ((text[whole + 1]?.map fun d => !isWordStart d).getD true)
        then (runEnd isNumberChar text (whole + 1)).getD (whole + 1)
        else whole
      let last := if stop == 0 then none else text[stop - 1]?
      let exponent := !hex && (last == some 'e' || last == some 'E')
      let stop :=
        if exponent && (text[stop]? == some '-' || text[stop]? == some '+') then
          (runEnd isNumberChar text (stop + 1)).getD stop
        else stop
      let letters := (text.extract pos stop).toList
      let isFloat := !hex && letters.any fun d => ".eEfFdD".toList.contains d
      some (stop, isFloat)
    else none

/-- A number. -/
def number : Rule Unit :=
  oneOf
    [token "decimal_floating_point_literal" true fun text pos =>
        (numberAt text pos).bind fun (stop, isFloat) => if isFloat then some stop else none,
      token "decimal_integer_literal" true fun text pos => (numberAt text pos).map (·.1)]

/-- A literal. -/
def literal : Rule Unit :=
  oneOf
    [string, character, number, namedWord "true" "true", namedWord "false" "false",
      namedWord "null_literal" "null"]

namespace Rules

variable (r : Rules)

/-! ## 3. Types -/

/-- An expression. -/
def expression : Rule Unit := r.form .expression

/-- A type. -/
def type : Rule Unit := r.form .typeExpr

/-- A block. -/
def block : Rule Unit := r.form .block

/-- An annotation. -/
def annotationMark : Rule Unit := r.form .annotationMark

/-- `[]`, once or more, with annotations. -/
def dimensions : Rule Unit := node "dimensions" (many1 do many r.annotationMark; sym "["; sym "]")

/-- `<A, ? extends B>`. -/
def typeArguments : Rule Unit := node "type_arguments" do
  sym "<"
  opt (sepBy1
    (oneOf
      [node "wildcard" (do
        many r.annotationMark
        sym "?"
        opt (oneOf [do kw "extends"; r.type, do namedWord "super" "super"; r.type])),
       r.type])
    (sym ","))
  sym ">"

/-- A type that is named. -/
def namedType : Rule Unit := do
  typeIdentifier
  opt (wrap "generic_type" "" r.typeArguments)
  many (do
    wrap "scoped_type_identifier" "" do
      sym "."
      many r.annotationMark
      typeIdentifier
    opt (wrap "generic_type" "" r.typeArguments))

/-- A type that is built in. -/
def builtInType : Rule Unit :=
  oneOf
    [node "integral_type" (oneOf (["byte", "short", "int", "long", "char"].map kw)),
      node "floating_point_type" (oneOf [kw "float", kw "double"]),
      namedWord "boolean_type" "boolean",
      namedWord "void_type" "void"]

/-- A type without annotations before it. -/
def plainType : Rule Unit := do
  oneOf [builtInType, r.namedType]
  opt (wrap "array_type" "element" (field "dimensions" r.dimensions))

/-- A type of any form. -/
def typeForm : Rule Unit :=
  oneOf [node "annotated_type" (do many1 r.annotationMark; r.plainType), r.plainType]

/-- Type parameters of a declaration. -/
def typeParameters : Rule Unit := node "type_parameters" do
  sym "<"
  sepBy1
    (node "type_parameter" do
      many r.annotationMark
      typeIdentifier
      opt (node "type_bound" do kw "extends"; sepBy1 r.type (sym "&")))
    (sym ",")
  sym ">"

/-! ## 4. Annotations and modifiers -/

/-- A name with dots. -/
def dottedName : Rule Unit := do
  identifier
  many (wrap "scoped_identifier" "scope" do
    sym "."
    field "name" identifier)

/-- A value given to an annotation. -/
def elementValueForm : Rule Unit :=
  oneOf
    [node "element_value_array_initializer" (do
      openBrace
      opt (sepBy1 (r.form .elementValue) (sym ","))
      opt (sym ",")
      closeBrace),
     r.annotationMark,
     r.expression]

/-- `@Name` or `@Name(…)`. -/
def annotationForm : Rule Unit := nodeAs do
  sym "@"
  never (kw "interface")
  field "name" dottedName
  oneOf
    [do
      field "arguments" (node "annotation_argument_list" do
        sym "("
        oneOf
          [do
            sepBy1
              (node "element_value_pair" do
                field "key" identifier
                op "=" ["=="]
                field "value" (r.form .elementValue))
              (sym ",")
            look (sym ")"),
           opt (r.form .elementValue)]
        sym ")")
      return "annotation",
     return "marker_annotation"]

/-- The words that modify declarations. -/
def modifierWords : List String :=
  ["public", "protected", "private", "abstract", "static", "final", "strictfp", "default",
    "synchronized", "native", "transient", "volatile", "sealed"]

/-- Annotations and modifiers before a declaration. -/
def modifiers : Rule Unit := opt (node "modifiers" (many1 (oneOf
  ([r.annotationMark, sym "non-sealed"] ++ modifierWords.map modifier))))
where
  /-- One modifier, where it is not a label or a statement. -/
  modifier (w : String) : Rule Unit := do
    kw w
    never (oneOf [sym ":", sym "(", sym "->", sym "="])

/-! ## 5. Operands -/

/-- The arguments of a call. -/
def argumentList : Rule Unit := node "argument_list" do
  sym "("
  opt (sepBy1 r.expression (sym ","))
  sym ")"

/-- An expression in parentheses. -/
def parenthesized : Rule Unit := node "parenthesized_expression" do
  sym "("
  r.expression
  sym ")"

/-- `{ a, b }` as the value of an array. -/
def arrayInitializerForm : Rule Unit := node "array_initializer" do
  openBrace
  opt (sepBy1 (oneOf [r.form .arrayInitializer, r.expression]) (sym ","))
  opt (sym ",")
  closeBrace

/-- `new X(…)` or `new X[…]`. -/
def creation : Rule Unit :=
  oneOf
    [node "array_creation_expression" (do
      kw "new"
      field "type" (oneOf [builtInType, r.namedType])
      oneOf
        [do
          many1 (field "dimensions" (node "dimensions_expr" do
            sym "["
            r.expression
            sym "]"))
          opt (field "dimensions" r.dimensions),
         do
          field "dimensions" r.dimensions
          field "value" (r.form .arrayInitializer)]),
     node "object_creation_expression" (do
      kw "new"
      many r.annotationMark
      opt (field "type_arguments" r.typeArguments)
      field "type" r.namedType
      field "arguments" r.argumentList
      opt (r.form .classBody))]

/-- `int.class`, `String[].class` or `Foo.class`. -/
def classLiteral : Rule Unit := node "class_literal" do
  oneOf [builtInType, dottedType]
  opt (wrap "array_type" "element" (field "dimensions" r.dimensions))
  sym "."
  kw "class"
where
  /-- A named type, up to the dot before `class`. -/
  dottedType : Rule Unit := do
    typeIdentifier
    many (wrap "scoped_type_identifier" "" do sym "."; typeIdentifier)

/-- `x -> …` and `(a, b) -> …`. -/
def lambda : Rule Unit := node "lambda_expression" do
  field "parameters" (oneOf
    [identifier,
     node "inferred_parameters" (do
      sym "("
      sepBy1 identifier (sym ",")
      sym ")"),
     r.form .formalParameters])
  sym "->"
  field "body" (oneOf [r.block, r.expression])

/-- `switch (x) { … }`. -/
def switchExpression : Rule Unit := node "switch_expression" do
  kw "switch"
  field "condition" r.parenthesized
  field "body" (r.form .switchBlock)

/-- `A::b` and `A[]::new`, where what comes before the colons is a type. -/
def typeReference : Rule Unit := node "method_reference" do
  r.plainType
  sym "::"
  opt r.typeArguments
  oneOf [kw "new", identifier]

/-- An expression that nothing has been applied to yet. -/
def primary : Rule Unit :=
  oneOf
    [literal, r.switchExpression, r.classLiteral, r.typeReference, r.creation, r.parenthesized,
      namedWord "this" "this",
      do
        namedWord "super" "super"
        look (oneOf [sym ".", sym "::"]),
      node "method_invocation" (do
        field "name" identifier
        field "arguments" r.argumentList),
      identifier]

/-- Calls, members and elements after an expression. -/
def applied : Rule Unit := do
  r.primary
  many (oneOf
    [wrap "method_invocation" "object" (do
      sym "."
      opt (do namedWord "super" "super"; sym ".")
      opt (field "type_arguments" r.typeArguments)
      field "name" identifier
      field "arguments" r.argumentList),
     wrap "object_creation_expression" "" (do sym "."; r.creation),
     wrap "field_access" "object" (do
      sym "."
      opt (do namedWord "super" "super"; sym ".")
      field "field" (oneOf [namedWord "this" "this", identifier])),
     wrap "field_access" "object" (do
      sym "."
      field "field" (namedWord "super" "super")
      look (oneOf [sym ".", sym "::"])),
     wrap "array_access" "array" (do sym "["; field "index" r.expression; sym "]"),
     wrap "method_reference" "" (do
      sym "::"
      opt r.typeArguments
      oneOf [kw "new", identifier]),
     wrap "update_expression" "" (oneOf [sym "++", sym "--"])])

/-- `(T) x`. -/
def cast : Rule Unit := node "cast_expression" do
  sym "("
  let builtIn ← ahead builtInType
  sepBy1 (field "type" r.type) (sym "&")
  sym ")"
  if !builtIn then never (oneOf [sym "+", sym "-"])
  field "value" (oneOf [r.lambda, r.form .unary])

/-- An operand with the operators before it. -/
def unaryForm : Rule Unit :=
  oneOf
    [node "update_expression" (do oneOf [sym "++", sym "--"]; r.form .unary),
     node "unary_expression" (do
      field "operator" (oneOf [op "+" ["++"], op "-" ["--"], op "!" ["!="], sym "~"])
      field "operand" (r.form .unary)),
     r.cast,
     r.applied]

/-! ## 6. Operators -/

/-- Left-associative operators of one level over operands of the next. -/
def leftLevel (operators : List (Rule Unit)) (operand : Rule Unit) : Rule Unit := do
  operand
  many (wrap "binary_expression" "left" do
    field "operator" (oneOf operators)
    field "right" operand)

/-- A pattern that a value may match. -/
def patternForm : Rule Unit :=
  oneOf
    [node "record_pattern" (do
      r.namedType
      node "record_pattern_body" do
        sym "("
        opt (sepBy1
          (oneOf
            [r.form .pattern,
              node "record_pattern_component" (do r.plainType; identifier)])
          (sym ","))
        sym ")"),
     node "type_pattern" (do r.plainType; identifier)]

/-- Comparisons and tests of types. -/
def comparison (operand : Rule Unit) : Rule Unit := do
  operand
  many (oneOf
    [wrap "binary_expression" "left" (do
      field "operator" (oneOf [sym "<=", op "<" ["<<"], sym ">=", op ">" [">>"]])
      field "right" operand),
     wrap "instanceof_expression" "left" (do
      kw "instanceof"
      opt (kw "final")
      oneOf
        [do
          look (node "record_pattern" (do r.namedType; sym "("))
          field "pattern" (r.form .pattern),
         do
          field "right" r.type
          opt (field "name" identifier)])])

/-- An expression with binary operators. -/
def binary : Rule Unit :=
  let products := leftLevel [op "*" ["*="], op "/" ["/="], op "%" ["%="]] (r.form .unary)
  let sums := leftLevel [op "+" ["++", "+="], op "-" ["--", "-=", "->"]] products
  let shifts := leftLevel
    [op "<<" ["<<="], op ">>>" [">>>="], op ">>" [">>=", ">>>"]] sums
  let comparisons := r.comparison shifts
  let equalities := leftLevel [sym "==", sym "!="] comparisons
  let ands := leftLevel [op "&" ["&&", "&="]] equalities
  let exclusiveOrs := leftLevel [op "^" ["^="]] ands
  let ors := leftLevel [op "|" ["||", "|="]] exclusiveOrs
  let conjunctions := leftLevel [sym "&&"] ors
  leftLevel [sym "||"] conjunctions

/-- The operators that assign. -/
def assignments : List (Rule Unit) :=
  op "=" ["=="] ::
    (["+=", "-=", "*=", "/=", "%=", "^=", "&=", "|=", ">>=", ">>>=", "<<="].map sym)

/-- An expression of any form. -/
def expressionForm : Rule Unit :=
  oneOf
    [r.lambda,
     do
      r.binary
      oneOf
        [wrap "ternary_expression" "condition" (do
          sym "?"
          field "consequence" r.expression
          sym ":"
          field "alternative" r.expression),
         wrap "assignment_expression" "left" (do
          field "operator" (oneOf assignments)
          field "right" r.expression),
         pure ()]]

end Rules

end Codemap.Grammar.Java
