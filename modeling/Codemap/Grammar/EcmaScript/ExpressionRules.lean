/-
# ECMAScript: expressions, patterns and parameters

Binary operators bind in thirteen levels, from `??` to `**`; all but the last group to the left.
What looks like a parenthesized expression is first tried as the head of an arrow function, and
what looks like a literal is first tried as the left side of a destructuring assignment.
-/
import Codemap.Grammar.EcmaScript.TypeRules

namespace Codemap.Grammar.EcmaScript

namespace Rules

variable (r : Rules)

/-- A pattern that names are bound by. -/
def pattern : Rule Unit := r.form .pattern

/-- A statement. -/
def statement : Rule Unit := r.form .statement

/-- A block of statements. -/
def block : Rule Unit := r.form .block

/-- An operand. -/
def unary : Rule Unit := r.form .unary

/-- One or more expressions with commas between them. -/
def expressions : Rule Unit := do
  r.expression
  opt (wrap "sequence_expression" "" (many1 do sym ","; r.expression))

/-! ## 1. Patterns and parameters -/

/-- The default of a pattern or a parameter. -/
def initializer : Rule Unit := do
  op "=" ["==", "=>"]
  field "value" r.expression

/-- A pattern, with or without a default. -/
def patternOrDefault : Rule Unit := do
  r.pattern
  opt (wrap "assignment_pattern" "left" do
    op "=" ["==", "=>"]
    field "right" r.expression)

/-- `...rest`. -/
def restPattern : Rule Unit := node "rest_pattern" do sym "..."; r.pattern

/-- `{ a, b: c, d = 1, ...rest }` as a pattern. -/
def objectPattern : Rule Unit := node "object_pattern" do
  openBrace
  commaSep (oneOf
    [node "pair_pattern" (do
      field "key" r.propertyName
      sym ":"
      field "value" r.patternOrDefault),
     r.restPattern,
     node "object_assignment_pattern" (do
      field "left" (identifierAs "shorthand_property_identifier_pattern")
      op "=" ["==", "=>"]
      field "right" r.expression),
     identifierAs "shorthand_property_identifier_pattern"])
  closeBrace

/-- `[a, , b = 1]` as a pattern. -/
def arrayPattern : Rule Unit := node "array_pattern" do
  sym "["
  commaSep r.patternOrDefault
  sym "]"

/-- A pattern that takes a value apart. -/
def destructuring : Rule Unit := oneOf [r.objectPattern, r.arrayPattern]

/-- A name or a pattern that takes a value apart. -/
def bindingTarget : Rule Unit := oneOf [identifier, r.destructuring]

/-- A place that a value can be stored in: a name with members looked up in it. -/
def storagePlace : Rule Unit := do
  oneOf [identifier, namedWord "this" "this"]
  many (oneOf
    [wrap "member_expression" "object" (do
      sym "."
      field "property" (oneOf [privateName, anyWord "property_identifier"])),
     wrap "subscript_expression" "object" (do
      sym "["
      field "index" r.expressions
      sym "]")])

/-- A pattern. -/
def patternForm : Rule Unit := oneOf [r.restPattern, r.destructuring, r.storagePlace]

/-- One parameter of a function, in the dialects with types. -/
def typedParameter : Rule Unit :=
  oneOf
    [node "optional_parameter" (do
      head
      sym "?"
      r.optTypeAnnotation
      opt r.initializer),
     node "required_parameter" (do
      head
      r.optTypeAnnotation
      opt r.initializer)]
where
  /-- Decorators, modifiers and the pattern. -/
  head : Rule Unit := do
    many (field "decorator" (r.form .decorator))
    opt (node "accessibility_modifier"
      (oneOf [modifier "public", modifier "private", modifier "protected"]))
    opt (node "override_modifier" (modifier "override"))
    opt (modifier "readonly")
    field "pattern" (oneOf [namedWord "this" "this", r.pattern])
  /-- A modifier that another word or a pattern follows. -/
  modifier (w : String) : Rule Unit := do
    kw w
    look (oneOf [anyWord "identifier", sym "\x7b", sym "["])

/-- The parameters of a function. -/
def formalParametersForm : Rule Unit := node "formal_parameters" do
  sym "("
  commaSep (if r.typed then r.typedParameter else r.patternOrDefault)
  sym ")"

/-! ## 2. Literals made of expressions -/

/-- `...xs` in a call or a literal. -/
def spread : Rule Unit := node "spread_element" do sym "..."; r.expression

/-- A method of an object literal or a class, after its decorators. -/
def methodDefinition : Rule Unit := node "method_definition" do
  if r.typed then
    opt accessibility
  else
    many (field "decorator" (r.form .decorator))
  opt (memberWord "static")
  if r.typed then
    opt overrideModifier
    opt (memberWord "readonly")
  opt (do memberWord "async")
  opt (oneOf [memberWord "get", memberWord "set", sym "*"])
  field "name" r.propertyName
  if r.typed then opt (sym "?")
  r.callSignature
  field "body" r.block

/-- An object literal. -/
def object : Rule Unit := node "object" do
  openBrace
  commaSep (oneOf
    [r.spread,
     r.methodDefinition,
     node "pair" (do field "key" r.propertyName; sym ":"; field "value" r.expression),
     do
      identifierAs "shorthand_property_identifier"
      opt (wrap "object_assignment_pattern" "left" do
        op "=" ["==", "=>"]
        field "right" r.expression)])
  closeBrace

/-- An array literal. -/
def array : Rule Unit := node "array" do
  sym "["
  commaSep (oneOf [r.spread, r.expression])
  sym "]"

/-- The arguments of a call. -/
def arguments : Rule Unit := node "arguments" do
  sym "("
  commaSep (oneOf [r.spread, r.expression])
  sym ")"

/-- A template string. -/
def templateString : Rule Unit := node "template_string" do
  sym "\x60"
  many (oneOf
    [rawToken "string_fragment" true fun text pos => fragmentEnd text (text.size - pos) pos pos,
     rawToken "escape_sequence" true escapeEnd,
     node "template_substitution" (do rawSym "$\x7b"; r.expressions; closeBrace)])
  rawSym "\x60"
where
  /-- The end of the plain text that starts at a place, if there is any. -/
  fragmentEnd (text : Array Char) : Nat → Nat → Nat → Option Nat
    | 0, start, i => if i == start then none else some i
    | fuel + 1, start, i =>
      let stopsHere := match text[i]? with
        | none => true
        | some c =>
          c.toNat == 96 || c.toNat == 92
            || (c == '$' && text[i + 1]? == some (Char.ofNat 123))
      if stopsHere then (if i == start then none else some i)
      else fragmentEnd text fuel start (i + 1)

/-- An expression in parentheses. -/
def parenthesized : Rule Unit := node "parenthesized_expression" do
  sym "("
  r.expressions
  if r.typed then opt (field "type" r.typeAnnotation)
  sym ")"

/-! ## 3. Functions as expressions -/

/-- The body of an arrow function. -/
def arrowBody : Rule Unit := field "body" (oneOf [r.block, r.expression])

/-- An arrow function. -/
def arrowFunction : Rule Unit :=
  oneOf
    [node "arrow_function" (do
      kw "async"
      field "parameter" (identifierAs "identifier")
      sym "=>"
      r.arrowBody),
     node "arrow_function" (do
      field "parameter" (identifierAs "identifier")
      sym "=>"
      r.arrowBody),
     node "arrow_function" (do
      opt (kw "async")
      look (oneOf [sym "(", sym "<"])
      r.callSignature
      sym "=>"
      r.arrowBody)]

/-- `function` or `function*` as an expression. -/
def functionExpression : Rule Unit :=
  oneOf
    [node "generator_function" (do
      opt (kw "async")
      kw "function"
      sym "*"
      opt (field "name" (identifierAs "identifier"))
      r.callSignature
      field "body" r.block),
     node "function_expression" (do
      opt (kw "async")
      kw "function"
      opt (field "name" (identifierAs "identifier"))
      r.callSignature
      field "body" r.block)]

/-! ## 4. Operands -/

/-- `new.target` or `import.meta`. -/
def metaProperty : Rule Unit :=
  oneOf
    [node "meta_property" (do kw "new"; sym "."; kw "target"),
      node "meta_property" (do kw "import"; sym "."; kw "meta")]

/-- The chain mark `?.`, where no digit follows it. -/
def optionalChain : Rule Unit := field "optional_chain" do
  token "optional_chain" true (fixedEnd "?.")
  match ← charAt? 0 with
  | some c => check (!c.isDigit)
  | none => pure ()

/-- A name after a dot. -/
def memberName : Rule Unit :=
  field "property" (oneOf [privateName, anyWord "property_identifier"])

/-- A member or an element looked up in what was read last. -/
def lookup : Rule Unit :=
  oneOf
    [wrap "member_expression" "object" (do sym "."; memberName),
     wrap "member_expression" "object" (do optionalChain; memberName),
     wrap "subscript_expression" "object" (do
      opt optionalChain
      sym "["
      field "index" r.expressions
      sym "]")]

/-- Whether nodes of a kind look something up in their first child, or assert that it is there. -/
def isLookup (kind : String) : Bool :=
  kind == "member_expression" || kind == "subscript_expression" || kind == "non_null_expression"

/-- The thing that `new` is applied to. -/
def constructed : Rule Unit :=
  oneOf
    [r.parenthesized, namedWord "this" "this", r.functionExpression, r.form .classExpression,
      identifier, r.array]

/-- `new X<T>(…)`. -/
def newExpression : Rule Unit := node "new_expression" do
  kw "new"
  never (sym ".")
  field "constructor" do
    oneOf [do look (kw "new"); r.unary, r.constructed]
    many r.lookup
  r.optTypeArguments
  opt (field "arguments" r.arguments)

/-- An expression that nothing has been applied to yet. -/
def primary : Rule Unit :=
  oneOf
    [string, number, r.templateString, r.parenthesized, r.array, r.object,
      r.functionExpression, metaProperty, r.newExpression, r.form .classExpression,
      do
        check r.hasMarkup
        r.form .markup,
      regex,
      namedWord "this" "this", namedWord "super" "super", namedWord "true" "true",
      namedWord "false" "false", namedWord "null" "null",
      do
        namedWord "import" "import"
        look (sym "("),
      identifier, privateName]

/-- A call, a look-up or an assertion on what was read last. -/
def postfixOperation : Rule Unit :=
  oneOf
    [r.lookup,
     wrap "call_expression" "function" (field "arguments" r.arguments),
     wrap "call_expression" "function" (field "arguments" r.templateString),
     wrap "call_expression" "function" (do
      optionalChain
      r.optTypeArguments
      field "arguments" r.arguments),
     do
      check r.typed
      wrap "call_expression" "function" do
        field "type_arguments" r.typeArguments
        field "arguments" r.templateString,
     do
      check r.typed
      wrap "non_null_expression" "" do
        sameLine
        op "!" ["!="],
     do
      check r.typed
      wrap "instantiation_expression" "" do
        field "type_arguments" r.typeArguments
        look (oneOf ([";", ",", ")", "]", ".", "\x7d"].map sym ++ [atEnd]))]

/-- Calls, look-ups and assertions after a primary expression. -/
def applied : Rule Unit := do
  r.primary
  many r.postfixOperation
  opt (wrap "update_expression" "argument" do
    sameLine
    field "operator" (oneOf [sym "++", sym "--"]))

/-- A call with type arguments, and what is applied to its result.  It binds looser than a unary
operator and than the binary operators above the comparisons: in `-f<T>(x)` and `a + f<T>(x)` the
function called is `-f` and `a + f`. -/
def genericCall : Rule Unit := do
  check r.typed
  wrap "call_expression" "function" do
    field "type_arguments" r.typeArguments
    field "arguments" r.arguments
  many r.postfixOperation

mutual

/-- Whether a call with type arguments is among the calls and look-ups that a draft consists
of. -/
def callsGenerically : Draft → Bool
  | ⟨kind, _, _, _, _, _, children⟩ =>
    if kind == "call_expression" then
      children.any (·.field == some "type_arguments") || receiverCallsGenerically children
    else if isLookup kind then receiverCallsGenerically children
    else false

/-- `callsGenerically` of the first child that is no comment. -/
def receiverCallsGenerically : List Draft → Bool
  | [] => false
  | d :: ds => if d.extra then receiverCallsGenerically ds else callsGenerically d

end

/-- What follows `await`, when it reaches as far as it can.  It may not end in a call if one with
type arguments is part of it. -/
def awaited : Rule Unit := do
  r.unary
  many r.genericCall
  match (← get).nodes with
  | [] => failure
  | d :: _ => check (isLookup d.kind || !callsGenerically d)

/-- The start of an `await` expression: the word stands before an operand. -/
def awaitWord : Rule Unit := do
  kw "await"
  never (oneOf (["=>", ",", ")", "=", ";", ".", "]", "\x7d"].map sym ++ [atEnd]))

/-- An operand with the operators before it. -/
def unaryForm : Rule Unit :=
  oneOf
    [node "await_expression" (do awaitWord; oneOf [r.awaited, r.unary]),
     node "unary_expression" (do
      field "operator" (oneOf
        [kw "typeof", kw "void", kw "delete", op "!" ["!="], sym "~", op "-" ["--"],
          op "+" ["++"]])
      field "argument" r.unary),
     node "update_expression" (do
      field "operator" (oneOf [sym "++", sym "--"])
      field "argument" r.unary),
     do
      check (r.dialect == .typed)
      node "type_assertion" do r.typeArguments; r.unary,
     r.applied]

/-! ## 5. Operators -/

/-- Further operands of one level, each after an operator of that level. -/
def leftRest (operators : List (Rule Unit)) (operand : Rule Unit) : Rule Unit :=
  many (wrap "binary_expression" "left" do
    field "operator" (oneOf operators)
    field "right" operand)

/-- Left-associative operators of one level over operands of the next. -/
def leftLevel (operators : List (Rule Unit)) (operand : Rule Unit) : Rule Unit := do
  operand
  leftRest operators operand

/-- The power that an operand is raised to. -/
def powerRest (operand : Rule Unit) : Rule Unit :=
  opt (wrap "binary_expression" "left" do
    field "operator" (op "**" ["**="])
    field "right" operand)

/-- The operators that bind tighter than comparisons, and the calls with type arguments between
them. -/
def arithmetic : Rule Unit :=
  let multiply := [op "*" ["**", "*="], op "/" ["/="], op "%" ["%="]]
  let add := [op "+" ["++", "+="], op "-" ["--", "-="]]
  let shift := [op "<<" ["<<="], op ">>>" [">>>="], op ">>" [">>=", ">>>"]]
  let powers := do r.unary; powerRest r.unary
  let products := leftLevel multiply powers
  let sums := leftLevel add products
  do
    leftLevel shift sums
    many do
      r.genericCall
      powerRest r.unary
      leftRest multiply powers
      leftRest add products
      leftRest shift sums

/-- Comparisons, and the type operators that bind as tightly. -/
def comparison (operand : Rule Unit) : Rule Unit := do
  operand
  many (oneOf
    [wrap "binary_expression" "left" (do
      field "operator" (oneOf
        [sym "<=", op "<" ["<<"], sym ">=", op ">" [">>"], kw "instanceof", kw "in"])
      field "right" operand),
     do
      check r.typed
      wrap "as_expression" "" do
        sameLine
        kw "as"
        oneOf [do kw "const"; never (sym "."), r.type],
     do
      check r.typed
      wrap "satisfies_expression" "" do
        sameLine
        kw "satisfies"
        r.type])

/-- An expression with binary operators. -/
def binary : Rule Unit :=
  let comparisons := r.comparison r.arithmetic
  let equalities := leftLevel [sym "===", sym "!==", sym "==", sym "!="] comparisons
  let ands := leftLevel [op "&" ["&&", "&="]] equalities
  let exclusiveOrs := leftLevel [op "^" ["^="]] ands
  let ors := leftLevel [op "|" ["||", "|="]] exclusiveOrs
  let conjunctions := leftLevel [op "&&" ["&&="]] ors
  leftLevel [op "||" ["||="], op "??" ["??="]] conjunctions

/-- A conditional expression. -/
def conditional : Rule Unit := do
  r.binary
  opt (wrap "ternary_expression" "condition" do
    oneOf [op "?" ["??", "?."], do sym "?"; look number]
    field "consequence" r.expression
    sym ":"
    field "alternative" r.expression)

/-- The operators that combine an operation with an assignment. -/
def augmented : List String :=
  ["+=", "-=", "*=", "/=", "%=", "^=", "&=", "|=", ">>=", ">>>=", "<<=", "**=", "&&=", "||=", "??="]

/-- An assignment, or what could stand on its left. -/
def assignment : Rule Unit :=
  oneOf
    [do
      look (oneOf [sym "[", sym "\x7b"])
      node "assignment_expression" do
        field "left" r.destructuring
        op "=" ["==", "=>"]
        field "right" r.expression,
     do
      r.conditional
      opt (oneOf
        [wrap "assignment_expression" "left" (do
          op "=" ["==", "=>"]
          field "right" r.expression),
         wrap "augmented_assignment_expression" "left" (do
          field "operator" (oneOf (augmented.map sym))
          field "right" r.expression)])]

/-- `yield x` or `yield* xs`. -/
def yieldExpression : Rule Unit := node "yield_expression" do
  kw "yield"
  never (oneOf (["=>", "=", "."].map sym))
  oneOf
    [do sym "*"; r.expression,
     opt (do sameLine; r.expression)]

/-- An expression that a comma ends. -/
def expressionForm : Rule Unit := oneOf [r.arrowFunction, r.yieldExpression, r.assignment]

end Rules

end Codemap.Grammar.EcmaScript
