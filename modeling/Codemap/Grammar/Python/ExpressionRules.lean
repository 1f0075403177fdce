/-
# Python: expressions

From assignment expressions and conditionals down to names and literals.  Strings that start with
an `f` hold expressions in braces.
-/
import Codemap.Grammar.Python.Layout

namespace Codemap.Grammar.Python

namespace Rules

variable (r : Rules)

/-- An expression that a comma ends. -/
def expression : Rule Unit := r.form .expression

/-- An operand with the operators that bind before it. -/
def factor : Rule Unit := r.form .factor

/-! ## 1. Strings -/

/-- The quotation marks that open a string at a place, after the letters before them. -/
def quoteAt (text : Array Char) (pos : Nat) : Option (Nat × Char × Bool) :=
  let start := runOrHere (fun c => "rRbBuUfF".toList.contains c) text pos
  match text[start]? with
  | some c =>
    if (c.toNat == 34 || c.toNat == 39) && start ≤ pos + 2 then
      if text[start + 1]? == some c && text[start + 2]? == some c then some (start + 3, c, true)
      else some (start + 1, c, false)
    else none
  | none => none

/-- Whether a string with these letters before it has expressions in it, and whether a backslash
is an ordinary character of it. -/
def isFormatted (letters : String) : Bool :=
  letters.toList.any fun c => c == 'f' || c == 'F'

/-- Whether the closing quotation marks of a string stand at a place. -/
def closesAt (text : Array Char) (pos : Nat) (quote : Char) (triple : Bool) : Bool :=
  text[pos]? == some quote
    && (!triple || (text[pos + 1]? == some quote && text[pos + 2]? == some quote))

/-- The end of the plain characters of a string from a place on. -/
def contentEnd (text : Array Char) (quote : Char) (triple formatted : Bool) :
    Nat → Nat → Nat
  | 0, i => i
  | fuel + 1, i =>
    match text[i]? with
    | none => i
    | some '\\' => contentEnd text quote triple formatted fuel (min text.size (i + 2))
    | some c =>
      if closesAt text i quote triple then i
      else if c == '\n' && !triple then i
      else if formatted && c.toNat == 123 then
        if (text[i + 1]?.map (·.toNat)) == some 123 then
          contentEnd text quote triple formatted fuel (i + 2)
        else i
      else contentEnd text quote triple formatted fuel (i + 1)

/-- An expression in the braces of a string, with its conversion and format. -/
def interpolation : Rule Unit := node "interpolation" do
  rawSym "\x7b"
  bracketed do
    field "expression" (oneOf
      [node "yield" (do kw "yield"; opt r.expression),
       do
        oneOf [r.expression, node "list_splat" (do sym "*"; r.factor)]
        opt (wrap "expression_list" "" do
          oneOf [many1 (do sym ","; r.expression), sym ","]
          opt (sym ","))])
    opt (sym "=")
    opt (node "type_conversion" do
      sym "!"
      rawToken "type_conversion" false (runEnd Char.isAlpha))
    opt (node "format_specifier" do
      sym ":"
      many (oneOf
        [rawToken "format_text" false (runEnd fun c =>
          c.toNat != 123 && c.toNat != 125 && c != '\n' && c.toNat != 34 && c.toNat != 39),
         node "format_expression" (do
          rawSym "\x7b"
          bracketed r.expression
          sym "\x7d")]))
    sym "\x7d"

/-- A string. -/
def string : Rule Unit := node "string" do
  let s ← get
  let input ← read
  match quoteAt input.text s.pos with
  | none => failure
  | some (inside, quote, triple) =>
    let letters ← stretch s.pos inside
    let formatted := isFormatted letters
    rawToken "string_start" true fun _ _ => some inside
    many (oneOf
      [rawToken "string_content" true fun text pos =>
        let stop := contentEnd text quote triple formatted (text.size - pos) pos
        if stop == pos then none else some stop,
       do
        check formatted
        r.interpolation])
    rawToken "string_end" true fun text pos =>
      if closesAt text pos quote triple then some (if triple then pos + 3 else pos + 1) else none

/-- One string, or several that are read as one. -/
def strings : Rule Unit := do
  r.string
  opt (wrap "concatenated_string" "" (many1 r.string))

/-! ## 2. Arguments and comprehensions -/

/-- `*xs`. -/
def listSplat : Rule Unit := node "list_splat" do op "*" ["**"]; r.expression

/-- `**xs`. -/
def dictionarySplat : Rule Unit := node "dictionary_splat" do sym "**"; r.expression

/-- A name before an equals sign in a call. -/
def keywordArgument : Rule Unit := node "keyword_argument" do
  field "name" looseIdentifier
  op "=" ["=="]
  field "value" r.expression

/-- Items separated by commas; one may stand at the end. -/
def items (p : Rule Unit) : Rule Unit := opt do
  sepBy1 p (sym ",")
  opt (sym ",")

/-- The targets of a loop or an assignment. -/
def targets : Rule Unit := do
  r.form .target
  opt (wrap "pattern_list" "" do
    oneOf [many1 (do sym ","; r.form .target), sym ","]
    opt (sym ","))

/-- `for x in xs` and `if c` after the body of a comprehension. -/
def comprehensionClauses : Rule Unit := do
  forClause
  many (oneOf [forClause, node "if_clause" (do kw "if"; r.expression)])
where
  /-- `for x in xs`. -/
  forClause : Rule Unit := node "for_in_clause" do
    opt (kw "async")
    kw "for"
    field "left" r.targets
    kw "in"
    field "right" (sepBy1 r.expression (sym ","))
    opt (sym ",")

/-- The arguments of a call; a comprehension may stand in their place. -/
def argumentList : Rule Unit := nodeAs do
  sym "("
  bracketed <| oneOf
    [do
      sym ")"
      return "argument_list",
     do
      argument
      oneOf
        [do
          tag "body"
          r.comprehensionClauses
          sym ")"
          return "generator_expression",
         do
          many (do sym ","; argument)
          opt (sym ",")
          sym ")"
          return "argument_list"]]
where
  /-- One argument. -/
  argument : Rule Unit :=
    oneOf [r.keywordArgument, r.listSplat, r.dictionarySplat, r.expression]

/-! ## 3. Displays -/

/-- An expression, or a splat of several. -/
def element : Rule Unit := oneOf [r.listSplat, r.expression]

/-- `yield` and what it yields. -/
def yieldExpression : Rule Unit := node "yield" do
  kw "yield"
  opt (oneOf
    [do kw "from"; r.expression,
     do
      r.element
      opt (wrap "expression_list" "" (do many1 (do sym ","; r.element); opt (sym ",")))])

/-- Elements between an opening and a closing bracket.  `single` is the kind when one element
stands there without a comma, `many` when there are none or several, and `comprehension` when
clauses follow the first. -/
def display (opening closing single several comprehension : String) : Rule Unit := nodeAs do
  sym opening
  bracketed <| oneOf
    [do
      sym closing
      return several,
     do
      oneOf [r.yieldExpression, r.element]
      oneOf
        [do
          sym closing
          return single,
         do
          tag "body"
          r.comprehensionClauses
          sym closing
          return comprehension,
         do
          many (do sym ","; r.element)
          opt (sym ",")
          sym closing
          return several]]

/-- What stands in parentheses: a tuple, an expression, or a comprehension. -/
def parenthesized : Rule Unit :=
  r.display "(" ")" "parenthesized_expression" "tuple" "generator_expression"

/-- What stands in square brackets: a list or a comprehension. -/
def listDisplay : Rule Unit := r.display "[" "]" "list" "list" "list_comprehension"

/-- What stands in braces: a dictionary, a set, or a comprehension. -/
def braceDisplay : Rule Unit := nodeAs do
  sym "\x7b"
  bracketed <| oneOf
    [do
      sym "\x7d"
      return "dictionary",
     do
      let isPair ← entry
      oneOf
        [do
          tag "body"
          r.comprehensionClauses
          sym "\x7d"
          return if isPair then "dictionary_comprehension" else "set_comprehension",
         do
          many (do sym ","; let _ ← entry)
          opt (sym ",")
          sym "\x7d"
          return if isPair then "dictionary" else "set"]]
where
  /-- An entry, and whether it belongs to a dictionary. -/
  entry : Rule Bool :=
    oneOf
      [do
        r.dictionarySplat
        return true,
       do
        r.element
        oneOf
          [do
            wrap "pair" "key" do
              sym ":"
              field "value" r.expression
            return true,
           return false]]

/-! ## 4. Operands -/

/-- A slice or an index. -/
def subscriptPart : Rule Unit :=
  oneOf
    [node "slice" rest,
     do
      r.element
      opt (wrap "slice" "" rest)]
where
  /-- A slice from its first colon on. -/
  rest : Rule Unit := do
    sym ":"
    opt r.expression
    opt (do sym ":"; opt r.expression)

/-- An expression that nothing has been applied to yet. -/
def atom : Rule Unit :=
  oneOf
    [r.strings, number, r.parenthesized, r.listDisplay, r.braceDisplay,
      token "ellipsis" true (fixedEnd "..."),
      namedWord "true" "True", namedWord "false" "False", namedWord "none" "None",
      looseIdentifier]

/-- Calls, attributes and subscripts after an expression. -/
def primary : Rule Unit := do
  r.atom
  many (oneOf
    [wrap "attribute" "object" (do sym "."; field "attribute" looseIdentifier),
     wrap "call" "function" (field "arguments" r.argumentList),
     wrap "subscript" "value" (do
      sym "["
      bracketed do
        sepBy1 (field "subscript" r.subscriptPart) (sym ",")
        opt (sym ",")
        sym "]")])

/-- An operand, with signs before it and a power after it. -/
def factorForm : Rule Unit :=
  oneOf
    [node "unary_operator" (do
      field "operator" (oneOf [op "+" [], op "-" ["->"], sym "~"])
      field "argument" r.factor),
     do
      oneOf
        [node "await" (do kw "await"; never (oneOf ([",", ")", "=", "."].map sym)); r.primary),
          r.primary]
      opt (wrap "binary_operator" "left" do
        field "operator" (op "**" ["**="])
        field "right" r.factor)]

/-! ## 5. Operators -/

/-- Left-associative operators of one level over operands of the next. -/
def leftLevel (kind : String) (operators : List (Rule Unit)) (operand : Rule Unit) :
    Rule Unit := do
  operand
  many (wrap kind "left" do
    field "operator" (oneOf operators)
    field "right" operand)

/-- The comparison operators. -/
def comparisonOperators : List (Rule Unit) :=
  [sym "==", sym "!=", sym "<=", op "<" ["<<", "<>"], sym "<>", sym ">=", op ">" [">>"], kw "in",
    do kw "not"; kw "in",
    do kw "is"; kw "not",
    kw "is"]

/-- Sums, shifts and the bitwise operators, which bind more tightly than comparisons. -/
def arithmetic : Rule Unit :=
  let binaryLevel := leftLevel "binary_operator"
  let products := binaryLevel
    [op "*" ["**", "*="], op "//" ["//="], op "/" ["//", "/="], op "%" ["%="], op "@" ["@="]]
    r.factor
  let sums := binaryLevel [op "+" ["+="], op "-" ["-=", "->"]] products
  let shifts := binaryLevel [op "<<" ["<<="], op ">>" [">>="]] sums
  let ands := binaryLevel [op "&" ["&="]] shifts
  let exclusiveOrs := binaryLevel [op "^" ["^="]] ands
  binaryLevel [op "|" ["|="]] exclusiveOrs

/-- Comparisons, which chain. -/
def comparison : Rule Unit := do
  r.arithmetic
  opt (wrap "comparison_operator" "" (many1 do
    field "operators" (oneOf comparisonOperators)
    r.arithmetic))

/-- `not` before a comparison. -/
def inversionForm : Rule Unit :=
  oneOf
    [node "not_operator" (do
      kw "not"
      field "argument" (r.form .inversion)),
     r.comparison]

/-- `and` and `or`. -/
def disjunction : Rule Unit :=
  leftLevel "boolean_operator" [kw "or"]
    (leftLevel "boolean_operator" [kw "and"] (r.form .inversion))

/-- One parameter of a `lambda`. -/
def lambdaParameter : Rule Unit :=
  oneOf
    [node "dictionary_splat_pattern" (do sym "**"; looseIdentifier),
     node "list_splat_pattern" (do sym "*"; looseIdentifier),
     node "keyword_separator" (sym "*"),
     node "positional_separator" (sym "/"),
     node "default_parameter" (do
      field "name" looseIdentifier
      op "=" ["=="]
      field "value" r.expression),
     looseIdentifier]

/-- An expression that a comma ends. -/
def expressionForm : Rule Unit :=
  oneOf
    [node "lambda" (do
      kw "lambda"
      opt (field "parameters" (node "lambda_parameters" do
        sepBy1 r.lambdaParameter (sym ",")
        opt (sym ",")))
      sym ":"
      field "body" r.expression),
     node "named_expression" (do
      field "name" looseIdentifier
      sym ":="
      field "value" r.expression),
     do
      r.disjunction
      opt (wrap "conditional_expression" "" do
        kw "if"
        r.disjunction
        kw "else"
        r.expression)]

end Rules

end Codemap.Grammar.Python
