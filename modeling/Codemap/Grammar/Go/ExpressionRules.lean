/-
# Go: tokens, types and expressions

The end of a line ends a statement where its last token may be the end of one: a name, a
literal, a closing bracket, `++`, `--`, or one of the words `break`, `continue`, `fallthrough` and
`return`.  Elsewhere, and everywhere within parentheses and brackets, line ends are blanks.

The value of a composite type may not stand bare in the head of a statement, where the brace
opens the body; expressions therefore know whether braces may follow a name.
-/
import Codemap.Grammar.Rule
import Codemap.Text.Blank

namespace Codemap.Grammar.Go

open Codemap.Syntax

/-! ## 1. Forms -/

/-- The forms that rules refer to before they are defined. -/
inductive Form where
  | expression (braces : Bool)
  | unary (braces : Bool)
  | typeExpr
  | literalValue
  | parameters
  | block
  | statement
deriving Repr, DecidableEq

/-- The rule of each form. -/
structure Rules where
  form : Form → Rule Unit

/-! ## 2. Words -/

/-- Characters that words start with. -/
def isWordStart (c : Char) : Bool :=
  c.isAlpha || c == '_' || (c.toNat ≥ 128 && !Text.isBlank c)

/-- Characters that words consist of. -/
def isWordChar (c : Char) : Bool := isWordStart c || c.isDigit

/-- Words that are never names. -/
def reserved : List String :=
  ["break", "default", "func", "interface", "select", "case", "defer", "go", "map", "struct",
    "chan", "else", "goto", "package", "switch", "const", "fallthrough", "if", "range", "type",
    "continue", "for", "import", "return", "var"]

/-- A name, under a kind. -/
def nameAs (kind : String) : Rule Unit := wordToken kind isWordStart isWordChar reserved

/-- A name. -/
def identifier : Rule Unit := nameAs "identifier"

/-- The name of a field or method. -/
def fieldName : Rule Unit := nameAs "field_identifier"

/-- The name of a type. -/
def typeName : Rule Unit := nameAs "type_identifier"

/-- The name of a package. -/
def packageName : Rule Unit := nameAs "package_identifier"

/-- The opening brace. -/
def openBrace : Rule Unit := sym "\x7b"

/-- The closing brace. -/
def closeBrace : Rule Unit := sym "\x7d"

/-! ## 3. Extras -/

/-- The end of a block comment whose text starts at a place, if it is closed. -/
def blockEnd (text : Array Char) : Nat → Nat → Option Nat
  | 0, _ => none
  | fuel + 1, i =>
    match text[i]?, text[i + 1]? with
    | some '*', some '/' => some (i + 2)
    | some _, _ => blockEnd text fuel (i + 1)
    | none, _ => none

/-- The end of a comment. -/
def commentEnd? (text : Array Char) (pos : Nat) : Option Nat :=
  if text[pos]? == some '/' then
    match text[pos + 1]? with
    | some '/' => some ((runEnd (· != '\n') text pos).getD pos)
    | some '*' => blockEnd text (text.size - pos) (pos + 2)
    | _ => none
  else none

/-- The start of the word that ends at a place. -/
def wordStart (text : Array Char) : Nat → Nat
  | 0 => 0
  | i + 1 => if (text[i]?.map isWordChar).getD false then wordStart text i else i + 1

/-- Words that are not names and yet may end a statement. -/
def endingWords : List String := ["break", "continue", "fallthrough", "return"]

/-- Whether the token that ends at a place may be the last of a statement. -/
def endsStatement (text : Array Char) (stop : Nat) : Bool :=
  match if stop == 0 then none else text[stop - 1]? with
  | none => false
  | some c =>
    if isWordChar c then
      let word : String := .ofList (text.extract (wordStart text stop) stop).toList
      endingWords.contains word || !reserved.contains word
    else if c == '+' || c == '-' then 2 ≤ stop && text[stop - 2]? == some c
    else c == ')' || c == ']' || c.toNat == 0x7D || c.toNat == 34 || c.toNat == 39
      || c.toNat == 96

/-- What is skipped within parentheses and brackets. -/
def bracketExtra : Extras := fun text _ pos =>
  match runEnd Text.isBlank text pos with
  | some stop => some (stop, none)
  | none => (commentEnd? text pos).map (·, some "comment")

/-- What is skipped elsewhere: line ends only where they do not end a statement. -/
def lineExtra : Extras := fun text last pos =>
  match runEnd (fun c => c != '\n' && Text.isBlank c) text pos with
  | some stop => some (stop, none)
  | none =>
    if text[pos]? == some '\n' then
      if endsStatement text last then none else some (pos + 1, none)
    else (commentEnd? text pos).map (·, some "comment")

/-- Reads `p` in parentheses. -/
def parens (p : Rule Unit) : Rule Unit := do
  sym "("
  withExtra bracketExtra do p; sym ")"

/-- Reads `p` in brackets. -/
def brackets (p : Rule Unit) : Rule Unit := do
  sym "["
  withExtra bracketExtra do p; sym "]"

/-- `p` once or more, separated by commas; a last comma may follow. -/
def commaList (p : Rule Unit) : Rule Unit := do
  sepBy1 p (sym ",")
  opt (sym ",")

/-- What separates statements, specifications and fields. -/
def terminator : Rule Unit := do
  skip
  oneOf [hiddenToken (fixedEnd "\n"), rawSym ";"]

/-- `p` as often as it stands there, separated by terminators; one may follow. -/
def terminated (p : Rule Unit) : Rule Unit := do
  opt (sepBy1 p terminator)
  opt terminator

/-- Reads `p` in braces, where line ends count again. -/
def braced (p : Rule Unit) : Rule Unit := do
  openBrace
  withExtra lineExtra do p; closing "\x7d"

/-! ## 4. Literals -/

/-- The end of an escape sequence. -/
def escapeEnd (text : Array Char) (pos : Nat) : Option Nat :=
  if text[pos]? == some '\\' then
    match text[pos + 1]? with
    | none => none
    | some '\n' => none
    | some _ => some (pos + 2)
  else none

/-- A string. -/
def string : Rule Unit :=
  oneOf
    [node "raw_string_literal" (do
      sym "\x60"
      opt (rawToken "raw_string_literal_content" true (runEnd fun c => c.toNat != 96))
      rawSym "\x60"),
     node "interpreted_string_literal" (do
      sym "\""
      many (oneOf
        [rawToken "interpreted_string_literal_content" true
          (runEnd fun c => c.toNat != 34 && c != '\\' && c != '\n'),
         rawToken "escape_sequence" true escapeEnd])
      rawSym "\"")]

/-- A character. -/
def rune : Rule Unit := token "rune_literal" true fun text pos =>
  if (text[pos]?.map (·.toNat)) == some 39 then
    let inside := match text[pos + 1]? with
      | some '\\' => (runEnd (fun c => c.toNat != 39) text (pos + 3)).getD (pos + 3)
      | _ => pos + 2
    if (text[inside]?.map (·.toNat)) == some 39 then some (inside + 1) else none
  else none

/-- Characters of a number after its first digit. -/
def isNumberChar (c : Char) : Bool := c.isAlphanum || c == '_'

/-- The end of a number, and the kind of number that it is. -/
def numberAt (text : Array Char) (pos : Nat) : Option (Nat × String) :=
  match text[pos]? with
  | none => none
  | some c =>
    let dotted := c == '.' && ((text[pos + 1]?.map Char.isDigit).getD false)
    if c.isDigit || dotted then
      let hex := c == '0' && (text[pos + 1]? == some 'x' || text[pos + 1]? == some 'X')
      let whole := (runEnd isNumberChar text pos).getD pos
      let stop := if text[whole]? == some '.' then
          (runEnd isNumberChar text (whole + 1)).getD (whole + 1)
        else whole
      let last := if stop == 0 then none else text[stop - 1]?
      let exponent :=
        if hex then last == some 'p' || last == some 'P' else last == some 'e' || last == some 'E'
      let stop :=
        if exponent && (text[stop]? == some '-' || text[stop]? == some '+') then
          (runEnd isNumberChar text (stop + 1)).getD stop
        else stop
      let letters := (text.extract pos stop).toList
      let kind :=
        if letters.getLast? == some 'i' then "imaginary_literal"
        else if letters.contains '.' || (!hex && letters.any fun d => d == 'e' || d == 'E') then
          "float_literal"
        else "int_literal"
      some (stop, kind)
    else none

/-- A number. -/
def number : Rule Unit := oneOf
  (["int_literal", "float_literal", "imaginary_literal"].map fun kind =>
    token kind true fun text pos =>
      (numberAt text pos).bind fun (stop, found) => if found == kind then some stop else none)

/-- A literal. -/
def literal : Rule Unit :=
  oneOf
    [string, rune, number, namedWord "nil" "nil", namedWord "true" "true",
      namedWord "false" "false", namedWord "iota" "iota"]

namespace Rules

variable (r : Rules)

/-! ## 5. Types -/

/-- A type. -/
def type : Rule Unit := r.form .typeExpr

/-- An expression that braces may follow. -/
def expression : Rule Unit := r.form (.expression true)

/-- A block. -/
def block : Rule Unit := r.form .block

/-- Parameters, or results that stand in parentheses. -/
def parameters : Rule Unit := r.form .parameters

/-- `A | B`, as an element of an interface, a constraint or an argument of a type. -/
def typeElement : Rule Unit := node "type_elem" (sepBy1 r.type (op "|" ["||", "|="]))

/-- `[A, B]` after a type. -/
def typeArguments : Rule Unit := node "type_arguments" (brackets (commaList r.typeElement))

/-- A type that is named. -/
def namedType : Rule Unit := do
  oneOf
    [node "qualified_type" (do
      field "package" packageName
      sym "."
      field "name" typeName),
     typeName]
  opt (wrap "generic_type" "type" (field "type_arguments" r.typeArguments))

/-- What a function returns. -/
def result : Rule Unit := opt (field "result" (oneOf [r.parameters, r.type]))

/-- The parameters and results of a function. -/
def signature : Rule Unit := do
  field "parameters" r.parameters
  r.result

/-- A field of a structure; one without a name is embedded. -/
def structField : Rule Unit := node "field_declaration" do
  oneOf
    [do
      sepBy1 (field "name" fieldName) (sym ",")
      field "type" r.type,
     do
      opt (sym "*")
      field "type" r.namedType]
  opt (field "tag" string)

/-- `struct { … }`. -/
def structType : Rule Unit := node "struct_type" do
  kw "struct"
  node "field_declaration_list" (braced (terminated r.structField))

/-- `interface { … }`. -/
def interfaceType : Rule Unit := node "interface_type" do
  kw "interface"
  braced (terminated (oneOf
    [node "method_elem" (do
      field "name" fieldName
      r.signature),
     r.typeElement]))

/-- `[n]T`. -/
def arrayType : Rule Unit := node "array_type" do
  brackets (field "length" r.expression)
  field "element" r.type

/-- `[]T`. -/
def sliceType : Rule Unit := node "slice_type" do
  sym "["
  sym "]"
  field "element" r.type

/-- `map[K]V`. -/
def mapType : Rule Unit := node "map_type" do
  kw "map"
  brackets (field "key" r.type)
  field "value" r.type

/-- `chan T`, `chan<- T` and `<-chan T`. -/
def channelType : Rule Unit := node "channel_type" do
  oneOf
    [do kw "chan"; opt (sym "<-"),
     do sym "<-"; kw "chan"]
  field "value" r.type

/-- A type of any form. -/
def typeForm : Rule Unit :=
  oneOf
    [r.structType, r.interfaceType, r.sliceType, r.arrayType, r.mapType, r.channelType,
      node "function_type" (do kw "func"; r.signature),
      node "pointer_type" (do sym "*"; r.type),
      node "negated_type" (do sym "~"; r.type),
      node "parenthesized_type" (parens r.type),
      r.namedType]

/-- One declaration in a list of parameters.  A list of names may share one type; a type alone
is a parameter without a name. -/
def parameter : Rule Unit :=
  oneOf
    [node "variadic_parameter_declaration" (do
      opt (field "name" identifier)
      sym "..."
      field "type" r.type),
     node "parameter_declaration" (do
      sepBy1 (field "name" identifier) (sym ",")
      field "type" r.type),
     node "parameter_declaration" (field "type" r.type)]

/-- A list of parameters. -/
def parametersForm : Rule Unit := node "parameter_list" (parens (opt (commaList r.parameter)))

/-- `[T any, K comparable]` after the name of a function or type. -/
def typeParameters : Rule Unit := node "type_parameter_list" (brackets (commaList
  (node "type_parameter_declaration" do
    sepBy1 (field "name" identifier) (sym ",")
    field "type" (node "type_constraint" (sepBy1 r.type (op "|" ["||", "|="]))))))

/-! ## 6. Values of composite types -/

/-- An element of a composite value. -/
def literalElement : Rule Unit :=
  node "literal_element" (oneOf [r.form .literalValue, r.expression])

/-- `{ … }` after a type or as an element. -/
def literalValueForm : Rule Unit := node "literal_value" do
  openBrace
  withExtra bracketExtra do
    opt (commaList (do
      r.literalElement
      opt (wrap "keyed_element" "" (do sym ":"; r.literalElement))))
    closeBrace

/-- The braces of a composite value after its type. -/
def bodyOfLiteral : Rule Unit := field "body" (r.form .literalValue)

/-- A composite value whose type is not just a name. -/
def builtLiteral : Rule Unit := node "composite_literal" do
  field "type" (oneOf
    [r.mapType, r.sliceType,
      node "implicit_length_array_type" (do
        brackets (sym "...")
        field "element" r.type),
      r.arrayType, r.structType])
  r.bodyOfLiteral

/-- A composite value whose type is named. -/
def namedLiteral : Rule Unit := node "composite_literal" do
  field "type" r.namedType
  r.bodyOfLiteral

/-! ## 7. Operands -/

/-- The arguments of a call. -/
def argumentList : Rule Unit := node "argument_list" (parens (opt (commaList (do
  r.expression
  opt (wrap "variadic_argument" "" (sym "..."))))))

/-- The arguments of `make` and `new`: a type first. -/
def typedArgumentList : Rule Unit := node "argument_list" (parens (opt (do
  r.type
  many (do sym ","; r.expression)
  opt (sym ","))))

/-- The one expression, in parentheses, that a conversion converts. -/
def converted : Rule Unit := parens (do field "operand" r.expression; opt (sym ","))

/-- A conversion to a type that is not just a name. -/
def conversion : Rule Unit := node "type_conversion_expression" do
  field "type" (oneOf
    [r.sliceType, r.arrayType, r.mapType, r.channelType, r.interfaceType, r.structType,
      node "function_type" (do kw "func"; r.signature)])
  r.converted

/-- A conversion to a type in parentheses that is no expression. -/
def parenthesizedConversion : Rule Unit := node "type_conversion_expression" do
  field "type" (node "parenthesized_type" (parens r.type))
  r.converted

/-- A conversion to a named type with arguments. -/
def genericConversion : Rule Unit := node "type_conversion_expression" do
  field "type" (do
    r.namedType
    check ((← get).nodes.head?.map (·.kind) == some "generic_type"))
  r.converted

/-- A function without a name. -/
def functionLiteral : Rule Unit := node "func_literal" do
  kw "func"
  r.signature
  field "body" r.block

/-- An expression that nothing has been applied to yet. -/
def primary (braces : Bool) : Rule Unit :=
  oneOf
    ([literal, r.functionLiteral, r.builtLiteral, r.conversion] ++
      (if braces then [r.namedLiteral] else []) ++
      [r.genericConversion,
        node "call_expression" (do
          field "function" (oneOf (["make", "new"].map builtIn))
          field "arguments" r.typedArgumentList),
        node "parenthesized_expression" (parens r.expression),
        r.parenthesizedConversion,
        identifier])
where
  /-- A function that is built in and takes a type. -/
  builtIn (name : String) : Rule Unit := namedWord "identifier" name

/-- The parts of a slice expression. -/
def sliceBounds : Rule Unit := do
  opt (field "start" r.expression)
  sym ":"
  opt (field "end" r.expression)
  opt (do
    sym ":"
    opt (field "capacity" r.expression))

/-- Calls, members and elements after an expression. -/
def applied (braces : Bool) : Rule Unit := do
  r.primary braces
  many (oneOf
    [wrap "selector_expression" "operand" (do
      sym "."
      field "field" fieldName),
     wrap "type_assertion_expression" "operand" (do
      sym "."
      parens (field "type" r.type)),
     wrap "call_expression" "function" (do
      field "type_arguments" r.typeArguments
      field "arguments" r.argumentList),
     wrap "call_expression" "function" (field "arguments" r.argumentList),
     wrap "index_expression" "operand" (brackets (field "index" r.expression)),
     wrap "slice_expression" "operand" (brackets r.sliceBounds),
     wrap "type_instantiation_expression" "type" (brackets (commaList r.type))])

/-- An operand with the operators before it. -/
def unaryForm (braces : Bool) : Rule Unit :=
  oneOf
    [node "unary_expression" (do
      field "operator" (oneOf
        [op "+" ["++", "+="], op "-" ["--", "-="], op "!" ["!="], op "^" ["^="], sym "<-",
          op "*" ["*="], op "&" ["&&", "&="]])
      field "operand" (r.form (.unary braces))),
     r.applied braces]

/-! ## 8. Operators -/

/-- Left-associative operators of one level over operands of the next. -/
def leftLevel (operators : List (Rule Unit)) (operand : Rule Unit) : Rule Unit := do
  operand
  many (wrap "binary_expression" "left" do
    field "operator" (oneOf operators)
    field "right" operand)

/-- An expression of any form. -/
def expressionForm (braces : Bool) : Rule Unit :=
  let products := leftLevel
    [op "*" ["*="], op "/" ["/="], op "%" ["%="], op "<<" ["<<="], op ">>" [">>="],
      op "&^" ["&^="], op "&" ["&&", "&="]]
    (r.form (.unary braces))
  let sums := leftLevel
    [op "+" ["++", "+="], op "-" ["--", "-="], op "|" ["||", "|="], op "^" ["^="]] products
  let comparisons := leftLevel
    [sym "==", sym "!=", sym "<=", op "<" ["<-", "<<"], sym ">=", op ">" [">>"]] sums
  let conjunctions := leftLevel [sym "&&"] comparisons
  leftLevel [sym "||"] conjunctions

end Rules

end Codemap.Grammar.Go
