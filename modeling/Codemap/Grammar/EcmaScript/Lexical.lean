/-
# ECMAScript: tokens

The dialects, the extras, and the tokens that both the expressions and the types of the three
dialects are made of.  A statement may end without a semicolon where a line ends, before a
closing brace, and at the end of the text (`semicolon`).
-/
import Codemap.Grammar.Rule
import Codemap.Text.Blank

namespace Codemap.Grammar.EcmaScript

open Codemap.Syntax

/-! ## 1. Dialects, forms and rules -/

/-- The dialects of the language: with types, with types and markup, with markup only. -/
inductive Dialect where
  | typed
  | typedMarkup
  | plain
deriving Repr, DecidableEq

/-- The forms that rules refer to before they are defined. -/
inductive Form where
  | expression
  | unary
  | markup
  | pattern
  | typeExpr
  | unaryType
  | formalParameters
  | decorator
  | block
  | classBody
  | classExpression
  | statement
deriving Repr, DecidableEq

/-- What the rules of the grammar are written against: the dialect, and the rule of each form. -/
structure Rules where
  dialect : Dialect
  form : Form → Rule Unit

/-- Whether the dialect has types. -/
def Rules.typed (r : Rules) : Bool := r.dialect != .plain

/-- Whether the dialect has markup. -/
def Rules.hasMarkup (r : Rules) : Bool := r.dialect != .typed

/-! ## 2. Characters and extras -/

/-- Characters skipped between tokens. -/
def isSpace (c : Char) : Bool :=
  Text.isBlank c || c.toNat == 0xFEFF || c.toNat == 0x2060 || c.toNat == 0x200B

/-- Characters that no word contains. -/
def isMark (c : Char) : Bool :=
  c.toNat < 32 || isSpace c || c.toNat == 96 || c.toNat == 34 || c.toNat == 39
    || ":;@#.,|^&<=>+-*/\\%?!~()[]\x7b\x7d".toList.contains c

/-- Characters that words consist of. -/
def isWordChar (c : Char) : Bool := !isMark c

/-- Characters that words start with. -/
def isWordStart (c : Char) : Bool := !isMark c && !c.isDigit

/-- The end of a block comment whose text starts at a place, if it is closed. -/
def blockEnd (text : Array Char) : Nat → Nat → Option Nat
  | 0, _ => none
  | fuel + 1, i =>
    match text[i]?, text[i + 1]? with
    | some '*', some '/' => some (i + 2)
    | some _, _ => blockEnd text fuel (i + 1)
    | none, _ => none

/-- Characters that may stand in a comment that ends with its line. -/
def isLineChar (c : Char) : Bool :=
  c != '\n' && c != '\r' && c.toNat != 0x2028 && c.toNat != 0x2029

/-- White space and comments. -/
def extra : Extras := fun text _ pos =>
  match text[pos]? with
  | none => none
  | some c =>
    if isSpace c then (runEnd isSpace text pos).map (·, none)
    else if c == '/' then
      match text[pos + 1]? with
      | some '/' => some ((runEnd isLineChar text pos).getD pos, some "comment")
      | some '*' => (blockEnd text (text.size - pos) (pos + 2)).map (·, some "comment")
      | _ => none
    else none

/-! ## 3. Words -/

/-- Words that are never identifiers. -/
def reserved : List String :=
  ["break", "case", "catch", "class", "const", "continue", "debugger", "default", "delete", "do",
    "else", "enum", "extends", "finally", "for", "function", "if", "import", "in", "instanceof",
    "new", "return", "super", "switch", "this", "throw", "try", "typeof", "var", "void", "while",
    "with", "null", "true", "false", "export"]

/-- An identifier under another kind name. -/
def identifierAs (kind : String) : Rule Unit := wordToken kind isWordStart isWordChar reserved

/-- An identifier. -/
def identifier : Rule Unit :=
  namedWord "undefined" "undefined" <|> identifierAs "identifier"

/-- Any word, reserved or not. -/
def anyWord (kind : String) : Rule Unit := wordToken kind isWordStart isWordChar []

/-- The name of a private member. -/
def privateName : Rule Unit :=
  token "private_property_identifier" true fun text pos =>
    if text[pos]? == some '#' then wordEnd isWordStart isWordChar text (pos + 1) else none

/-! ## 4. Literals -/

/-- The end of the escape sequence at a place. -/
def escapeEnd (text : Array Char) (pos : Nat) : Option Nat :=
  if text[pos]? == some '\\' then
    match text[pos + 1]? with
    | none => none
    | some 'u' =>
      if text[pos + 2]? == some (Char.ofNat 123) then
        (runEnd (·.toNat != 125) text (pos + 3)).map (· + 1)
      else some (min text.size (pos + 6))
    | some 'x' => some (min text.size (pos + 4))
    | some '\r' => some (if text[pos + 2]? == some '\n' then pos + 3 else pos + 2)
    | some _ => some (pos + 2)
  else none

/-- The inside of a quoted string. -/
def stringParts (quote : Char) : Rule Unit :=
  many (rawToken "string_fragment" true (runEnd fun c => c != quote && c != '\\' && c != '\n')
    <|> rawToken "escape_sequence" true escapeEnd)

/-- A string in single or double quotes. -/
def string : Rule Unit :=
  node "string" (do sym "\""; stringParts (Char.ofNat 34); rawSym "\"")
    <|> node "string" (do sym "'"; stringParts (Char.ofNat 39); rawSym "'")

/-- Characters of a number after its first digit. -/
def isNumberChar (c : Char) : Bool :=
  c.isDigit || c == '_' || ('a' ≤ c && c ≤ 'z') || ('A' ≤ c && c ≤ 'Z')

/-- The end of a run, or the place itself when the run is empty. -/
def runOrHere (p : Char → Bool) (text : Array Char) (pos : Nat) : Nat :=
  (runEnd p text pos).getD pos

/-- The end of an exponent at a place, or the place itself. -/
def exponentEnd (text : Array Char) (pos : Nat) : Nat :=
  match text[pos]? with
  | some c =>
    if c == 'e' || c == 'E' then
      let digits := match text[pos + 1]? with
        | some '+' | some '-' => pos + 2
        | _ => pos + 1
      runOrHere Char.isDigit text digits
    else if c == 'n' then pos + 1
    else pos
  | none => pos

/-- Digits and separators. -/
def isDigitOrGap (c : Char) : Bool := c.isDigit || c == '_'

/-- The end of a number. -/
def numberEnd (text : Array Char) (pos : Nat) : Option Nat :=
  match text[pos]?, text[pos + 1]? with
  | some '0', some c =>
    if "xXoObB".toList.contains c then runEnd isNumberChar text (pos + 2)
    else decimal pos
  | some c, _ => if c.isDigit || c == '.' then decimal pos else none
  | none, _ => none
where
  /-- The end of a decimal number, with its fraction and exponent. -/
  decimal (pos : Nat) : Option Nat :=
    let whole := runOrHere isDigitOrGap text pos
    let stop :=
      if text[whole]? == some '.' then runOrHere isDigitOrGap text (whole + 1) else whole
    if stop == pos || (whole == pos && stop == pos + 1) then none
    else some (exponentEnd text stop)

/-- A number. -/
def number : Rule Unit := token "number" true numberEnd

/-- The end of the body of a regular expression, where its closing slash stands. -/
def regexEnd (text : Array Char) : Nat → Bool → Nat → Option Nat
  | 0, _, _ => none
  | fuel + 1, inClass, i =>
    match text[i]? with
    | none => none
    | some '\n' => none
    | some '\\' => regexEnd text fuel inClass (i + 2)
    | some '[' => regexEnd text fuel true (i + 1)
    | some ']' => regexEnd text fuel false (i + 1)
    | some '/' => if inClass then regexEnd text fuel inClass (i + 1) else some i
    | some _ => regexEnd text fuel inClass (i + 1)

/-- A regular expression. -/
def regex : Rule Unit := node "regex" do
  sym "/"
  rawToken "regex_pattern" true fun text pos => regexEnd text (text.size - pos) false pos
  rawSym "/"
  opt (rawToken "regex_flags" true (runEnd fun c => 'a' ≤ c && c ≤ 'z'))

/-! ## 5. Ends of statements -/

/-- Whether a line ends between the last token and the next one. -/
def lineBreakAhead : Rule Bool := fun input s =>
  let t := skipFrom input (input.text.size - s.pos) s
  some ((input.text.extract s.pos t.pos).contains '\n', s)

/-- Succeeds where no line ends before the next token. -/
def sameLine : Rule Unit := do check (!(← lineBreakAhead))

/-- The end of a statement where no semicolon is needed. -/
def autoSemicolon : Rule Unit := fun input s =>
  let t := skipFrom input (input.text.size - s.pos) s
  let next := input.text[t.pos]?
  if next.isNone || next == some (Char.ofNat 125)
      || (input.text.extract s.pos t.pos).contains '\n' then
    some ((), s)
  else none

/-- The end of a statement. -/
def semicolon : Rule Unit := sym ";" <|> do complete; autoSemicolon

/-- The opening brace. -/
def openBrace : Rule Unit := sym "\x7b"

/-- The closing brace. -/
def closeBrace : Rule Unit := sym "\x7d"

/-- Items separated by commas, any of which may be left out. -/
def commaSep (p : Rule Unit) : Rule Unit := do
  opt p
  many (do sym ","; opt p)

end Codemap.Grammar.EcmaScript
