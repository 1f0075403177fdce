/-
# Python: tokens and layout

Statements end with their line, and blocks consist of the lines that are indented more deeply
than the line before them.  Within brackets the ends of lines do not count.

A block ends before the first line that is indented less than it, unless a comment that is
indented at least as deeply as the block stands before that line: such comments still belong to
the block.
-/
import Codemap.Grammar.Rule
import Codemap.Text.Blank

namespace Codemap.Grammar.Python

open Codemap.Syntax

/-! ## 1. Forms -/

/-- The forms that rules refer to before they are defined.  A statement and what follows a colon
know how deeply the block they stand in is indented. -/
inductive Form where
  | expression
  | inversion
  | factor
  | target
  | casePattern
  | assigned
  | statement (indent : Nat)
  | suite (field : String) (indent : Nat)
deriving Repr, DecidableEq

/-- The rule of each form. -/
structure Rules where
  form : Form → Rule Unit

/-! ## 2. Extras -/

/-- Characters skipped between the tokens of a line. -/
def isSpace (c : Char) : Bool :=
  c != '\n' && (Text.isBlank c || c.toNat == 0xFEFF || c.toNat == 0x2060 || c.toNat == 0x200B)

/-- Characters skipped between tokens within brackets. -/
def isGap (c : Char) : Bool := c == '\n' || isSpace c

/-- The end of a backslash and the line break after it. -/
def continuationEnd (text : Array Char) (pos : Nat) : Option Nat :=
  if text[pos]? == some '\\' then
    match text[pos + 1]? with
    | some '\n' => some (pos + 2)
    | some '\r' => if text[pos + 2]? == some '\n' then some (pos + 3) else none
    | _ => none
  else none

/-- The end of a comment. -/
def commentEnd (text : Array Char) (pos : Nat) : Nat := (runEnd (· != '\n') text pos).getD pos

/-- What is skipped between the tokens of a line. -/
def lineExtra : Extras := fun text _ pos =>
  match runEnd isSpace text pos with
  | some stop => some (stop, none)
  | none => (continuationEnd text pos).map (·, none)

/-- What is skipped within brackets and between lines. -/
def bracketExtra : Extras := fun text _ pos =>
  match runEnd isGap text pos with
  | some stop => some (stop, none)
  | none =>
    if text[pos]? == some '#' then some (commentEnd text pos, some "comment")
    else (continuationEnd text pos).map (·, none)

/-- Reads `p` within brackets. -/
def bracketed {α : Type} (p : Rule α) : Rule α := withExtra bracketExtra p

/-- Skips to the next line that holds a token. -/
def skipLines : Rule Unit := withExtra bracketExtra skip

/-! ## 3. Lines -/

/-- What comes between a token and the next: whether the line ends, how deeply the next line with
a token is indented, and the first comment on a line of its own with its indentation. -/
structure Ahead where
  lineEnds : Bool
  indent : Nat
  comment : Option (Nat × Nat)
  atEnd : Bool

/-- Looks ahead from place `i`, `indent` columns into its line. -/
def aheadFrom (text : Array Char) : Nat → Nat → Ahead → Ahead
  | 0, _, a => a
  | fuel + 1, i, a =>
    match text[i]? with
    | none => { a with lineEnds := true, indent := 0, atEnd := true }
    | some '\n' => aheadFrom text fuel (i + 1) { a with lineEnds := true, indent := 0 }
    | some ' ' => aheadFrom text fuel (i + 1) { a with indent := a.indent + 1 }
    | some '\t' => aheadFrom text fuel (i + 1) { a with indent := a.indent + 8 }
    | some '#' =>
      if a.lineEnds then
        aheadFrom text fuel (commentEnd text i)
          { a with comment := a.comment <|> some (i, a.indent) }
      else a
    | some c =>
      if c == '\r' || c.toNat == 12 then aheadFrom text fuel (i + 1) { a with indent := 0 }
      else
        match continuationEnd text i with
        | some j => aheadFrom text fuel j a
        | none => a

/-- What comes next. -/
def lookAhead : Rule Ahead := fun input s =>
  some (aheadFrom input.text (input.text.size + 1 - s.pos) s.pos ⟨false, 0, none, false⟩, s)

/-- Reads a comment at the end of the line, as part of the construct being read. -/
def lineComment : Rule Unit := do
  skip
  match ← charAt? 0 with
  | some '#' =>
    let s ← get
    let stop := commentEnd (← read).text s.pos
    set { s with
      pos := stop
      stop
      nodes := Draft.leaf "comment" true true s.pos stop :: s.nodes }
  | _ => pure ()

/-- The end of a logical line, with a comment that stands there. -/
def newline : Rule Unit := do
  lineComment
  match ← charAt? 0 with
  | none => pure ()
  | some c => check (c == '\n')

/-- A comment on a line of its own that is indented at least as deeply as the block, while the
next token is indented less. -/
def trailingComment (indent : Nat) : Rule Unit := do
  let a ← lookAhead
  match a.comment with
  | some (place, column) =>
    check (a.lineEnds && indent ≤ column && (a.indent < indent || a.atEnd))
    let stop := commentEnd (← read).text place
    let s ← get
    set { s with
      pos := stop
      stop
      nodes := Draft.leaf "comment" true true place stop :: s.nodes }
  | none => failure

/-- Goes on to the next line of a block, if it belongs to the block. -/
def nextLine (indent : Nat) : Rule Unit := do
  let a ← lookAhead
  check (a.lineEnds && !a.atEnd && indent ≤ a.indent)
  skipLines

/-! ## 4. Words and numbers -/

/-- Characters that words start with. -/
def isWordStart (c : Char) : Bool :=
  c.isAlpha || c == '_' || (c.toNat ≥ 128 && !isGap c)

/-- Characters that words consist of. -/
def isWordChar (c : Char) : Bool := isWordStart c || c.isDigit

/-- Words that go on after an expression or that start one. -/
def operatorWords : List String :=
  ["and", "or", "not", "in", "is", "if", "else", "for", "lambda", "as", "from", "True", "False",
    "None"]

/-- Words that start statements or clauses. -/
def statementWords : List String :=
  ["return", "import", "class", "def", "pass", "break", "continue", "global", "nonlocal",
    "assert", "del", "raise", "with", "while", "try", "except", "finally", "elif"]

/-- Words that are never names. -/
def reserved : List String := operatorWords ++ statementWords

/-- A name. -/
def identifier : Rule Unit := wordToken "identifier" isWordStart isWordChar reserved

/-- A name where no statement can start: words that start statements count as names. -/
def looseIdentifier : Rule Unit := wordToken "identifier" isWordStart isWordChar operatorWords

/-- Characters of a number after its first digit. -/
def isNumberChar (c : Char) : Bool := c.isAlphanum || c == '_'

/-- Digits and separators. -/
def isDigitOrGap (c : Char) : Bool := c.isDigit || c == '_'

/-- The end of a run, or the place itself when the run is empty. -/
def runOrHere (p : Char → Bool) (text : Array Char) (pos : Nat) : Nat :=
  (runEnd p text pos).getD pos

/-- The end of a number at a place, and whether it is a floating point number. -/
def numberAt (text : Array Char) (pos : Nat) : Option (Nat × Bool) :=
  match text[pos]?, text[pos + 1]? with
  | some '0', some c =>
    if "xXoObB".toList.contains c then some (runOrHere isNumberChar text (pos + 2), false)
    else decimal
  | some c, next =>
    if c.isDigit || (c == '.' && (next.map Char.isDigit).getD false) then decimal else none
  | none, _ => none
where
  /-- The end of a decimal number. -/
  decimal : Option (Nat × Bool) :=
    let whole := runOrHere isDigitOrGap text pos
    let (point, isFloat) :=
      if text[whole]? == some '.' then (runOrHere isDigitOrGap text (whole + 1), true)
      else (whole, false)
    let (power, isFloat) := match text[point]? with
      | some c =>
        if c == 'e' || c == 'E' then
          let digits := match text[point + 1]? with
            | some '+' | some '-' => point + 2
            | _ => point + 1
          match runEnd isDigitOrGap text digits with
          | some stop => (stop, true)
          | none => (point, isFloat)
        else (point, isFloat)
      | none => (point, isFloat)
    match text[power]? with
    | some c => some (if "jJlL".toList.contains c then power + 1 else power, isFloat)
    | none => some (power, isFloat)

/-- A number. -/
def number : Rule Unit :=
  oneOf
    [token "float" true fun text pos => (numberAt text pos).bind fun (stop, isFloat) =>
        if isFloat then some stop else none,
      token "integer" true fun text pos => (numberAt text pos).map (·.1)]

end Codemap.Grammar.Python
