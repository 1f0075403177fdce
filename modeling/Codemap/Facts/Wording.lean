/-
# Texts of comments, literals and types

What is kept of the text of a node: the words of a comment without its marks, the inside of a
string without its quotes, a type without the colon before it or the arguments after it, and the
first eighty characters of an argument.
-/
import Codemap.Text.Pieces

namespace Codemap.Facts

open Codemap.Text

/-! ## 1. Comments -/

/-- The lines of a text without blanks around them, empty ones left out. -/
def contentLines (clean : List Char → List Char) (s : List Char) : List Char :=
  join ['\n'] (((lines s).map clean).filter (!·.isEmpty))

/-- The words of a block comment: its marks, and the stars that start its lines, removed. -/
def commentWords (raw : List Char) : List Char :=
  let body := dropCopiesEnd ['*', '/']
    (dropCopiesStart ['/', '*'] (dropCopiesStart ['/', '*', '*'] (trim raw)))
  contentLines (fun l => trim ((trim l).dropWhile (· == '*'))) body

/-- Whether a text starts with a quotation mark. -/
def startsQuoted : List Char → Bool
  | c :: _ => c.toNat == 34 || c.toNat == 39
  | [] => false

/-- A literal without the letter `c` before its quotation mark. -/
def dropLetter (s : List Char) (c : Char) : List Char :=
  match s with
  | d :: r => if d == c && startsQuoted r then r else s
  | [] => s

/-- The inside of a text that starts and ends with `quote`. -/
def insideOf? (quote s : List Char) : Option (List Char) :=
  if 2 * quote.length ≤ s.length && quote.isPrefixOf s && quote.isSuffixOf s then
    some ((s.drop quote.length).take (s.length - 2 * quote.length))
  else none

/-- The quotes a documentation string may stand in, the longer ones first. -/
def docQuotes : List (List Char) :=
  let double := Char.ofNat 34
  let single := Char.ofNat 39
  [[double, double, double], [single, single, single], [double], [single]]

/-- The words of a documentation string. -/
def docStringWords (raw : List Char) : List Char :=
  let bare := ['r', 'u', 'R', 'U'].foldl dropLetter (trim raw)
  let inside := (docQuotes.findSome? fun q => insideOf? q bare).getD bare
  contentLines trim inside

/-! ## 2. Types and literals -/

/-- A type annotation without the colons before it. -/
def annotatedType (raw : List Char) : List Char :=
  trim ((trim raw).dropWhile (· == ':'))

/-- A quotation mark of any kind. -/
def isQuote (c : Char) : Bool := c.toNat == 34 || c.toNat == 39 || c.toNat == 96

/-- A literal without the quotation marks around it. -/
def unquote (raw : List Char) : List Char := strip isQuote (trim raw)

/-- A type without its arguments. -/
def baseType (raw : List Char) : List Char :=
  trim ((trim raw).takeWhile fun c => !(c == '<' || c == '[' || c == '('))

/-- How many characters of an argument are kept. -/
def argumentLimit : Nat := 80

/-- The text of an argument, cut off where it is too long. -/
def argumentText (raw : List Char) : List Char :=
  let s := trim raw
  if s.length ≤ argumentLimit then s else s.take argumentLimit ++ ['.', '.', '.']

/-! ## 3. On strings -/

/-- A function on characters as a function on strings. -/
def onString (f : List Char → List Char) (s : String) : String := .ofList (f s.toList)

end Codemap.Facts
