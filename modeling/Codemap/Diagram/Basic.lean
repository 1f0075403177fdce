/-
# Diagrams

A diagram is a header followed by indented lines, each ended by a line feed.  Names become
identifiers of ASCII letters, digits and underscores; types keep their shape, but for the brackets
around their arguments, which are written as tildes.
-/
import Codemap.Text.Case
import Codemap.Text.Pieces

namespace Codemap

open Codemap.Text

/-! ## 1. Kinds of diagrams -/

/-- The kinds of diagrams. -/
inductive DiagramKind where
  | types
  | components
  | sequence
  | entities
deriving Repr, DecidableEq, Inhabited

namespace DiagramKind

/-- The word for a kind of diagram. -/
def word : DiagramKind → String
  | types => "class"
  | components => "component"
  | sequence => "sequence"
  | entities => "entity"

/-- The kind of diagram with a word. -/
def ofWord? (s : String) : Option DiagramKind :=
  [types, components, sequence, entities].find? fun k => k.word == s

/-- The kind of diagram that a text asks for, in whatever case; `er` is short for entities. -/
def ofText? (s : String) : Option DiagramKind :=
  let w := lowered s
  if w == "er" then some entities else ofWord? w

end DiagramKind

/-! ## 2. Identifiers and types -/

namespace Diagram

/-- Whether a character may stand in an identifier. -/
def isIdentifierChar (c : Char) : Bool := c.isAlphanum || c == '_'

/-- A name with everything that may not stand in an identifier replaced by an underscore; the
empty name becomes one underscore. -/
def identifierChars (name : List Char) : List Char :=
  match replaceChar (!isIdentifierChar ·) '_' name with
  | [] => ['_']
  | cs => cs

/-- `identifierChars` on strings. -/
def identifier (name : String) : String := .ofList (identifierChars name.toList)

/-- A type as it stands in a diagram, with `depth` square brackets open that hold arguments.  Angle
brackets become tildes, and so does a square bracket unless it is closed at once, and as many
closing ones as there are open; line feeds, carriage returns and tabs become blanks. -/
def typeTextFrom (depth : Nat) : List Char → List Char
  | [] => []
  | c :: rest =>
    if c == '<' || c == '>' then '~' :: typeTextFrom depth rest
    else if c == '[' && rest.head? != some ']' then '~' :: typeTextFrom (depth + 1) rest
    else if c == ']' && 0 < depth then '~' :: typeTextFrom (depth - 1) rest
    else if c == '\n' || c == '\r' || c == '\t' then ' ' :: typeTextFrom depth rest
    else c :: typeTextFrom depth rest

/-- A type as it stands in a diagram. -/
def typeText (type : List Char) : List Char := typeTextFrom 0 (trim type)

/-- `typeText` on strings. -/
def typeLabel (type : String) : String := .ofList (typeText type.toList)

/-- A label between quotation marks, which single quotes replace inside. -/
def quotedLabel (label : String) : String :=
  let mark := Char.ofNat 34
  .ofList (mark :: replaceChar (· == mark) (Char.ofNat 39) label.toList ++ [mark])

/-! ## 3. Lines -/

/-- The blanks before a line of a diagram. -/
def indent : String := "    "

/-- The text of lines, each ended by a line feed. -/
def ofLines (lines : List String) : String := String.join (lines.map (· ++ "\n"))

end Diagram

end Codemap
