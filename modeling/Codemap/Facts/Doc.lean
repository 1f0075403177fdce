/-
# Documentation of declarations

A documentation comment is the comment directly before a declaration, on the same line or the
line before; a run of line comments is taken as a whole.
-/
import Codemap.Facts.Wording
import Codemap.Syntax.Cursor

namespace Codemap.Facts

open Codemap.Syntax

/-- The words of the block comment that directly precedes a declaration and starts with
`marker`. -/
def blockDoc? (declaration : Cursor) (kinds : List String) (marker : String) : Option String := do
  let previous ← declaration.previous?
  if !kinds.contains previous.kind then none
  if declaration.node.span.start.line > previous.node.span.stop.line + 1 then none
  if !marker.toList.isPrefixOf previous.text.toList then none
  return onString commentWords previous.text

/-- The line comments that stand directly before line `row`, latest first, where `left` are the
nodes before it, nearest first. -/
def commentRun (kind : String) : Nat → List Node → List Node
  | _, [] => []
  | row, c :: left =>
    if c.kind == kind && c.span.stop.line + 1 == row && ['/', '/'].isPrefixOf c.text.toList then
      c :: commentRun kind c.span.start.line left
    else []

/-- The words of a line comment. -/
def lineWords (raw : List Char) : List Char := Text.trim (raw.dropWhile (· == '/'))

/-- The words of the line comments directly before a declaration. -/
def lineDoc? (declaration : Cursor) (kind : String) : Option String :=
  match commentRun kind declaration.node.span.start.line declaration.left with
  | [] => none
  | run => some ("\n".intercalate (run.reverse.map fun c => onString lineWords c.text))

end Codemap.Facts
