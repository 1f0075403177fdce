/-
# Paths

Paths are sequences of segments with slashes between them.  The normal form of a path has no empty
segments and no `.`; a `..` takes the segment before it away, and stays where there is none to
take.  Backslashes count as slashes.
-/
import Codemap.Text.Pieces

namespace Codemap.Path

open Codemap.Text

/-! ## 1. Segments -/

/-- A part of a path between two slashes. -/
abbrev Segment := List Char

/-- The segment that stays where it is. -/
def here : Segment := ['.']

/-- The segment that climbs to the parent. -/
def up : Segment := ['.', '.']

/-- Whether a character separates segments. -/
def isSeparator (c : Char) : Bool := c == '/' || c == '\\'

/-- The segments of a path as they are written. -/
def segments (path : List Char) : List Segment := pieces isSeparator path

/-- The segments of a path that are not empty. -/
def names (path : List Char) : List Segment := (segments path).filter (!·.isEmpty)

/-! ## 2. Normal forms -/

/-- The segments passed so far, latest first, after one more. -/
def advance (passed : List Segment) (s : Segment) : List Segment :=
  if s.isEmpty || s == here then passed
  else if s == up then
    match passed with
    | last :: rest => if last == up then up :: passed else rest
    | [] => [up]
  else s :: passed

/-- The segments of the normal form of a path. -/
def normalSegments (path : List Char) : List Segment :=
  ((segments path).foldl advance []).reverse

/-- Segments with slashes between them. -/
def ofSegments (ss : List Segment) : List Char := join ['/'] ss

/-- The normal form of a path. -/
def normal (path : List Char) : List Char := ofSegments (normalSegments path)

/-- `normal` on strings. -/
def normalized (path : String) : String := .ofList (normal path.toList)

/-! ## 3. Parents -/

/-- The directory of a path: what stands before its last slash. -/
def directory (path : List Char) : List Char :=
  match cutLast '/' path with
  | some (before, _) => before
  | none => []

/-- The name of a path: what stands after its last slash. -/
def name (path : List Char) : List Char :=
  match cutLast '/' path with
  | some (_, after) => after
  | none => path

end Codemap.Path
