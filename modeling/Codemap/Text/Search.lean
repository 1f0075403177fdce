/-
# Searching texts

A matcher reads something off the front of a text, or fails.  Searching tries it at one place after
the other; the next search goes on behind what has been found.
-/
import Codemap.Text.Pieces

namespace Codemap.Text

/-! ## 1. Matchers -/

/-- What a matcher finds first in a text. -/
def firstMatch? {α : Type} (m : List Char → Option α) : List Char → Option α
  | [] => m []
  | c :: s => m (c :: s) <|> firstMatch? m s

/-- Everything that a matcher finds in a text, with the text left behind each find; it is told the
character before the place. -/
def matchesAfter {α : Type} (m : Option Char → List Char → Option (α × List Char)) :
    Nat → Option Char → List Char → List α
  | 0, _, _ => []
  | _, _, [] => []
  | fuel + 1, before, c :: s =>
    match m before (c :: s) with
    | some (a, rest) =>
      let passed := (c :: s).take (s.length + 1 - rest.length)
      a :: matchesAfter m fuel passed.getLast? rest
    | none => matchesAfter m fuel (some c) s

/-- Everything that a matcher finds in a text. -/
def allMatches {α : Type} (m : Option Char → List Char → Option (α × List Char))
    (s : List Char) : List α := matchesAfter m s.length none s

/-! ## 2. Stretches between marks -/

/-- The insides of the stretches from `opening` to the next `closing`, and the text without these
stretches.  Each one takes at least a character away, so there are no more of them than
characters. -/
def stretchesFrom (opening closing : List Char) : Nat → List Char →
    List (List Char) × List Char
  | 0, s => ([], s)
  | fuel + 1, s =>
    match cutAround opening s with
    | none => ([], s)
    | some (before, rest) =>
      match cutAround closing rest with
      | none => ([], s)
      | some (inside, rest) =>
        let (insides, outside) := stretchesFrom opening closing fuel rest
        (inside :: insides, before ++ outside)

/-- The insides of all stretches from `opening` to the next `closing`. -/
def insides (opening closing s : List Char) : List (List Char) :=
  (stretchesFrom opening closing s.length s).1

/-- The text without the stretches from `opening` to the next `closing`. -/
def outside (opening closing s : List Char) : List Char :=
  (stretchesFrom opening closing s.length s).2

end Codemap.Text
