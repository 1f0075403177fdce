/-
# Names of tables

The table of a type has the type's name in lower case, with the words separated by underscores
and the last of them in the plural.
-/
import Codemap.Text.Case
import Codemap.Text.Pieces

namespace Codemap.Entities

open Codemap.Text

/-! ## 1. Words -/

/-- Whether an upper-case letter starts a word, after the character `before` and before the rest
of the name: after a lower-case letter or a digit, and where a run of capitals ends. -/
def startsWord (before : Option Char) (rest : List Char) : Bool :=
  match before with
  | none => false
  | some b =>
    isLower b || b.isDigit || (isUpper b && ((rest.head?.map isLower).getD false))

/-- The words of a name from some place on; `before` is the character before, and `written` the
last one that has been written. -/
def snakeFrom (before written : Option Char) : List Char → List Char
  | [] => []
  | c :: rest =>
    if c == '-' || c == ' ' then '_' :: snakeFrom (some c) (some '_') rest
    else if isUpper c then
      let mark := if startsWord before rest && written != some '_' then ['_'] else []
      let letters := lowerChar c
      mark ++ letters ++ snakeFrom (some c) letters.getLast? rest
    else c :: snakeFrom (some c) (some c) rest

/-- A name in lower case with underscores between its words. -/
def snakeCase (name : List Char) : List Char := snakeFrom none none name

/-! ## 2. Plurals -/

/-- Letters after which `y` keeps its form. -/
def isVowel (c : Char) : Bool := ['a', 'e', 'i', 'o', 'u'].contains c

/-- The endings after which the plural takes `es`. -/
def hissing : List (List Char) := [['s'], ['x'], ['z'], ['c', 'h'], ['s', 'h']]

/-- The plural of a word. -/
def plural (word : List Char) : List Char :=
  match word.reverse with
  | [] => []
  | 'y' :: b :: stem =>
    if isVowel b then word ++ ['s'] else (b :: stem).reverse ++ ['i', 'e', 's']
  | _ => if hissing.any (·.isSuffixOf word) then word ++ ['e', 's'] else word ++ ['s']

/-- The name of the table of a type. -/
def tableName (type : List Char) : List Char :=
  let words := snakeCase type
  match cutLast '_' words with
  | some (before, last) => before ++ '_' :: plural last
  | none => plural words

end Codemap.Entities
