/-
# Blank characters and the trimming of text

A character is blank when Unicode gives it the property White_Space.  Everything in the library
that speaks of white space (trimming, splitting into words) uses this one class; the grammars
have their own, slightly larger, sets of characters that they skip between tokens.
-/

namespace Codemap.Text

/-! ## 1. The class -/

/-- White space: the property White_Space of the Unicode standard. -/
def isBlank (c : Char) : Bool :=
  let n := c.toNat
  (9 ≤ n && n ≤ 13) || n == 32 || n == 0x85 || n == 0xA0 || n == 0x1680
    || (0x2000 ≤ n && n ≤ 0x200A) || n == 0x2028 || n == 0x2029 || n == 0x202F
    || n == 0x205F || n == 0x3000

/-! ## 2. Removing characters at the ends -/

/-- The text without the longest run of characters satisfying `p` at its end. -/
def dropEndWhile (p : Char → Bool) (s : List Char) : List Char :=
  (s.reverse.dropWhile p).reverse

/-- The text without the characters satisfying `p` at either end. -/
def strip (p : Char → Bool) (s : List Char) : List Char :=
  dropEndWhile p (s.dropWhile p)

/-- The text without leading blanks. -/
def trimStart (s : List Char) : List Char := s.dropWhile isBlank

/-- The text without trailing blanks. -/
def trimEnd (s : List Char) : List Char := dropEndWhile isBlank s

/-- The text without blanks at either end. -/
def trim (s : List Char) : List Char := strip isBlank s

/-- Dropping characters at the end makes no text longer. -/
theorem length_dropEndWhile_le (p : Char → Bool) (s : List Char) :
    (dropEndWhile p s).length ≤ s.length := by
  have h := (List.dropWhile_suffix p (l := s.reverse)).length_le
  simpa [dropEndWhile] using h

/-- Stripping makes no text longer. -/
theorem length_strip_le (p : Char → Bool) (s : List Char) : (strip p s).length ≤ s.length :=
  Nat.le_trans (length_dropEndWhile_le p _) (List.dropWhile_suffix p (l := s)).length_le

/-- Trimming makes no text longer. -/
theorem length_trim_le (s : List Char) : (trim s).length ≤ s.length := length_strip_le isBlank s

/-- `trim` on strings. -/
def trimmed (s : String) : String := .ofList (trim s.toList)

end Codemap.Text
