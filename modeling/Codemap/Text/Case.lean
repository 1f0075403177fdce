/-
# Letter case

Lower and upper case by the full mappings of Unicode, in which a letter may become several.  A
capital sigma at the end of a word becomes the final form: one that follows a letter, and that no
letter follows, where marks that have no case of their own are passed over.
-/
import Codemap.Text.CaseTable

namespace Codemap.Text

/-! ## 1. Classes -/

/-- Whether a code point lies in one of the ranges. -/
def inRanges (n : Nat) (ranges : List (Nat × Nat × Nat)) : Bool :=
  ranges.any fun (a, b, step) => a ≤ n && n ≤ b && (n - a) % step == 0

/-- A lower-case letter. -/
def isLower (c : Char) : Bool :=
  if c.toNat < 128 then 'a' ≤ c && c ≤ 'z' else inRanges c.toNat CaseTable.lowercase

/-- An upper-case letter. -/
def isUpper (c : Char) : Bool :=
  if c.toNat < 128 then 'A' ≤ c && c ≤ 'Z' else inRanges c.toNat CaseTable.uppercase

/-- A letter that has case. -/
def isCased (c : Char) : Bool :=
  isLower c || isUpper c || inRanges c.toNat CaseTable.titlecase

/-- A character without case that is passed over when the ends of words are sought. -/
def isIgnorable (c : Char) : Bool := inRanges c.toNat CaseTable.ignorable

/-! ## 2. Mappings of characters -/

/-- The counterparts of a character under a mapping. -/
def mapped (one : List (Nat × Nat × Nat × Int)) (many : List (Nat × List Nat)) (c : Char) :
    List Char :=
  let n := c.toNat
  match many.find? fun m => m.1 == n with
  | some (_, ms) => ms.map Char.ofNat
  | none =>
    match one.find? fun (a, b, step, _) => a ≤ n && n ≤ b && (n - a) % step == 0 with
    | some (_, _, _, d) => [Char.ofNat ((n : Int) + d).toNat]
    | none => [c]

/-- A character in lower case. -/
def lowerChar (c : Char) : List Char :=
  if c.toNat < 128 then [if 'A' ≤ c && c ≤ 'Z' then Char.ofNat (c.toNat + 32) else c]
  else mapped CaseTable.toLower CaseTable.toLowerMany c

/-- A character in upper case. -/
def upperChar (c : Char) : List Char :=
  if c.toNat < 128 then [if 'a' ≤ c && c ≤ 'z' then Char.ofNat (c.toNat - 32) else c]
  else mapped CaseTable.toUpper CaseTable.toUpperMany c

/-! ## 3. Mappings of texts -/

/-- Whether the first character that is not passed over has case. -/
def casedNext (s : List Char) : Bool :=
  match s.dropWhile isIgnorable with
  | c :: _ => isCased c
  | [] => false

/-- A text in lower case, after the characters in `before`, nearest first. -/
def lowerAfter (before : List Char) : List Char → List Char
  | [] => []
  | c :: s =>
    (if c == 'Σ' then [if casedNext before && !casedNext s then 'ς' else 'σ'] else lowerChar c)
      ++ lowerAfter (c :: before) s

/-- A text in lower case. -/
def lower (s : List Char) : List Char := lowerAfter [] s

/-- `lower` on strings. -/
def lowered (s : String) : String := .ofList (lower s.toList)

end Codemap.Text
