/-
# Cutting text into pieces

Texts are lists of characters here.  A cut at one character gives the parts before and after it;
`pieces` cuts at every character of a class, so `n` cuts give `n + 1` pieces, empty ones
included.  Lines are the pieces at line feeds, less a carriage return at the end of each and
less an empty last piece.
-/
import Codemap.Text.Blank

namespace Codemap.Text

/-! ## 1. Cuts -/

/-- The pieces between the characters satisfying `p`, in order; never the empty list. -/
def pieces (p : Char → Bool) : List Char → List (List Char)
  | [] => [[]]
  | c :: s =>
    if p c then [] :: pieces p s
    else match pieces p s with
      | [] => [[c]]
      | q :: qs => (c :: q) :: qs

/-- The pieces between the occurrences of one character. -/
def piecesAt (sep : Char) (s : List Char) : List (List Char) := pieces (· == sep) s

/-- The parts before and after the first occurrence of `sep`. -/
def cutFirst (sep : Char) : List Char → Option (List Char × List Char)
  | [] => none
  | c :: s =>
    if c == sep then some ([], s)
    else (cutFirst sep s).map fun (a, b) => (c :: a, b)

/-- The parts before and after the last occurrence of `sep`. -/
def cutLast (sep : Char) (s : List Char) : Option (List Char × List Char) :=
  (cutFirst sep s.reverse).map fun (a, b) => (b.reverse, a.reverse)

/-- A cut takes a character away from what follows it. -/
theorem length_of_cutFirst {sep : Char} {s a b : List Char} (h : cutFirst sep s = some (a, b)) :
    a.length + b.length + 1 = s.length := by
  induction s generalizing a b with
  | nil => simp [cutFirst] at h
  | cons c r ih =>
    rw [cutFirst] at h
    split at h
    · simp only [Option.some.injEq, Prod.mk.injEq] at h
      obtain ⟨rfl, rfl⟩ := h
      simp
    · simp only [Option.map_eq_some_iff, Prod.mk.injEq, Prod.exists] at h
      obtain ⟨x, y, hxy, rfl, rfl⟩ := h
      have := ih hxy
      simp only [List.length_cons]
      omega

/-- A cut at the last occurrence takes a character away as well. -/
theorem length_of_cutLast {sep : Char} {s a b : List Char} (h : cutLast sep s = some (a, b)) :
    a.length + b.length + 1 = s.length := by
  simp only [cutLast, Option.map_eq_some_iff, Prod.mk.injEq, Prod.exists] at h
  obtain ⟨x, y, hxy, rfl, rfl⟩ := h
  have := length_of_cutFirst hxy
  simp only [List.length_reverse] at this ⊢
  omega

/-- What follows `head` when the text starts with it. -/
def after? (head : List Char) (s : List Char) : Option (List Char) :=
  if head.isPrefixOf s then some (s.drop head.length) else none

/-- What precedes `tail` when the text ends with it. -/
def before? (tail : List Char) (s : List Char) : Option (List Char) :=
  if tail.isSuffixOf s then some (s.take (s.length - tail.length)) else none

/-- What precedes an ending is no longer than the text. -/
theorem length_getD_before?_le (tail s : List Char) :
    ((before? tail s).getD s).length ≤ s.length := by
  unfold before?
  split <;> simp

/-- The text between the first `opening` and the last `closing` after it. -/
def between? (opening closing : Char) (s : List Char) : Option (List Char) := do
  let (_, rest) ← cutFirst opening s
  let (inside, _) ← cutLast closing rest
  return inside

/-- What stands between two characters is shorter than the text. -/
theorem length_of_between? {opening closing : Char} {s t : List Char}
    (h : between? opening closing s = some t) : t.length < s.length := by
  simp only [between?, Option.bind_eq_bind, Option.bind_eq_some_iff, Prod.exists,
    Option.pure_def, Option.some.injEq] at h
  obtain ⟨a, rest, hrest, inside, b, hinside, rfl⟩ := h
  have h1 := length_of_cutFirst hrest
  have h2 := length_of_cutLast hinside
  omega

/-- The part of a name after the last `sep`. -/
def lastPart (sep : Char) (s : List Char) : List Char := (piecesAt sep s).getLastD s

/-- The text without all the copies of `head` at its start. -/
def dropAllStart (head : List Char) : Nat → List Char → List Char
  | 0, s => s
  | n + 1, s =>
    match after? head s with
    | some r => if head.isEmpty then s else dropAllStart head n r
    | none => s

/-- The text without the copies of `head` at its start. -/
def dropCopiesStart (head s : List Char) : List Char := dropAllStart head s.length s

/-- The text without the copies of `tail` at its end. -/
def dropCopiesEnd (tail s : List Char) : List Char :=
  (dropCopiesStart tail.reverse s.reverse).reverse

/-- The text with each `c` that satisfies `p` replaced by `d`. -/
def replaceChar (p : Char → Bool) (d : Char) (s : List Char) : List Char :=
  s.map fun c => if p c then d else c

/-- Whether `part` occurs in the text. -/
def occursIn (part : List Char) : List Char → Bool
  | [] => part.isEmpty
  | c :: s => part.isPrefixOf (c :: s) || occursIn part s

/-- The parts before and after the first occurrence of a nonempty `sep`. -/
def cutAround (sep : List Char) : List Char → Option (List Char × List Char)
  | [] => none
  | c :: s =>
    match after? sep (c :: s) with
    | some rest => some ([], rest)
    | none => (cutAround sep s).map fun (a, b) => (c :: a, b)

/-! ## 2. Words and lines -/

/-- The nonempty pieces between blanks. -/
def words (s : List Char) : List (List Char) :=
  (pieces isBlank s).filter (!·.isEmpty)

/-- One line without the carriage return that may end it. -/
def dropReturn (l : List Char) : List Char :=
  match l.reverse with
  | '\r' :: r => r.reverse
  | _ => l

/-- The lines of a text: the pieces between line feeds, less one carriage return at the end of
each line that a line feed ended, less an empty last piece. -/
def lines (s : List Char) : List (List Char) :=
  let ps := piecesAt '\n' s
  match ps.getLast? with
  | none => []
  | some last => ps.dropLast.map dropReturn ++ (if last.isEmpty then [] else [last])

/-- The texts joined by `sep`. -/
def join (sep : List Char) (parts : List (List Char)) : List Char :=
  sep.intercalate parts

end Codemap.Text
