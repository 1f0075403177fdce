/-
# Lines and identifiers of diagrams

The text of a diagram determines its lines exactly if no line holds a character that ends lines
(`pieces_ofLines_iff`).  Identifiers are nonempty and hold ASCII letters, digits and underscores
only (`isIdentifier_identifier`), so they tell names apart by their letters and digits alone
(`identifier_eq_iff`).
-/
import Codemap.Diagram.Basic
import Codemap.Proofs.Text.Pieces
import Mathlib.Data.List.Forall2
import Mathlib.Data.String.Basic

namespace Codemap

open Codemap.Text

namespace Diagram

/-! ## 1. Lines -/

theorem toList_ofLines_cons (l : String) (ls : List String) :
    (ofLines (l :: ls)).toList = l.toList ++ '\n' :: (ofLines ls).toList := by
  simp [ofLines, String.join_eq]

section Lines

variable {p : Char → Bool} (hp : p '\n' = true)

include hp

theorem countP_ofLines (ls : List String) : (ofLines ls).toList.countP p =
    (ls.flatMap String.toList).countP p + ls.length := by
  induction ls with
  | nil => rfl
  | cons l ls ih =>
    rw [toList_ofLines_cons, List.countP_append, List.countP_cons_of_pos hp, ih, List.flatMap_cons,
      List.countP_append, List.length_cons]
    omega

/-- **The lines of a diagram are the pieces of its text**, less an empty last one, exactly if no
line holds a character that ends lines. -/
theorem pieces_ofLines_iff {ls : List String} :
    pieces p (ofLines ls).toList = ls.map String.toList ++ [[]] ↔
      ∀ l ∈ ls, ∀ c ∈ l.toList, p c = false := by
  constructor
  · intro h
    -- each line ends once, so nothing is left to end lines within them
    have hlength := congrArg List.length h
    rw [length_pieces, countP_ofLines hp, List.length_append, List.length_map,
      List.length_singleton] at hlength
    have hcount : (ls.flatMap String.toList).countP p = 0 := by omega
    intro l hl c hc
    have hc := List.countP_eq_zero.mp hcount c (List.mem_flatMap.mpr ⟨l, hl, hc⟩)
    exact Bool.eq_false_of_not_eq_true hc
  · intro h
    induction ls with
    | nil => rfl
    | cons l ls ih =>
      obtain ⟨hl, hls⟩ := List.forall_mem_cons.mp h
      rw [toList_ofLines_cons, pieces_append_cons hl hp, ih hls, List.map_cons, List.cons_append]

end Lines

theorem piecesAt_ofLines {ls : List String} (h : ∀ l ∈ ls, '\n' ∉ l.toList) :
    piecesAt '\n' (ofLines ls).toList = ls.map String.toList ++ [[]] := by
  refine (pieces_ofLines_iff (p := (· == '\n')) rfl).mpr fun l hl c hc => ?_
  rw [beq_eq_false_iff_ne]
  rintro rfl
  exact h l hl hc

/-! ## 2. Identifiers -/

/-- A nonempty text of ASCII letters, digits and underscores. -/
def IsIdentifier (s : String) : Prop := s ≠ "" ∧ ∀ c ∈ s.toList, isIdentifierChar c

theorem identifierChars_ne_nil (name : List Char) : identifierChars name ≠ [] := by
  rw [identifierChars]
  split
  · exact List.cons_ne_nil _ _
  next h => exact h

theorem isIdentifierChar_of_mem_identifierChars {name : List Char} {c : Char}
    (hc : c ∈ identifierChars name) : isIdentifierChar c := by
  rw [identifierChars] at hc
  split at hc
  · rw [List.mem_singleton.mp hc]
    decide
  · obtain ⟨x, -, rfl⟩ := List.mem_map.mp hc
    split
    · decide
    next h => simpa using h

theorem isIdentifier_identifier (name : String) : IsIdentifier (identifier name) := by
  constructor
  · rw [identifier, Ne, ← String.toList_eq_nil_iff, String.toList_ofList]
    exact identifierChars_ne_nil name.toList
  · intro c hc
    rw [identifier, String.toList_ofList] at hc
    exact isIdentifierChar_of_mem_identifierChars hc

/-- A name as identifiers are made of it: the empty one counts as an underscore. -/
def orUnderscore (name : List Char) : List Char := if name.isEmpty then ['_'] else name

/-- Two names are alike: they differ only in characters that are neither ASCII letters nor
digits. -/
def Alike (a b : String) : Prop :=
  List.Forall₂ (fun c d => c = d ∨ (c.isAlphanum = false ∧ d.isAlphanum = false))
    (orUnderscore a.toList) (orUnderscore b.toList)

theorem identifierChars_eq_map (name : List Char) :
    identifierChars name = (orUnderscore name).map fun c => if c.isAlphanum then c else '_' := by
  have hchar : ∀ c, (if !isIdentifierChar c then '_' else c) = if c.isAlphanum then c else '_' := by
    intro c
    by_cases hc : c = '_'
    · rw [hc]
      decide
    · cases hcase : c.isAlphanum <;> simp [isIdentifierChar, hcase, hc]
  cases name with
  | nil => rfl
  | cons c cs =>
    simp only [identifierChars, orUnderscore, replaceChar, List.map_cons, List.isEmpty_cons, hchar]
    rfl

/-- **Identifiers tell names apart unless they are alike.** -/
theorem identifier_eq_iff {a b : String} : identifier a = identifier b ↔ Alike a b := by
  have hchar : ∀ c d : Char, ((if c.isAlphanum then c else '_') = if d.isAlphanum then d else '_') ↔
      c = d ∨ (c.isAlphanum = false ∧ d.isAlphanum = false) := by
    intro c d
    have hne : ∀ x : Char, x.isAlphanum → x ≠ '_' := by
      rintro x hx rfl
      exact absurd hx (by decide)
    cases hc : c.isAlphanum <;> cases hd : d.isAlphanum <;> grind
  rw [identifier, identifier, String.ofList_inj, identifierChars_eq_map, identifierChars_eq_map,
    ← List.forall₂_eq_eq_eq, List.forall₂_map_left_iff, List.forall₂_map_right_iff]
  simp only [hchar, Alike]

/-- A text that starts with an identifier and a mark that stands in none determines the identifier,
and what follows the mark. -/
theorem IsIdentifier.append_mark_inj {a b : String} {m : Char} {r s : List Char}
    (ha : IsIdentifier a) (hb : IsIdentifier b) (hm : isIdentifierChar m = false)
    (h : a.toList ++ m :: r = b.toList ++ m :: s) : a = b ∧ r = s := by
  have hmark : ∀ {x : String}, IsIdentifier x → ∀ c ∈ x.toList, (c == m) = false := by
    intro x hx c hc
    rw [beq_eq_false_iff_ne]
    rintro rfl
    exact Bool.false_ne_true (hm.symm.trans (hx.2 c hc))
  have hpieces := congrArg (pieces (· == m)) h
  rw [pieces_append_cons (hmark ha) (beq_self_eq_true _),
    pieces_append_cons (hmark hb) (beq_self_eq_true _)] at hpieces
  obtain rfl : a = b := String.toList_injective (List.cons.inj hpieces).1
  exact ⟨rfl, (List.cons.inj (List.append_cancel_left h)).2⟩

end Diagram

end Codemap
