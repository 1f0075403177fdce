/-
# Texts that are read line by line

A reader that goes through the lines of a text, takes the blanks off their ends and passes over
what is empty then, cannot tell texts apart that differ in blank lines, in indentation or in how
lines end.  For such a reader a text is the list of lines that it is laid out in (`IsLaidOut`), and
any way of laying them out will do (`foldl_of_isLaidOut`).
-/
import Codemap.Proofs.Text.Ends
import Codemap.Proofs.Text.Pieces

namespace Codemap.Text

variable {s t : List Char} {ls : List (List Char)}

/-! ## 1. Characters of a text

What holds of the characters of a text is decided by going through the text; it would take too long
to go through all characters there are. -/

section Decide

variable (q : Char → Prop) [DecidablePred q]

instance decidableForallChar (s : List Char) : Decidable (∀ c ∈ s, q c) :=
  List.decidableBAll q s

instance decidableExistsChar (s : List Char) : Decidable (∃ c ∈ s, q c) :=
  List.decidableBEx q s

instance decidableForallEnd (o : Option Char) : Decidable (∀ c ∈ o, q c) :=
  Option.decidableForallMem o

instance decidableExistsEnd (o : Option Char) : Decidable (∃ c ∈ o, q c) :=
  Option.decidableExistsMem o

end Decide

/-! ## 2. Blanks at the ends -/

section Strip

variable {p : Char → Bool} (ht : ∀ c ∈ t, p c = true)

include ht

theorem strip_append_of_forall : strip p (s ++ t) = strip p s := by
  have hreverse : ∀ c ∈ t.reverse, p c = true := fun c hc => ht c (List.mem_reverse.mp hc)
  rw [strip, List.dropWhile_append]
  split
  next hnil =>
    rw [List.isEmpty_iff] at hnil
    rw [List.dropWhile_eq_nil_iff.mpr ht, strip, hnil]
  · rw [dropEndWhile, List.reverse_append, List.dropWhile_append_of_pos hreverse]
    rfl

theorem strip_of_forall_append : strip p (t ++ s) = strip p s := by
  rw [strip, List.dropWhile_append_of_pos ht]
  rfl

end Strip

/-- A text that is not empty and has no blanks at its ends. -/
structure IsSolid (s : List Char) : Prop where
  ne_nil : s ≠ []
  head : ∀ c ∈ s.head?, isBlank c = false
  last : ∀ c ∈ s.getLast?, isBlank c = false

theorem IsSolid.trim_eq (h : IsSolid s) : trim s = s := strip_eq_self h.head h.last

theorem isSolid_of_forall (hne : s ≠ []) (h : ∀ c ∈ s, isBlank c = false) : IsSolid s :=
  ⟨hne, fun c hc => h c (List.mem_of_mem_head? hc), fun c hc => h c (List.mem_of_mem_getLast? hc)⟩

/-- Between solid texts there may be anything. -/
theorem IsSolid.append {a b : List Char} (ha : IsSolid a) (hb : IsSolid b) (m : List Char) :
    IsSolid (a ++ (m ++ b)) where
  ne_nil := List.append_ne_nil_of_left_ne_nil ha.ne_nil _
  head c hc := by
    rw [List.head?_append_of_ne_nil _ ha.ne_nil] at hc
    exact ha.head c hc
  last c hc := by
    rw [← List.append_assoc, List.getLast?_append_of_ne_nil _ hb.ne_nil] at hc
    exact hb.last c hc

/-- What is left has no blanks at its ends. -/
theorem trim_trim (s : List Char) : trim (trim s) = trim s := by
  obtain ⟨-, -, -, -, -, hhead, hlast⟩ := exists_eq_append_strip isBlank s
  exact strip_eq_self hhead hlast

/-- A carriage return is blank. -/
theorem trim_dropReturn (l : List Char) : trim (dropReturn l) = trim l := by
  rw [dropReturn]
  split
  next r hr =>
    obtain rfl : l = r.reverse ++ ['\r'] := by simpa using congrArg List.reverse hr
    exact (strip_append_of_forall (List.forall_mem_singleton.mpr (by decide))).symm
  · rfl

/-! ## 3. Layout -/

/-- The lines that are left when blanks are taken off their ends and empty lines are left out. -/
def written (ls : List (List Char)) : List (List Char) := (ls.map trim).filter (!·.isEmpty)

/-- The lines of a text are these, but for blanks at their ends and blank lines. -/
def IsLaidOut (text : List Char) (ls : List (List Char)) : Prop := written (lines text) = written ls

/-- **Lines that are joined by line feeds are laid out.** -/
theorem isLaidOut_join (h : ∀ l ∈ ls, '\n' ∉ l) : IsLaidOut (join ['\n'] ls) ls := by
  rcases List.eq_nil_or_concat' ls with rfl | ⟨init, last, rfl⟩
  · rfl
  · have hreturns : (init.map dropReturn).map trim = init.map trim := by
      rw [List.map_map]
      exact List.map_congr_left fun l _ => trim_dropReturn l
    rw [IsLaidOut, lines, piecesAt_join (by simp) h]
    simp only [List.getLast?_concat, List.dropLast_concat, written, List.map_append, hreturns,
      List.filter_append]
    cases last with
    | nil => rfl
    | cons c l => rfl

/-- **A reader that trims lines reads what is laid out**, however that is done. -/
theorem foldl_of_isLaidOut {σ : Type} {step : σ → List Char → σ}
    (htrim : ∀ a l, step a (trim l) = step a l) (hempty : ∀ a, step a [] = a) {text : List Char}
    (h : IsLaidOut text ls) (a : σ) : (lines text).foldl step a = ls.foldl step a := by
  have hwritten : ∀ (ls : List (List Char)) (a : σ), (written ls).foldl step a =
      ls.foldl step a := by
    intro ls
    induction ls with
    | nil => exact fun _ => rfl
    | cons l ls ih =>
      intro a
      rw [written, List.map_cons, List.filter_cons]
      split
      · rw [List.foldl_cons, htrim]
        exact ih _
      next hnil =>
        have hl : trim l = [] := by simpa using hnil
        rw [List.foldl_cons, ← htrim, hl, hempty]
        exact ih a
  rw [← hwritten, h, hwritten]

end Codemap.Text
