/-
# What stands between two characters

The text between the first opening character and the last closing one after it is what the text is
made of around it (`between?_eq_some_iff`).  Blanks at the ends of a text do not matter for it, if
the two characters are not blank (`between?_trim`).

A text that is narrowed again and again, to something shorter each time, comes to an end
(`exists_mem_eval`), and what narrowing does not change is to be found there (`eq_of_mem_eval`).
-/
import Codemap.Proofs.Text.Ends
import Codemap.Proofs.Text.Pieces
import Mathlib.Computability.StateTransition

namespace Codemap.Text

/-! ## 1. Between two characters -/

section Between

variable {opening closing : Char} {s t : List Char}

theorem between?_eq_some_iff : between? opening closing s = some t ↔
    ∃ a b, s = a ++ opening :: (t ++ closing :: b) ∧ opening ∉ a ∧ closing ∉ b := by
  constructor
  · intro h
    simp only [between?, Option.bind_eq_bind, Option.bind_eq_some_iff, Prod.exists,
      Option.pure_def, Option.some.injEq] at h
    obtain ⟨a, rest, hrest, t', b, hinside, rfl⟩ := h
    obtain ⟨rfl, ha⟩ := cutFirst_eq_some_iff.mp hrest
    obtain ⟨rfl, hb⟩ := cutLast_eq_some_iff.mp hinside
    exact ⟨a, b, rfl, ha, hb⟩
  · rintro ⟨a, b, rfl, ha, hb⟩
    rw [between?, cutFirst_append_cons ha]
    simp [cutLast_append_cons hb]

theorem between?_append {a b : List Char} (ha : opening ∉ a) (hb : closing ∉ b) (t : List Char) :
    between? opening closing (a ++ opening :: (t ++ closing :: b)) = some t :=
  between?_eq_some_iff.mpr ⟨a, b, rfl, ha, hb⟩

/-- Nothing stands between if nothing is closed after the first opening character. -/
theorem between?_unclosed {a r : List Char} (ha : opening ∉ a) (hr : closing ∉ r) :
    between? opening closing (a ++ opening :: r) = none := by
  rw [between?, cutFirst_append_cons ha]
  simp [cutLast_of_not_mem hr]

theorem between?_of_not_mem (h : opening ∉ s) : between? opening closing s = none := by
  rw [between?, cutFirst_of_not_mem h]
  rfl

/-- Blanks at the ends of a text make no difference. -/
theorem between?_trim (ho : isBlank opening = false) (hc : isBlank closing = false) :
    between? opening closing (trim s) = between? opening closing s := by
  ext t
  rw [between?_eq_some_iff, between?_eq_some_iff]
  constructor
  · rintro ⟨a, b, htrim, ha, hb⟩
    obtain ⟨l, r, hs, hl, hr, -, -⟩ := exists_eq_append_strip isBlank s
    refine ⟨l ++ a, b ++ r, ?_, fun h => ?_, fun h => ?_⟩
    · rw [← trim, htrim] at hs
      rw [hs]
      simp
    · rcases List.mem_append.mp h with h | h
      · exact absurd (hl _ h) (by simp [ho])
      · exact ha h
    · rcases List.mem_append.mp h with h | h
      · exact hb h
      · exact absurd (hr _ h) (by simp [hc])
  · rintro ⟨a, b, rfl, ha, hb⟩
    refine ⟨a.dropWhile isBlank, dropEndWhile isBlank b, ?_,
      fun h => ha ((List.dropWhile_suffix _).subset h), fun h => hb (mem_of_mem_dropEndWhile h)⟩
    rw [trim, strip_append_cons ho, dropEndWhile_append_cons hc]

end Between

/-! ## 2. Narrowing -/

/-- **A text that is made shorter as long as that is possible comes to an end.** -/
theorem exists_mem_eval {step : List Char → Option (List Char)}
    (h : ∀ s t, step s = some t → t.length < s.length) (s : List Char) :
    ∃ t, t ∈ StateTransition.eval step s := by
  cases hstep : step s with
  | none => exact ⟨s, StateTransition.mem_eval.mpr ⟨Relation.ReflTransGen.refl, hstep⟩⟩
  | some r =>
    have hlt := h s r hstep
    obtain ⟨t, ht⟩ := exists_mem_eval h r
    exact ⟨t, StateTransition.reaches_eval (Relation.ReflTransGen.single hstep) ▸ ht⟩
termination_by s.length

/-- What no step changes is the same at the end, where no step is left. -/
theorem eq_of_mem_eval {α : Type} {step : List Char → Option (List Char)} {f : List Char → α}
    (hf : ∀ s t, step s = some t → f s = f t) {s t : List Char}
    (h : t ∈ StateTransition.eval step s) : f s = f t ∧ step t = none := by
  obtain ⟨hreaches, hend⟩ := StateTransition.mem_eval.mp h
  refine ⟨?_, hend⟩
  clear h hend
  induction hreaches with
  | refl => rfl
  | tail _ hstep ih => exact ih.trans (hf _ _ hstep)

end Codemap.Text
