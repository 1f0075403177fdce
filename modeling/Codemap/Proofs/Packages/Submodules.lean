/-
# Submodules of submodules

A module belongs to itself, and what a slash or a dot separates adds up: a module that lies in one
that lies in a package lies in the package.  The mark for modules of the runtime does not add up
with anything.  It is looked for only where nothing follows the name, so `node:fs/promises` belongs
to `node:fs`, which belongs to `fs`, and does not belong to `fs` itself
(`not_belongsTo_trans_promises`).

Main statement: `belongsTo_trans_iff`, by which two steps from a module to a package make one,
unless each of them leads to another name and one of them takes the mark away.
-/
import Codemap.Proofs.Packages.Known

namespace Codemap.Packages

open Codemap.Text

variable {a b c : String} {s m p rest : List Char}

/-! ## 1. The two kinds of steps -/

/-- A module lies in a package: it begins with the package, up to a slash or a dot, or is it. -/
def LiesIn (a b : String) : Prop :=
  ∃ rest, a.toList = b.toList ++ rest ∧ (rest = [] ∨ startsWithin rest)

/-- A module is a package with the mark for modules of the runtime before it. -/
def IsMarked (a b : String) : Prop := a.toList = builtInMark ++ b.toList

theorem belongsTo_self (a : String) : belongsTo a a := by
  rw [belongsTo, belongs, beq_self_eq_true, Bool.true_or]

theorem LiesIn.belongsTo (h : LiesIn a b) : belongsTo a b := by
  obtain ⟨rest, ha, hrest⟩ := h
  rw [Packages.belongsTo, belongs, Bool.or_eq_true, beq_iff_eq]
  rcases hrest with rfl | hrest
  · exact Or.inl (by rw [ha, List.append_nil])
  · exact Or.inr (by rw [after?_eq_some_iff.mpr ha]; exact hrest)

theorem startsWithin_append (h : startsWithin s) (t : List Char) : startsWithin (s ++ t) := by
  cases s with
  | nil => exact absurd h (by simp [startsWithin])
  | cons x s => exact h

/-- **What lies in a part lies in the whole.** -/
theorem LiesIn.trans (hab : LiesIn a b) (hbc : LiesIn b c) : LiesIn a c := by
  obtain ⟨r, ha, hr⟩ := hab
  obtain ⟨q, hb, hq⟩ := hbc
  refine ⟨q ++ r, by rw [ha, hb, List.append_assoc], ?_⟩
  rcases hq with rfl | hq
  · exact hr
  · exact Or.inr (startsWithin_append hq r)

/-! ## 2. Nothing adds up with the mark -/

/-- What follows a package in a module that has the mark before the package begins with a character
of the mark, so no slash or dot ends the package there. -/
theorem not_startsWithin_of_append_eq (hm : m ⊆ builtInMark) (hne : m ≠ [])
    (h : m ++ p ++ s = p ++ rest) : ¬ (rest = [] ∨ startsWithin rest) := by
  obtain ⟨q, hq⟩ : p <+: m ++ p :=
    List.prefix_of_prefix_length_le ⟨rest, h.symm⟩ (List.prefix_append _ s) (by simp)
  -- `q` and the mark have the same characters: both are what the package leaves of `m ++ p`.
  have hperm : q.Perm m := by
    refine (List.perm_append_left_iff p).mp ?_
    rw [hq]
    exact List.perm_append_comm
  have hrest : rest = q ++ s := by
    rwa [← hq, List.append_assoc, List.append_cancel_left_eq, eq_comm] at h
  rw [hrest]
  cases q with
  | nil => exact absurd (List.nil_perm.mp hperm) hne
  | cons x q =>
    have hx : x ∈ builtInMark := hm (hperm.mem_iff.mp List.mem_cons_self)
    exact not_or.mpr ⟨List.cons_ne_nil x _, not_startsWithin_of_mem hx (q ++ s)⟩

/-- A module that has the mark before a package, and more besides, does not belong to it. -/
theorem not_belongsTo_of_toList_eq (hm : m ⊆ builtInMark) (hne : m ≠ [])
    (ha : a.toList = m ++ c.toList ++ s) (hlong : builtInMark.length < m.length + s.length) :
    ¬ belongsTo a c := by
  intro hac
  rcases belongsTo_cases hac with ⟨rest, hrest, hwithin⟩ | hmark
  · exact not_startsWithin_of_append_eq hm hne (ha.symm.trans hrest) hwithin
  · have hlength := congrArg List.length (ha.symm.trans hmark)
    simp only [List.length_append] at hlength
    omega

theorem length_pos_of_append_eq (hab : a.toList = b.toList ++ rest) (hne : a ≠ b) :
    0 < rest.length := by
  refine List.length_pos_iff.mpr fun hnil => hne (String.toList_inj.mp ?_)
  rw [hab, hnil, List.append_nil]

theorem builtInMark_ne_nil : builtInMark ≠ [] := List.cons_ne_nil _ _

theorem not_belongsTo_of_isMarked_of_liesIn (hab : IsMarked a b) (hbc : LiesIn b c) (hne : b ≠ c) :
    ¬ belongsTo a c := by
  obtain ⟨q, hb, -⟩ := hbc
  have hpos := length_pos_of_append_eq hb hne
  refine not_belongsTo_of_toList_eq (List.Subset.refl _) builtInMark_ne_nil (s := q) ?_ (by omega)
  rw [hab, hb, List.append_assoc]

theorem not_belongsTo_of_liesIn_of_isMarked (hab : LiesIn a b) (hbc : IsMarked b c) (hne : a ≠ b) :
    ¬ belongsTo a c := by
  obtain ⟨r, ha, -⟩ := hab
  have hpos := length_pos_of_append_eq ha hne
  refine not_belongsTo_of_toList_eq (List.Subset.refl _) builtInMark_ne_nil (s := r) ?_ (by omega)
  rw [ha, hbc]

/-- The mark is taken away once only. -/
theorem not_belongsTo_of_isMarked_of_isMarked (hab : IsMarked a b) (hbc : IsMarked b c) :
    ¬ belongsTo a c := by
  have hsub : builtInMark ++ builtInMark ⊆ builtInMark :=
    List.append_subset.mpr ⟨List.Subset.refl _, List.Subset.refl _⟩
  refine not_belongsTo_of_toList_eq hsub (List.append_ne_nil_of_left_ne_nil builtInMark_ne_nil _)
    (s := []) ?_ (by simp [builtInMark])
  rw [hab, hbc, List.append_nil, List.append_assoc]

/-- **Where one of two steps takes the mark away, they do not make one step.** -/
theorem not_belongsTo_of_isMarked (hab : belongsTo a b) (hbc : belongsTo b c) (hne : a ≠ b)
    (hne' : b ≠ c) (hmark : IsMarked a b ∨ IsMarked b c) : ¬ belongsTo a c := by
  rcases hmark with hmark | hmark
  · rcases belongsTo_cases hbc with hin | hmark'
    · exact not_belongsTo_of_isMarked_of_liesIn hmark hin hne'
    · exact not_belongsTo_of_isMarked_of_isMarked hmark hmark'
  · rcases belongsTo_cases hab with hin | hmark'
    · exact not_belongsTo_of_liesIn_of_isMarked hin hmark hne
    · exact not_belongsTo_of_isMarked_of_isMarked hmark' hmark

/-! ## 3. Two steps -/

/-- **Belonging is reflexive, and two steps make one exactly where no mark is taken away**, or where
one of them is none. -/
theorem belongsTo_trans_iff (a b c : String) :
    belongsTo a a ∧ (belongsTo a b → belongsTo b c →
      (belongsTo a c ↔ a = b ∨ b = c ∨ (¬ IsMarked a b ∧ ¬ IsMarked b c))) := by
  refine ⟨belongsTo_self a, fun hab hbc => ⟨fun hac => ?_, ?_⟩⟩
  · by_contra hnot
    rw [not_or, not_or, not_and_or, not_not, not_not] at hnot
    obtain ⟨hne, hne', hmark⟩ := hnot
    exact not_belongsTo_of_isMarked hab hbc hne hne' hmark hac
  · rintro (rfl | rfl | ⟨hmark, hmark'⟩)
    · exact hbc
    · exact hab
    · have hin : LiesIn a b := (belongsTo_cases hab).resolve_right hmark
      exact (hin.trans ((belongsTo_cases hbc).resolve_right hmark')).belongsTo

/-- Two steps without a mark make one, and two steps of which one has it do not. -/
theorem belongsTo_trans_iff_session :
    (belongsTo "sqlalchemy.orm.session" "sqlalchemy.orm" ∧
        belongsTo "sqlalchemy.orm" "sqlalchemy" ∧ belongsTo "sqlalchemy.orm.session" "sqlalchemy") ∧
      belongsTo "node:fs/promises" "node:fs" ∧ belongsTo "node:fs" "fs" ∧
        ¬ belongsTo "node:fs/promises" "fs" := by
  have hab : belongsTo "sqlalchemy.orm.session" "sqlalchemy.orm" := by decide
  have hbc : belongsTo "sqlalchemy.orm" "sqlalchemy" := by decide
  have hab' : belongsTo "node:fs/promises" "node:fs" := by decide
  have hbc' : belongsTo "node:fs" "fs" := by decide
  have hiff := (belongsTo_trans_iff _ _ _).2 hab hbc
  have hiff' := (belongsTo_trans_iff _ _ _).2 hab' hbc'
  refine ⟨⟨hab, hbc, hiff.mpr (Or.inr (Or.inr ?_))⟩, hab', hbc', fun h => ?_⟩
  · constructor <;> rw [IsMarked] <;> decide
  · rcases hiff'.mp h with h | h | ⟨-, h⟩
    · exact absurd h (by decide)
    · exact absurd h (by decide)
    · exact h (by rw [IsMarked]; decide)

/-- A submodule of a module of the runtime does not belong to the package that the module belongs
to. -/
theorem not_belongsTo_trans_promises :
    ¬ ∀ a b c : String, a.toList.head? ≠ some '.' → b.toList.head? ≠ some '.' →
      c.toList.head? ≠ some '.' → belongsTo a b → belongsTo b c → belongsTo a c := by
  intro h
  have hac := h "node:fs/promises" "node:fs" "fs" (by decide) (by decide) (by decide) (by decide)
    (by decide)
  exact absurd hac (by decide)

end Codemap.Packages
