/-
# Every file is reached from an entry point or a cycle

An entry point is a file that no edge leads to.  Walking back from a file along the edges stays
among the files given, so the walk ends at an entry point, or it comes to a file for the second time
and so has found a circle (`exists_start_or_circle`).  With the cycles as the files on circles, all
files are reached from entry points and cycles (`reached_from_entryPoint_or_cycle`).
-/
import Codemap.Proofs.Imports.Edges
import Mathlib.Order.Preorder.Finite

namespace Codemap.Imports

open Relation ImportGraph

/-! ## 1. Walking back -/

section Walk

variable {α : Type} {r : α → α → Prop}

/-- In a finite set, some item reaches back every item that it is reached from. -/
theorem exists_reaching_back {S : Set α} (hfin : S.Finite) (hne : S.Nonempty) :
    ∃ m ∈ S, ∀ x ∈ S, ReflTransGen r x m → ReflTransGen r m x := by
  let _ : LE α := ⟨ReflTransGen r⟩
  have : IsTrans α fun a b => b ≤ a := ⟨fun _ _ _ hba hcb => ReflTransGen.trans hcb hba⟩
  obtain ⟨m, hm⟩ := hfin.exists_minimal hne
  exact ⟨m, hm.prop, fun x hx hxm => hm.le_of_le hx hxm⟩

/-- **A walk back ends at a start or on a circle**, when steps start from finitely many items. -/
theorem exists_start_or_circle (hfin : {a | ∃ b, r a b}.Finite) (p : α) :
    ∃ q, ReflTransGen r q p ∧ ((∀ x, ¬ r x q) ∨ TransGen r q q) := by
  have hreach : {q | ReflTransGen r q p} ⊆ insert p {a | ∃ b, r a b} := by
    intro q hq
    rcases ReflTransGen.cases_head hq with rfl | ⟨b, hqb, -⟩
    · exact Set.mem_insert q _
    · exact Set.mem_insert_of_mem p ⟨b, hqb⟩
  obtain ⟨q, hq, hback⟩ :=
    exists_reaching_back (r := r) ((hfin.insert p).subset hreach) ⟨p, ReflTransGen.refl⟩
  refine ⟨q, hq, ?_⟩
  by_cases h : ∃ x, r x q
  · obtain ⟨x, hxq⟩ := h
    exact Or.inr (.tail' (hback x (ReflTransGen.head hxq hq) (.single hxq)) hxq)
  · exact Or.inl fun x hxq => h ⟨x, hxq⟩

end Walk

/-! ## 2. Entry points -/

variable {files : List FileFacts} {ds : List Dependency} {p : String}

/-- Entry points are the files that no edge leads to. -/
theorem mem_entryPoints_iff :
    p ∈ entryPoints files ds ↔ p ∈ files.map (·.path) ∧ ∀ q, ¬ Joins ds q p := by
  rw [entryPoints, List.mem_filter]
  refine and_congr_right fun _ => ?_
  simp only [Bool.not_eq_true', List.any_eq_false, beq_iff_eq]
  constructor
  · rintro h q ⟨d, hd, -, htarget⟩
    exact h d hd htarget
  · intro h d hd htarget
    exact h d.source ⟨d, hd, rfl, htarget⟩

/-- Edges start from finitely many files. -/
theorem finite_sources (ds : List Dependency) : {a | ∃ b, Joins ds a b}.Finite := by
  refine (List.finite_toSet (ds.map (·.source))).subset ?_
  rintro a ⟨b, d, hd, rfl, -⟩
  exact List.mem_map_of_mem hd

/-- A walk back from a file ends at an entry point or on a circle. -/
theorem exists_entryPoint_or_circle {f : FileFacts} (hf : f ∈ files) :
    ∃ p, (p ∈ entryPoints files (dependencies files) ∨ TransGen (Joins (dependencies files)) p p) ∧
      ReflTransGen (Joins (dependencies files)) p f.path := by
  obtain ⟨p, hreach, hend⟩ := exists_start_or_circle (finite_sources (dependencies files)) f.path
  refine ⟨p, hend.imp_left fun hstart => mem_entryPoints_iff.mpr ⟨?_, hstart⟩, hreach⟩
  -- the walk stays among the files
  rcases ReflTransGen.cases_head hreach with rfl | ⟨b, ⟨d, hd, rfl, -⟩, -⟩
  · exact List.mem_map_of_mem hf
  · exact source_mem_files hd

/-- **Every file is reached from an entry point or from a member of a cycle.**  If there are no
cycles but there are files, there is an entry point, and every file is reached from one. -/
theorem reached_from_entryPoint_or_cycle (files : List FileFacts) :
    (∀ f ∈ files, ∃ p,
      (p ∈ entryPoints files (dependencies files) ∨
        ∃ c ∈ (ofDependencies (dependencies files)).cycles, p ∈ c) ∧
      ReflTransGen (Joins (dependencies files)) p f.path) ∧
    ((ofDependencies (dependencies files)).cycles = [] → files ≠ [] →
      entryPoints files (dependencies files) ≠ [] ∧
      ∀ f ∈ files, ∃ p ∈ entryPoints files (dependencies files),
        ReflTransGen (Joins (dependencies files)) p f.path) := by
  constructor
  · intro f hf
    obtain ⟨p, hp, hreach⟩ := exists_entryPoint_or_circle hf
    exact ⟨p, hp.imp_right exists_mem_cycles_iff.mpr, hreach⟩
  · intro hnone hne
    have hentry : ∀ f ∈ files, ∃ p ∈ entryPoints files (dependencies files),
        ReflTransGen (Joins (dependencies files)) p f.path := by
      intro f hf
      obtain ⟨p, hp | hcircle, hreach⟩ := exists_entryPoint_or_circle hf
      · exact ⟨p, hp, hreach⟩
      · obtain ⟨c, hc, -⟩ := exists_mem_cycles_iff.mpr hcircle
        rw [hnone] at hc
        exact absurd hc List.not_mem_nil
    obtain ⟨f, hf⟩ := List.exists_mem_of_ne_nil files hne
    obtain ⟨p, hp, -⟩ := hentry f hf
    exact ⟨List.ne_nil_of_mem hp, hentry⟩

/-- A file that imports another one. -/
def importing : List FileFacts :=
  [{ FileFacts.empty "a.ts" .typescript with imports := [⟨"./b", [.named "User"], default⟩] },
    .empty "b.ts" .typescript]

/-- Two files without a cycle. -/
theorem reached_from_entryPoint_importing :
    ((ofDependencies (dependencies importing)).cycles = [] ∧ importing ≠ []) ∧
      entryPoints importing (dependencies importing) ≠ [] ∧
      ∀ f ∈ importing, ∃ p ∈ entryPoints importing (dependencies importing),
        ReflTransGen (Joins (dependencies importing)) p f.path := by
  have hedges : dependencies importing = [⟨"a.ts", "b.ts", ["User"]⟩] := by decide
  have hnone : (ofDependencies (dependencies importing)).cycles = [] := by
    rw [hedges]
    decide +kernel
  have hne : importing ≠ [] := List.cons_ne_nil _ _
  exact ⟨⟨hnone, hne⟩, (reached_from_entryPoint_or_cycle importing).2 hnone hne⟩

end Codemap.Imports
