/-
# Packages added to the known ones

Packages are added for one language at a time, and each addition reaches all languages of that
language's family.  What has been added for a language is what some addition for its family lists
(`mem_added_iff`), so neither the order of the additions nor how they are grouped matters, and an
addition for another family is of no consequence.

Main statement: `mappingPackages_answersFor`, about all sequences of additions and about those that
a configuration makes.
-/
import Codemap.Config.Basic
import Codemap.Proofs.Packages.Tables

namespace Codemap

open Codemap.Packages

variable {calls : List (Language × List String)} {l l' : Language} {p source : String}

/-! ## 1. Languages that share packages -/

/-- Two languages are the same one, or both are of the family with one set of packages. -/
def Language.SharesWith (l l' : Language) : Prop := l' = l ∨ (l.isEcmaScript ∧ l'.isEcmaScript)

theorem Language.mem_family_iff : l' ∈ l.family ↔ l.SharesWith l' := by
  rw [family, SharesWith]
  cases l <;> cases l' <;> simp [isEcmaScript]

theorem Language.sharesWith_iff (hl' : l'.isEcmaScript) : l.SharesWith l' ↔ l.isEcmaScript := by
  constructor
  · rintro (rfl | ⟨hl, -⟩)
    · exact hl'
    · exact hl
  · exact fun hl => Or.inr ⟨hl, hl'⟩

/-- The languages of the family have one table. -/
theorem Packages.frameworkKeys_eq (hl : l.isEcmaScript) (hl' : l'.isEcmaScript) :
    frameworkKeys l = frameworkKeys l' := by
  cases l <;> cases l' <;> first | rfl | simp [Language.isEcmaScript] at hl hl'

/-- A module that a table of the library has a key for. -/
theorem Packages.isSome_framework?_iff :
    (framework? l source).isSome ↔ ∃ entry ∈ frameworkKeys l, belongsTo source entry.1 := by
  have hnone := (hasOneFramework (fun _ h => isPlain_of_mem_frameworkKeys h)
    (nodup_frameworkKeys l) source).none_iff _ (List.Perm.refl _)
  rw [← Option.ne_none_iff_isSome, framework?, Ne, hnone]
  simp only [not_forall, not_not, exists_prop]

/-! ## 2. Additions -/

namespace MappingPackages

/-- The packages after a sequence of additions to the known ones. -/
def afterAdding (calls : List (Language × List String)) : MappingPackages :=
  calls.foldl (fun m (l, packages) => m.add l packages) known

/-- Some addition lists a package for a language. -/
def Lists (calls : List (Language × List String)) (l : Language) (p : String) : Prop :=
  ∃ call ∈ calls, call.1 = l ∧ p ∈ call.2

theorem mem_added_add_iff {m : MappingPackages} {packages : List String} :
    (l', p) ∈ (m.add l packages).added ↔ (l', p) ∈ m.added ∨ (l.SharesWith l' ∧ p ∈ packages) := by
  simp only [add, List.mem_append, List.mem_flatMap, List.mem_map, Prod.mk.injEq,
    ← Language.mem_family_iff]
  constructor
  · rintro (h | ⟨a, ha, q, hq, rfl, rfl⟩)
    · exact Or.inl h
    · exact Or.inr ⟨ha, hq⟩
  · rintro (h | ⟨ha, hq⟩)
    · exact Or.inl h
    · exact Or.inr ⟨l', ha, p, hq, rfl, rfl⟩

/-- **A language has what is listed for its family.** -/
theorem mem_added_iff :
    (l, p) ∈ (afterAdding calls).added ↔ ∃ l', l'.SharesWith l ∧ Lists calls l' p := by
  induction calls using List.reverseRecOn with
  | nil => simp [afterAdding, known, Lists]
  | append_singleton calls call ih =>
    rw [afterAdding, List.foldl_concat, ← afterAdding, mem_added_add_iff, ih]
    constructor
    · rintro (⟨l', hl', call', hcall', hlist⟩ | ⟨hshare, hp⟩)
      · exact ⟨l', hl', call', List.mem_append_left _ hcall', hlist⟩
      · exact ⟨_, hshare, call, List.mem_append_right _ (List.mem_singleton_self call), rfl, hp⟩
    · rintro ⟨l', hl', call', hcall', rfl, hp⟩
      rcases List.mem_append.mp hcall' with hcall' | hcall'
      · exact Or.inl ⟨_, hl', call', hcall', rfl, hp⟩
      · obtain rfl := List.mem_singleton.mp hcall'
        exact Or.inr ⟨hl', hp⟩

theorem maps_iff {m : MappingPackages} :
    m.maps l source ↔ (∃ entry ∈ frameworkKeys l, belongsTo source entry.1) ∨
      ∃ p, (l, p) ∈ m.added ∧ belongsTo source p := by
  rw [maps, Bool.or_eq_true, isSome_framework?_iff, List.any_eq_true]
  refine or_congr_right ⟨?_, ?_⟩
  · rintro ⟨⟨l', p⟩, hmem, h⟩
    obtain ⟨hl, hp⟩ := Bool.and_eq_true_iff.mp h
    exact ⟨p, eq_of_beq hl ▸ hmem, hp⟩
  · rintro ⟨p, hmem, hp⟩
    exact ⟨(l, p), hmem, by simp [hp]⟩

/-- Languages that have the same keys and the same additions have the same modules. -/
theorem maps_eq_of_iff {m m' : MappingPackages} (hkeys : frameworkKeys l = frameworkKeys l')
    (hadded : ∀ p, (l, p) ∈ m.added ↔ (l', p) ∈ m'.added) : m.maps l = m'.maps l' := by
  funext source
  rw [Bool.eq_iff_iff, maps_iff, maps_iff, hkeys]
  simp only [hadded]

/-! ## 3. What is answered after a sequence of additions -/

/-- What packages `m` that were added by `calls` say about modules. -/
structure AnswersFor (calls : List (Language × List String)) (m : MappingPackages) : Prop where
  /-- A module counts if it has a known key, or lies in a package that is listed for its language,
  or for any of the family if its language is of the family. -/
  maps_iff : ∀ l source, m.maps l source ↔
    (∃ entry ∈ frameworkKeys l, belongsTo source entry.1) ∨
      ∃ l' p, l'.SharesWith l ∧ Lists calls l' p ∧ belongsTo source p
  /-- The languages of the family agree. -/
  agree : ∀ l l', l.isEcmaScript → l'.isEcmaScript → m.maps l = m.maps l'
  /-- Additions for others, wherever they come, do not interfere. -/
  unaffected : ∀ l others, (∀ call ∈ others, ¬ call.1.SharesWith l) →
    ∀ mixed : List (Language × List String), mixed.Perm (calls ++ others) →
      (afterAdding mixed).maps l = m.maps l
  /-- Neither the order of the additions nor how they are grouped matters. -/
  regrouped : ∀ calls', (∀ l p, Lists calls' l p ↔ Lists calls l p) →
    (afterAdding calls').maps = m.maps

theorem afterAdding_maps_eq {calls' : List (Language × List String)}
    (h : ∀ l', l'.SharesWith l → ∀ p, Lists calls' l' p ↔ Lists calls l' p) :
    (afterAdding calls').maps l = (afterAdding calls).maps l := by
  refine maps_eq_of_iff rfl fun p => ?_
  rw [mem_added_iff, mem_added_iff]
  exact exists_congr fun l' => and_congr_right fun hl' => h l' hl' p

theorem lists_of_perm {others mixed : List (Language × List String)}
    (hothers : ∀ call ∈ others, ¬ call.1.SharesWith l) (hmixed : mixed.Perm (calls ++ others))
    (hl' : l'.SharesWith l) : Lists mixed l' p ↔ Lists calls l' p := by
  constructor
  · rintro ⟨call, hcall, rfl, hp⟩
    rcases List.mem_append.mp (hmixed.mem_iff.mp hcall) with hcall | hcall
    · exact ⟨call, hcall, rfl, hp⟩
    · exact absurd hl' (hothers call hcall)
  · rintro ⟨call, hcall, hlist⟩
    exact ⟨call, hmixed.mem_iff.mpr (List.mem_append_left _ hcall), hlist⟩

theorem afterAdding_answersFor (calls : List (Language × List String)) :
    AnswersFor calls (afterAdding calls) where
  maps_iff l source := by
    rw [MappingPackages.maps_iff]
    refine or_congr_right ⟨?_, ?_⟩
    · rintro ⟨p, hmem, hp⟩
      obtain ⟨l', hl', hlist⟩ := mem_added_iff.mp hmem
      exact ⟨l', p, hl', hlist, hp⟩
    · rintro ⟨l', p, hl', hlist, hp⟩
      exact ⟨p, mem_added_iff.mpr ⟨l', hl', hlist⟩, hp⟩
  agree l l' hl hl' := by
    refine maps_eq_of_iff (frameworkKeys_eq hl hl') fun p => ?_
    simp only [mem_added_iff, Language.sharesWith_iff hl, Language.sharesWith_iff hl']
  unaffected l others hothers mixed hmixed :=
    afterAdding_maps_eq fun _ hl' _ => lists_of_perm hothers hmixed hl'
  regrouped calls' h := funext fun l => afterAdding_maps_eq fun l' _ p => h l' p

end MappingPackages

open MappingPackages

/-- **Which modules map objects to tables**, after any sequence of additions to the known packages
and with the packages of any configuration. -/
theorem mappingPackages_answersFor :
    (∀ calls, AnswersFor calls (afterAdding calls)) ∧
      ∀ config : Config, AnswersFor config.packages config.mappingPackages :=
  ⟨afterAdding_answersFor, fun config => afterAdding_answersFor config.packages⟩

/-- An addition for one language of the family is one for all of them, and for no other. -/
example :
    let m := afterAdding [(.typescript, ["objection"]), (.python, ["tortoise"])]
    m.maps .javascript "objection" ∧ m.maps .python "tortoise.models" ∧
      ¬ m.maps .go "tortoise" := by
  decide

end Codemap
