/-
# Facts and the places that they are about

The facts of one kind are read off the places of a tree one by one.  So they can be compared with
what the tree holds by comparing two lists: the facts, less everything but what tells them apart
(their stamps), and the places of the nodes that they should be about.
-/
import Codemap.Proofs.Facts.Resolved
import Mathlib.Data.List.Nodup

namespace Codemap.Facts

open Codemap.Syntax

/-! ## 1. Stamps -/

/-- The names of a function and where it stands. -/
structure Stamp where
  name : String
  qualifiedName : String
  location : Location
deriving DecidableEq

/-- The stamp of a fact about a function. -/
def stamp (g : Function) : Stamp := ⟨g.name, g.qualifiedName, g.location⟩

/-- The stamps of the methods of a type. -/
def methodStamps (t : TypeDecl) : List Stamp := t.methods.map fun m => stamp m.function

theorem declares_of_stamp_mem_functions {f : FileFacts} {x : Stamp}
    (h : x ∈ f.functions.map stamp) : f.Declares x.qualifiedName := by
  obtain ⟨g, hg, rfl⟩ := List.mem_map.mp h
  exact Or.inl ⟨g, hg, rfl⟩

theorem declares_of_mem_methodStamps {f : FileFacts} {t : TypeDecl} {x : Stamp} (ht : t ∈ f.types)
    (h : x ∈ methodStamps t) : f.Declares x.qualifiedName := by
  obtain ⟨m, hm, rfl⟩ := List.mem_map.mp h
  exact Or.inr ⟨t, ht, m, hm, rfl⟩

/-! ## 2. Reading places -/

/-- What is read off the places where there is something to read. -/
theorem map_filterMap_eq_map_filter {α β γ : Type} {f : α → Option β} {s : β → γ} {p : α → Bool}
    {g : α → γ} {xs : List α} (h : ∀ x ∈ xs, (f x).map s = if p x then some (g x) else none) :
    (xs.filterMap f).map s = (xs.filter p).map g := by
  induction xs with
  | nil => rfl
  | cons x xs ih =>
    obtain ⟨hx, hxs⟩ := List.forall_mem_cons.mp h
    rw [List.filter_cons]
    cases hf : f x with
    | none =>
      rw [hf] at hx
      rw [List.filterMap_cons_none hf, ih hxs, if_neg]
      intro hp
      rw [if_pos hp] at hx
      exact absurd hx.symm (Option.some_ne_none _)
    | some y =>
      rw [hf, Option.map_some] at hx
      rw [List.filterMap_cons_some hf, List.map_cons, ih hxs]
      split at hx
      next hp => rw [if_pos hp, List.map_cons, Option.some.inj hx]
      next => exact absurd hx (Option.some_ne_none _)

/-- What has no owner, together with what each owner has, is everything. -/
theorem filter_isNone_append_flatMap_perm {α κ : Type} {owner : α → Option κ} {xs : List α}
    {ks : List κ} {owned : κ → List α} (hxs : xs.Nodup) (hks : ks.Nodup)
    (hnodup : ∀ k ∈ ks, (owned k).Nodup)
    (howned : ∀ k ∈ ks, ∀ a, a ∈ owned k ↔ a ∈ xs ∧ owner a = some k)
    (howner : ∀ a ∈ xs, ∀ k, owner a = some k → k ∈ ks) :
    ((xs.filter fun a => (owner a).isNone) ++ ks.flatMap owned).Perm xs := by
  have hheld : ∀ a, a ∈ ks.flatMap owned ↔ a ∈ xs ∧ (owner a).isSome := by
    intro a
    rw [List.mem_flatMap]
    constructor
    · rintro ⟨k, hk, ha⟩
      obtain ⟨ha, hown⟩ := (howned k hk a).mp ha
      exact ⟨ha, Option.isSome_of_mem hown⟩
    · rintro ⟨ha, hown⟩
      obtain ⟨k, hown⟩ := Option.isSome_iff_exists.mp hown
      have hk := howner a ha k hown
      exact ⟨k, hk, (howned k hk a).mpr ⟨ha, hown⟩⟩
  refine (List.perm_ext_iff_of_nodup ?_ hxs).mpr fun a => ?_
  · refine List.Nodup.append (hxs.filter _) ?_ fun a hnone hsome => ?_
    · refine List.nodup_flatMap.mpr ⟨hnodup, hks.imp_of_mem fun hk hj hne a ha ha' => hne ?_⟩
      -- what two owners have has one owner
      have hown := ((howned _ hk a).mp ha).2
      exact Option.some.inj (hown.symm.trans ((howned _ hj a).mp ha').2)
    · have hown := ((hheld a).mp hsome).2
      rw [Option.isNone_iff_eq_none.mp (List.mem_filter.mp hnone).2] at hown
      exact Bool.false_ne_true hown
  · rw [List.mem_append, hheld, List.mem_filter, ← and_or_left]
    refine and_iff_left ?_
    cases owner a with
    | none => exact Or.inl rfl
    | some k => exact Or.inr rfl

/-! ## 3. The places of calls -/

/-- What reads the calls of a language off the places of a tree. -/
def callSiteIn? : Language → String → Cursor → Option CallSite
  | .typescript | .tsx | .javascript => EcmaScript.callSite?
  | .python => Python.callSite?
  | .java => Java.callSite?
  | .go => Go.callSite?

/-- The calls of a file are read off the places of its tree. -/
theorem calls_ofTree (file : ParsedFile) :
    (FileFacts.ofTree file).calls = (Cursor.top file.tree).walk.filterMap fun c =>
      (callSiteIn? file.language file.path c).map (Symbols.ofFacts (FileFacts.ofTree file).functions
        (FileFacts.ofTree file).types).call := by
  obtain ⟨path, language, tree⟩ := file
  cases language <;> rfl

/-- The callers of a file are those of the calls that stand in its tree. -/
theorem mem_callers_iff {file : ParsedFile} {caller : String} :
    (∃ x ∈ (FileFacts.ofTree file).calls, x.caller = caller) ↔
      ∃ s ∈ (Cursor.top file.tree).walk, ∃ site,
        callSiteIn? file.language file.path s = some site ∧ site.caller = caller := by
  simp only [calls_ofTree, List.mem_filterMap, Option.map_eq_some_iff]
  constructor
  · rintro ⟨x, ⟨s, hs, site, hsite, rfl⟩, hcaller⟩
    exact ⟨s, hs, site, hsite, hcaller⟩
  · rintro ⟨s, hs, site, hsite, hcaller⟩
    exact ⟨_, ⟨s, hs, site, hsite, rfl⟩, hcaller⟩

end Codemap.Facts
