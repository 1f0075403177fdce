/-
# The longest key is the only one of its size

A module belongs to a key that it is equal to or that it begins with, and to a key that it is apart
from the mark for modules of the runtime.  Beginnings of one text that are of one size are equal,
and a beginning that ends before a slash or a dot does not end within the mark.  So of the keys
that do not begin with that mark themselves, two of one module differ in size, counted in
characters or in bytes (`isShorter_or_isShorter`): the longest key of a module is the only one of
its size (`eq_of_belongsTo`), and it does not matter in which order keys are tried, nor which of
several longest ones would be preferred (`longestMatch?_eq_some_iff`).
-/
import Codemap.Packages.Known
import Codemap.Proofs.Text.Ends
import Mathlib.Data.List.Induction

namespace Codemap.Packages

open Codemap.Text

variable {keys keys' : List String} {source key a b : String}

/-! ## 1. Modules and keys -/

/-- A module begins with its key, up to a slash or a dot, or it is the key with a mark before it. -/
theorem belongsTo_cases (h : belongsTo source key) :
    (∃ rest, source.toList = key.toList ++ rest ∧ (rest = [] ∨ startsWithin rest)) ∨
      source.toList = builtInMark ++ key.toList := by
  rw [belongsTo, belongs, Bool.or_eq_true, beq_iff_eq] at h
  rcases h with h | h
  · exact Or.inl ⟨[], by simp [h], Or.inl rfl⟩
  · split at h
    next rest hrest => exact Or.inl ⟨rest, after?_eq_some_iff.mp hrest, Or.inr h⟩
    next => exact Or.inr (after?_eq_some_iff.mp (beq_iff_eq.mp h))

/-- Neither a slash nor a dot stands in the mark for modules of the runtime. -/
theorem not_startsWithin_of_mem {c : Char} (hc : c ∈ builtInMark) (rest : List Char) :
    ¬ startsWithin (c :: rest) := by
  simp only [builtInMark, List.mem_cons, List.not_mem_nil, or_false] at hc
  rcases hc with rfl | rfl | rfl | rfl | rfl <;> simp [startsWithin]

/-- A key that is not written with the mark for modules of the runtime. -/
def IsPlain (key : String) : Prop := ¬ builtInMark <+: key.toList

/-- A module with the mark begins with no plain key, up to a slash or a dot. -/
theorem not_marked {s rest : List Char} (ha : IsPlain a) (hs : s = a.toList ++ rest)
    (hrest : rest = [] ∨ startsWithin rest) : ¬ builtInMark <+: s := by
  intro hmark
  rcases List.prefix_or_prefix_of_prefix hmark ⟨rest, hs.symm⟩ with h | ⟨t, ht⟩
  · exact ha h
  · -- The key ends within the mark, so what follows the key starts with a character of the mark.
    cases t with
    | nil => exact ha (by simp [← ht])
    | cons c t =>
      rw [hs, ← ht] at hmark
      obtain ⟨u, hu⟩ := hmark
      rw [List.append_assoc, List.append_cancel_left_eq] at hu
      have hc : c ∈ builtInMark := ht ▸ by simp
      rcases hrest with rfl | hrest
      · simp at hu
      · exact not_startsWithin_of_mem hc _ (hu ▸ hrest)

/-- Of two plain keys of one module the one begins with the other. -/
theorem startsWith_or_startsWith (ha : IsPlain a) (hb : IsPlain b) (hsa : belongsTo source a)
    (hsb : belongsTo source b) : a.toList <+: b.toList ∨ b.toList <+: a.toList := by
  rcases belongsTo_cases hsa with ⟨r, hr, hwithin⟩ | hmark <;>
    rcases belongsTo_cases hsb with ⟨r', hr', hwithin'⟩ | hmark'
  · exact List.prefix_or_prefix_of_prefix ⟨r, hr.symm⟩ ⟨r', hr'.symm⟩
  · exact absurd ⟨_, hmark'.symm⟩ (not_marked ha hr hwithin)
  · exact absurd ⟨_, hmark.symm⟩ (not_marked hb hr' hwithin')
  · exact Or.inl (List.append_cancel_left (hmark.symm.trans hmark') ▸ List.prefix_rfl)

/-- A key is shorter than another one, in characters and in bytes. -/
def IsShorter (a b : String) : Prop := a.length < b.length ∧ a.utf8ByteSize < b.utf8ByteSize

theorem isShorter_of_startsWith (h : a.toList <+: b.toList) (hne : a ≠ b) : IsShorter a b := by
  obtain ⟨t, ht⟩ := h
  obtain rfl : b = a ++ String.ofList t := by
    rw [← String.toList_inj, String.toList_append, String.toList_ofList, ht]
  have hfull : String.ofList t ≠ "" := fun hempty => hne (by rw [hempty, String.append_empty])
  have hchars : (String.ofList t).length ≠ 0 := mt String.length_eq_zero_iff.mp hfull
  have hbytes : (String.ofList t).utf8ByteSize ≠ 0 := mt String.utf8ByteSize_eq_zero_iff.mp hfull
  rw [IsShorter, String.length_append, String.utf8ByteSize_append]
  omega

/-- **Two plain keys of one module are not of one length**: one of them is shorter. -/
theorem isShorter_or_isShorter (ha : IsPlain a) (hb : IsPlain b) (hsa : belongsTo source a)
    (hsb : belongsTo source b) (hne : a ≠ b) : IsShorter a b ∨ IsShorter b a :=
  (startsWith_or_startsWith ha hb hsa hsb).imp (isShorter_of_startsWith · hne)
    (isShorter_of_startsWith · hne.symm)

/-- **No two plain keys of one size have the same module.** -/
theorem eq_of_belongsTo (ha : IsPlain a) (hb : IsPlain b) (hsa : belongsTo source a)
    (hsb : belongsTo source b) (hsize : a.utf8ByteSize = b.utf8ByteSize) : a = b := by
  by_contra hne
  rcases isShorter_or_isShorter ha hb hsa hsb hne with h | h
  · exact h.2.ne hsize
  · exact h.2.ne' hsize

/-! ## 2. The longest key -/

/-- A module belongs to one of the keys, and to none that is longer. -/
structure IsLongestMatch (keys : List String) (source key : String) : Prop where
  mem : key ∈ keys
  belongs : belongsTo source key
  size_le : ∀ k ∈ keys, belongsTo source k → k.utf8ByteSize ≤ key.utf8ByteSize

theorem longestMatch?_concat (keys : List String) (key source : String) :
    longestMatch? (keys ++ [key]) source =
      if belongsTo source key then
        match longestMatch? keys source with
        | some b => if b.utf8ByteSize ≤ key.utf8ByteSize then some key else some b
        | none => some key
      else longestMatch? keys source := by
  rw [longestMatch?, List.foldl_append, List.foldl_cons, List.foldl_nil, ← longestMatch?]
  cases longestMatch? keys source <;> rfl

theorem IsLongestMatch.concat (h : IsLongestMatch keys source a)
    (hkey : belongsTo source key → key.utf8ByteSize ≤ a.utf8ByteSize) :
    IsLongestMatch (keys ++ [key]) source a where
  mem := List.mem_append_left _ h.mem
  belongs := h.belongs
  size_le k hk hsource := by
    rcases List.mem_append.mp hk with hk | hk
    · exact h.size_le k hk hsource
    · obtain rfl := List.mem_singleton.mp hk
      exact hkey hsource

theorem isLongestMatch_last (hkey : belongsTo source key)
    (h : ∀ k ∈ keys, belongsTo source k → k.utf8ByteSize ≤ key.utf8ByteSize) :
    IsLongestMatch (keys ++ [key]) source key where
  mem := List.mem_append_right _ (List.mem_singleton_self key)
  belongs := hkey
  size_le k hk hsource := by
    rcases List.mem_append.mp hk with hk | hk
    · exact h k hk hsource
    · exact (List.mem_singleton.mp hk) ▸ le_rfl

/-- A longest key is found, unless the module belongs to none at all. -/
theorem longestMatch?_spec (keys : List String) (source : String) :
    (∃ k, longestMatch? keys source = some k ∧ IsLongestMatch keys source k) ∨
      (longestMatch? keys source = none ∧ ∀ k ∈ keys, ¬ belongsTo source k) := by
  induction keys using List.reverseRecOn with
  | nil => exact Or.inr ⟨rfl, fun k hk => absurd hk List.not_mem_nil⟩
  | append_singleton keys key ih =>
    rw [longestMatch?_concat]
    by_cases hkey : belongsTo source key
    · rw [if_pos hkey]
      rcases ih with ⟨k, hk, hlongest⟩ | ⟨hnone, hall⟩
      · rw [hk]
        by_cases hle : k.utf8ByteSize ≤ key.utf8ByteSize
        · refine Or.inl ⟨key, if_pos hle, isLongestMatch_last hkey fun k' hk' hsource => ?_⟩
          exact (hlongest.size_le k' hk' hsource).trans hle
        · exact Or.inl ⟨k, if_neg hle, hlongest.concat fun _ => (not_le.mp hle).le⟩
      · rw [hnone]
        exact Or.inl ⟨key, rfl, isLongestMatch_last hkey fun k hk hsource =>
          absurd hsource (hall k hk)⟩
    · rw [if_neg hkey]
      rcases ih with ⟨k, hk, hlongest⟩ | ⟨hnone, hall⟩
      · exact Or.inl ⟨k, hk, hlongest.concat fun h => absurd h hkey⟩
      · refine Or.inr ⟨hnone, fun k hk => ?_⟩
        rcases List.mem_append.mp hk with hk | hk
        · exact hall k hk
        · exact (List.mem_singleton.mp hk) ▸ hkey

theorem isSome_longestMatch?_iff :
    (longestMatch? keys source).isSome ↔ ∃ k ∈ keys, belongsTo source k := by
  rcases longestMatch?_spec keys source with ⟨k, hk, hlongest⟩ | ⟨hnone, hall⟩
  · exact iff_of_true (by simp [hk]) ⟨k, hlongest.mem, hlongest.belongs⟩
  · exact iff_of_false (by simp [hnone]) fun ⟨k, hk, hsource⟩ => hall k hk hsource

/-- **The key that is found is the longest one**, whatever the order of the keys. -/
theorem longestMatch?_eq_some_iff (hplain : ∀ k ∈ keys, IsPlain k) :
    longestMatch? keys source = some key ↔ IsLongestMatch keys source key := by
  rcases longestMatch?_spec keys source with ⟨k, hk, hlongest⟩ | ⟨hnone, hall⟩
  · rw [hk, Option.some.injEq]
    refine ⟨fun h => h ▸ hlongest, fun h => ?_⟩
    exact eq_of_belongsTo (hplain k hlongest.mem) (hplain key h.mem) hlongest.belongs h.belongs
      (Nat.le_antisymm (h.size_le k hlongest.mem hlongest.belongs)
        (hlongest.size_le key h.mem h.belongs))
  · exact iff_of_false (by simp [hnone]) fun h => hall key h.mem h.belongs

theorem IsLongestMatch.of_perm (hlongest : IsLongestMatch keys source key)
    (h : keys.Perm keys') : IsLongestMatch keys' source key where
  mem := h.mem_iff.mp hlongest.mem
  belongs := hlongest.belongs
  size_le k hk := hlongest.size_le k (h.mem_iff.mpr hk)

/-- **The order of the keys does not matter.** -/
theorem longestMatch?_eq_of_perm (h : keys.Perm keys') (hplain : ∀ k ∈ keys, IsPlain k) :
    longestMatch? keys = longestMatch? keys' := by
  funext source
  refine Option.ext fun key => ?_
  rw [longestMatch?_eq_some_iff hplain,
    longestMatch?_eq_some_iff fun k hk => hplain k (h.mem_iff.mpr hk)]
  exact ⟨fun hlongest => hlongest.of_perm h, fun hlongest => hlongest.of_perm h.symm⟩

/-- The sets of keys that modules are looked up in. -/
def knownSets : List (List String) :=
  [validation, frontend, web, worker, cli, data, infrastructure, httpClient]

/-- The keys of the library are plain. -/
theorem isPlain_of_mem (hkeys : keys ∈ knownSets) (h : key ∈ keys) : IsPlain key := by
  have hall : ∀ keys ∈ knownSets, ∀ k ∈ keys, ¬ builtInMark.isPrefixOf k.toList := by
    decide +kernel
  exact mt List.isPrefixOf_iff_prefix.mpr (hall keys hkeys key h)

end Codemap.Packages
