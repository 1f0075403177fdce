/-
# One answer for each module

Of two plain keys of one module the one begins with the other, so one of them is shorter.  A set of
keys therefore has one answer for a module, the longest of its keys, and a table has the framework
of that key.  Sets and tables have no order of their own, and the answer is the same in whatever
order their keys are tried.

Main statement: `lookup_isUnique`.  It is about all sets and tables of plain keys; those that the
library looks up in are such.
-/
import Codemap.Proofs.Packages.Known

namespace Codemap.Packages

open Codemap.Text

variable {keys order : List String} {table : List (String × Framework)} {source key a b : String}

/-! ## 1. Answers -/

/-- A module belongs to one of the keys, and all others that it belongs to are shorter. -/
structure IsAnswer (keys : List String) (source key : String) : Prop where
  mem : key ∈ keys
  belongs : belongsTo source key
  isShorter : ∀ k ∈ keys, belongsTo source k → k ≠ key → IsShorter k key

/-- What a set of keys has for a module, in whatever order they are tried. -/
structure HasOneKey (keys : List String) (source : String) : Prop where
  length_ne : ∀ a ∈ keys, ∀ b ∈ keys, belongsTo source a → belongsTo source b → a ≠ b →
    a.length ≠ b.length ∧ a.utf8ByteSize ≠ b.utf8ByteSize
  some_iff : ∀ order, order.Perm keys → ∀ key,
    longestMatch? order source = some key ↔ IsAnswer keys source key
  none_iff : ∀ order, order.Perm keys →
    (longestMatch? order source = none ↔ ∀ key ∈ keys, ¬ belongsTo source key)

/-- What a table has for a module, in whatever order its keys are tried. -/
structure HasOneFramework (table : List (String × Framework)) (source : String) : Prop where
  some_iff : ∀ order, order.Perm table → ∀ f,
    frameworkIn? order source = some f ↔
      ∃ key, IsAnswer (table.map (·.1)) source key ∧ (key, f) ∈ table
  none_iff : ∀ order, order.Perm table →
    (frameworkIn? order source = none ↔ ∀ entry ∈ table, ¬ belongsTo source entry.1)

theorem isLongestMatch_iff (hplain : ∀ k ∈ keys, IsPlain k) :
    IsLongestMatch keys source key ↔ IsAnswer keys source key := by
  constructor
  · refine fun h => ⟨h.mem, h.belongs, fun k hk hsource hne => ?_⟩
    have hle := h.size_le k hk hsource
    rcases isShorter_or_isShorter (hplain k hk) (hplain key h.mem) hsource h.belongs hne with h | h
    · exact h
    · exact absurd hle (not_le.mpr h.2)
  · refine fun h => ⟨h.mem, h.belongs, fun k hk hsource => ?_⟩
    rcases eq_or_ne k key with rfl | hne
    · exact le_rfl
    · exact (h.isShorter k hk hsource hne).2.le

theorem longestMatch?_eq_some_iff_isAnswer (hplain : ∀ k ∈ keys, IsPlain k)
    (horder : order.Perm keys) :
    longestMatch? order source = some key ↔ IsAnswer keys source key := by
  rw [longestMatch?_eq_of_perm horder fun k hk => hplain k (horder.mem_iff.mp hk),
    longestMatch?_eq_some_iff hplain, isLongestMatch_iff hplain]

theorem longestMatch?_eq_none_iff (horder : order.Perm keys) :
    longestMatch? order source = none ↔ ∀ key ∈ keys, ¬ belongsTo source key := by
  rw [← Option.not_isSome_iff_eq_none, isSome_longestMatch?_iff]
  simp only [not_exists, not_and, horder.mem_iff]

theorem hasOneKey (hplain : ∀ k ∈ keys, IsPlain k) (source : String) : HasOneKey keys source where
  length_ne a ha b hb hsa hsb hne := by
    rcases isShorter_or_isShorter (hplain a ha) (hplain b hb) hsa hsb hne with h | h
    · exact ⟨h.1.ne, h.2.ne⟩
    · exact ⟨h.1.ne', h.2.ne'⟩
  some_iff _ horder _ := longestMatch?_eq_some_iff_isAnswer hplain horder
  none_iff _ horder := longestMatch?_eq_none_iff horder

/-- A table in which no key comes twice has what it lists. -/
theorem map_find?_eq_some_iff {f : Framework} (hkeys : (table.map (·.1)).Nodup) :
    (table.find? fun entry => entry.1 == key).map (·.2) = some f ↔ (key, f) ∈ table := by
  induction table with
  | nil => simp
  | cons entry table ih =>
    obtain ⟨k, g⟩ := entry
    rw [List.map_cons, List.nodup_cons] at hkeys
    rcases eq_or_ne k key with rfl | hne
    · have hother : (k, f) ∉ table := fun hmem => hkeys.1 (List.mem_map.mpr ⟨_, hmem, rfl⟩)
      simp [hother, eq_comm]
    · rw [List.find?_cons_of_neg (by simpa using hne), ih hkeys.2]
      simp [hne.symm]

section Frameworks

variable (hplain : ∀ entry ∈ table, IsPlain entry.1) (hkeys : (table.map (·.1)).Nodup)
  {order : List (String × Framework)} (horder : order.Perm table)

include hplain hkeys horder

theorem frameworkIn?_eq_some_iff {f : Framework} : frameworkIn? order source = some f ↔
    ∃ key, IsAnswer (table.map (·.1)) source key ∧ (key, f) ∈ table := by
  have hplain' : ∀ k ∈ table.map (·.1), IsPlain k := List.forall_mem_map.mpr hplain
  have horder' := horder.map (·.1)
  simp only [frameworkIn?, Option.bind_eq_bind, Option.bind_eq_some_iff,
    longestMatch?_eq_some_iff_isAnswer hplain' horder',
    map_find?_eq_some_iff (horder'.nodup_iff.mpr hkeys), horder.mem_iff]

theorem frameworkIn?_eq_none_iff :
    frameworkIn? order source = none ↔ ∀ entry ∈ table, ¬ belongsTo source entry.1 := by
  have hplain' : ∀ k ∈ table.map (·.1), IsPlain k := List.forall_mem_map.mpr hplain
  have horder' := horder.map (·.1)
  constructor
  · intro hnone entry hentry hsource
    -- Some key is the answer, and the table has a framework for it.
    obtain ⟨key, hkey⟩ := Option.isSome_iff_exists.mp
      (isSome_longestMatch?_iff.mpr ⟨_, horder'.mem_iff.mpr (List.mem_map_of_mem hentry), hsource⟩)
    have hanswer := (longestMatch?_eq_some_iff_isAnswer hplain' horder').mp hkey
    obtain ⟨⟨_, f⟩, hf, rfl⟩ := List.mem_map.mp hanswer.mem
    have hsome := (frameworkIn?_eq_some_iff hplain hkeys horder).mpr ⟨_, hanswer, hf⟩
    exact absurd (hnone.symm.trans hsome) (Option.some_ne_none f).symm
  · intro hall
    have hall' : ∀ k ∈ table.map (·.1), ¬ belongsTo source k := List.forall_mem_map.mpr hall
    rw [frameworkIn?, (longestMatch?_eq_none_iff horder').mpr hall']
    rfl

end Frameworks

theorem hasOneFramework (hplain : ∀ entry ∈ table, IsPlain entry.1)
    (hkeys : (table.map (·.1)).Nodup) (source : String) : HasOneFramework table source where
  some_iff _ horder _ := frameworkIn?_eq_some_iff hplain hkeys horder
  none_iff _ horder := frameworkIn?_eq_none_iff hplain hkeys horder

/-! ## 2. The tables of the library -/

theorem isPlain_of_mem_frameworkKeys {language : Language} {entry : String × Framework}
    (h : entry ∈ frameworkKeys language) : IsPlain entry.1 := by
  have hall : ∀ e ∈ frameworkKeys language, ¬ builtInMark.isPrefixOf e.1.toList := by
    cases language <;> decide
  exact mt List.isPrefixOf_iff_prefix.mpr (hall entry h)

theorem nodup_frameworkKeys (language : Language) :
    ((frameworkKeys language).map (·.1)).Nodup := by
  cases language <;> decide

/-- **A module has one answer in a set or table of plain keys, whatever their order.**  The keys
that the library has are plain, and none of its tables has a key twice. -/
theorem lookup_isUnique :
    (∀ keys source, (∀ k ∈ keys, IsPlain k) → HasOneKey keys source) ∧
      (∀ (table : List (String × Framework)) source, (∀ entry ∈ table, IsPlain entry.1) →
        (table.map (·.1)).Nodup → HasOneFramework table source) ∧
      (∀ keys ∈ knownSets, ∀ source, HasOneKey keys source) ∧
      ∀ language source, HasOneFramework (frameworkKeys language) source := by
  refine ⟨fun keys source hplain => hasOneKey hplain source,
    fun table source hplain hkeys => hasOneFramework hplain hkeys source, ?_, ?_⟩
  · exact fun keys hkeys source =>
      hasOneKey (fun k hk => isPlain_of_mem hkeys hk) source
  · exact fun language source => hasOneFramework (fun entry hentry =>
      isPlain_of_mem_frameworkKeys hentry) (nodup_frameworkKeys language) source

example : longestMatch? ["org.hibernate.orm", "fs", "org.hibernate"] "org.hibernate.orm.Session" =
    some "org.hibernate.orm" := by
  decide

/-- One key begins with another one, and a module of the runtime may go by two names. -/
theorem lookup_isUnique_nested :
    (∀ k ∈ ["fs", "org.hibernate", "org.hibernate.orm"], IsPlain k) ∧
      HasOneKey ["fs", "org.hibernate", "org.hibernate.orm"] "org.hibernate.orm.Session" ∧
      HasOneKey ["fs", "org.hibernate", "org.hibernate.orm"] "node:fs" ∧
      HasOneFramework (frameworkKeys .typescript) "sequelize-typescript/model" := by
  have hplain : ∀ k ∈ ["fs", "org.hibernate", "org.hibernate.orm"], IsPlain k := by
    have hall : ∀ k ∈ ["fs", "org.hibernate", "org.hibernate.orm"],
        ¬ builtInMark.isPrefixOf k.toList := by decide
    exact fun k hk => mt List.isPrefixOf_iff_prefix.mpr (hall k hk)
  refine ⟨hplain, lookup_isUnique.1 _ _ hplain, lookup_isUnique.1 _ _ hplain, ?_⟩
  exact lookup_isUnique.2.1 _ _ (fun entry h => isPlain_of_mem_frameworkKeys h)
    (nodup_frameworkKeys .typescript)

end Codemap.Packages
