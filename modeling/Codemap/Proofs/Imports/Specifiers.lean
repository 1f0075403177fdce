/-
# Edges and the specifiers alone

A reader of a file expects an edge to every file that one of its specifiers resolves to, with the
names that are bound there (`FollowsSpecifiers`).  The names of a package are treated otherwise:
behind a specifier of dots, each name is first tried as a module, in every language, and a package
that nothing is bound from is not looked at.

The edges of a file still follow its specifiers exactly if these two rules come to the same for it
(`PackagesAgree`), that is, if its other references make up for what the names of packages lead
away and for the packages without names.  Main statement: `edges_followSpecifiers_iff`.  Files that
take names from the index of their own directory refute it for all files
(`not_followsSpecifiers_besideIndex`).
-/
import Codemap.Proofs.Imports.Edges

namespace Codemap.Imports

variable {files : List FileFacts} {f g : FileFacts} {n t : String} {known : List String}
  {d : Dependency}

/-! ## 1. What specifiers say -/

/-- A specifier of the file `f` resolves to `t`. -/
def Specifies (known : List String) (f : FileFacts) (t : String) : Prop :=
  ∃ r ∈ references f, resolve? (Path.normalized f.path) r.1 known = some t

/-- The file `f` binds the name `n` by a specifier that resolves to `t`. -/
def Binds (known : List String) (f : FileFacts) (t n : String) : Prop :=
  ∃ r ∈ references f, resolve? (Path.normalized f.path) r.1 known = some t ∧ ∃ b ∈ r.2, b.name = n

/-- The edges from the file `f` lead where its specifiers resolve to, with the names that it binds
there. -/
structure FollowsSpecifiers (files : List FileFacts) (ds : List Dependency) (f : FileFacts) :
    Prop where
  joins_iff : ∀ g ∈ files,
    Joins ds f.path g.path ↔ Specifies (knownPaths files) f (Path.normalized g.path)
  mem_names_iff : ∀ g ∈ files, ∀ d ∈ ds, d.source = f.path → d.target = g.path → ∀ n,
    n ∈ d.names ↔ Binds (knownPaths files) f (Path.normalized g.path) n

/-- To try the names of packages as modules comes to the same as to resolve specifiers alone. -/
structure PackagesAgree (known : List String) (f : FileFacts) : Prop where
  /-- A package that nothing is bound from is led to by another reference. -/
  unbound : ∀ r ∈ references f, IsDots r.1 → r.2 = [] → ∀ t,
    resolve? (Path.normalized f.path) r.1 known = some t → LeadsTo references known f t
  /-- A name of a package that is a module is also bound by a specifier of this module. -/
  module : ∀ r ∈ references f, IsDots r.1 → ∀ b ∈ r.2, ∀ t,
    resolve? (Path.normalized f.path) (r.1 ++ b.name) known = some t → Binds known f t b.name
  /-- A name of a package that is a module is also taken from the package. -/
  package : ∀ r ∈ references f, IsDots r.1 → ∀ b ∈ r.2,
    (resolve? (Path.normalized f.path) (r.1 ++ b.name) known).isSome → ∀ t,
      resolve? (Path.normalized f.path) r.1 known = some t → Takes references known f t b.name

theorem specifies_of_binds (h : Binds known f t n) : Specifies known f t := by
  obtain ⟨r, hr, ht, -⟩ := h
  exact ⟨r, hr, ht⟩

theorem mem_of_specifies (h : Specifies known f t) : t ∈ known := by
  obtain ⟨r, -, ht⟩ := h
  exact mem_of_resolve? ht

theorem leadsTo_of_takes (h : Takes references known f t n) : LeadsTo references known f t := by
  rcases h with ⟨r, hr, hdots, ht, -⟩ | ⟨r, hr, hdots, b, hb, ht, -⟩
  · exact Or.inl ⟨r, hr, hdots, ht⟩
  · exact Or.inr ⟨r, hr, hdots, b, hb, ht⟩

theorem mem_of_leadsTo (h : LeadsTo references known f t) : t ∈ known := by
  obtain ⟨names, htaken⟩ := exists_mem_taken_iff.mpr h
  exact mem_of_mem_taken htaken

/-! ## 2. Where both rules agree -/

theorem PackagesAgree.takes_iff (h : PackagesAgree known f) :
    Takes references known f t n ↔ Binds known f t n := by
  constructor
  · rintro (⟨r, hr, -, ht, hn⟩ | ⟨r, hr, hdots, b, hb, ht, rfl⟩)
    · exact ⟨r, hr, ht, hn⟩
    · rcases Option.or_eq_some_iff.mp ht with hmodule | ⟨-, hpackage⟩
      · exact h.module r hr hdots b hb t hmodule
      · exact ⟨r, hr, hpackage, b, hb, rfl⟩
  · rintro ⟨r, hr, ht, b, hb, rfl⟩
    by_cases hdots : IsDots r.1
    · cases hmodule : resolve? (Path.normalized f.path) (r.1 ++ b.name) known with
      | some m => exact h.package r hr hdots b hb (by rw [hmodule]; rfl) t ht
      | none =>
        have hpackage : ofPackage? known (Path.normalized f.path) r.1 b = some t := by
          rw [ofPackage?, hmodule, ht]
          rfl
        exact Or.inr ⟨r, hr, hdots, b, hb, hpackage, rfl⟩
    · exact Or.inl ⟨r, hr, hdots, ht, b, hb, rfl⟩

theorem PackagesAgree.leadsTo_iff (h : PackagesAgree known f) :
    LeadsTo references known f t ↔ Specifies known f t := by
  constructor
  · rintro (⟨r, hr, -, ht⟩ | ⟨r, hr, hdots, b, hb, ht⟩)
    · exact ⟨r, hr, ht⟩
    · exact specifies_of_binds (h.takes_iff.mp (Or.inr ⟨r, hr, hdots, b, hb, ht, rfl⟩))
  · rintro ⟨r, hr, ht⟩
    by_cases hdots : IsDots r.1
    · rcases List.eq_nil_or_concat r.2 with hnil | ⟨bs, b, hbs⟩
      · exact h.unbound r hr hdots hnil t ht
      · -- a name that is bound is taken, so the file is led to
        have hb : b ∈ r.2 := by simp [hbs]
        exact leadsTo_of_takes (h.takes_iff.mpr ⟨r, hr, ht, b, hb, rfl⟩)
    · exact Or.inl ⟨r, hr, hdots, ht⟩

theorem packagesAgree_of_forall_iff
    (hleads : ∀ t, LeadsTo references known f t ↔ Specifies known f t)
    (htakes : ∀ t n, Takes references known f t n ↔ Binds known f t n) : PackagesAgree known f where
  unbound r hr _ _ t ht := (hleads t).mpr ⟨r, hr, ht⟩
  module r hr hdots b hb t hmodule := by
    have hpackage : ofPackage? known (Path.normalized f.path) r.1 b = some t := by
      rw [ofPackage?, hmodule]
      rfl
    exact (htakes t b.name).mp (Or.inr ⟨r, hr, hdots, b, hb, hpackage, rfl⟩)
  package r hr _ b hb _ t ht := (htakes t b.name).mpr ⟨r, hr, ht, b, hb, rfl⟩

/-! ## 3. Edges -/

section Distinct

variable (hd : (files.map fun f => Path.normalized f.path).Nodup)

include hd

theorem joins_path_iff (hf : f ∈ files) (hg : g ∈ files) :
    Joins (dependencies files) f.path g.path ↔
      LeadsTo references (knownPaths files) f (Path.normalized g.path) := by
  rw [joins_dependencies_iff, ← exists_mem_taken_iff]
  simp only [mem_links_path_iff hd hf hg]

theorem mem_names_path_iff (hf : f ∈ files) (hg : g ∈ files) (hmem : d ∈ dependencies files)
    (hsource : d.source = f.path) (htarget : d.target = g.path) :
    n ∈ d.names ↔ Takes references (knownPaths files) f (Path.normalized g.path) n := by
  rw [mem_names_iff hmem, hsource, htarget, ← exists_mem_taken_mem_iff]
  simp only [mem_links_path_iff hd hf hg]

/-- **The edges of a file follow its specifiers exactly if both rules agree for it.** -/
theorem followsSpecifiers_iff_packagesAgree (hf : f ∈ files) :
    FollowsSpecifiers files (dependencies files) f ↔ PackagesAgree (knownPaths files) f := by
  constructor
  · intro h
    have hleads : ∀ t, LeadsTo references (knownPaths files) f t ↔
        Specifies (knownPaths files) f t := by
      intro t
      by_cases hknown : t ∈ knownPaths files
      · obtain ⟨g, hg, rfl⟩ := List.mem_map.mp hknown
        rw [← joins_path_iff hd hf hg, h.joins_iff g hg]
      · exact iff_of_false (fun hl => hknown (mem_of_leadsTo hl))
          (fun hs => hknown (mem_of_specifies hs))
    refine packagesAgree_of_forall_iff hleads fun t n => ?_
    by_cases hled : LeadsTo references (knownPaths files) f t
    · -- the edge to this file carries the names
      obtain ⟨g, hg, rfl⟩ := List.mem_map.mp (mem_of_leadsTo hled)
      obtain ⟨d, hmem, hsource, htarget⟩ := (joins_path_iff hd hf hg).mpr hled
      rw [← mem_names_path_iff hd hf hg hmem hsource htarget,
        h.mem_names_iff g hg d hmem hsource htarget]
    · exact iff_of_false (fun ht => hled (leadsTo_of_takes ht))
        (fun hb => hled ((hleads t).mpr (specifies_of_binds hb)))
  · intro h
    refine ⟨fun g hg => ?_, fun g hg d hmem hsource htarget n => ?_⟩
    · rw [joins_path_iff hd hf hg, h.leadsTo_iff]
    · rw [mem_names_path_iff hd hf hg hmem hsource htarget, h.takes_iff]

/-- **The edges of the ECMAScript files follow their specifiers alone exactly if** the names of
packages never lead away from them, and no package is imported without names, unless another
reference makes up for it. -/
theorem edges_followSpecifiers_iff :
    (∀ f ∈ files, f.language.isEcmaScript → FollowsSpecifiers files (dependencies files) f) ↔
      ∀ f ∈ files, f.language.isEcmaScript → PackagesAgree (knownPaths files) f := by
  constructor
  · intro h f hf hlanguage
    exact (followsSpecifiers_iff_packagesAgree hd hf).mp (h f hf hlanguage)
  · intro h f hf hlanguage
    exact (followsSpecifiers_iff_packagesAgree hd hf).mpr (h f hf hlanguage)

end Distinct

/-- A file that imports the index of its directory, with the names given. -/
def importingIndex (path : String) (names : List String) : FileFacts :=
  { FileFacts.empty path .typescript with imports := [⟨".", names.map Binding.named, default⟩] }

/-- A file that binds the name of its neighbour from the index of their directory, and one that
takes no names from this index. -/
def besideIndex : List FileFacts :=
  [importingIndex "src/app.ts" ["user"], importingIndex "src/boot.ts" [],
    .empty "src/index.ts" .typescript, .empty "src/user.ts" .typescript]

/-- The edges of files that import the index of their directory. -/
theorem edges_followSpecifiers_iff_besideIndex :
    (besideIndex.map fun f => Path.normalized f.path).Nodup ∧
      ((∀ f ∈ besideIndex, f.language.isEcmaScript →
          FollowsSpecifiers besideIndex (dependencies besideIndex) f) ↔
        ∀ f ∈ besideIndex, f.language.isEcmaScript → PackagesAgree (knownPaths besideIndex) f) :=
  ⟨by decide, edges_followSpecifiers_iff (by decide)⟩

/-- **Edges do not follow from specifiers alone**: no edge leads to an index from which one file
binds the name of its neighbour and another file nothing. -/
theorem not_followsSpecifiers_besideIndex :
    (besideIndex.map fun f => Path.normalized f.path).Nodup ∧
      ¬ ∀ f ∈ besideIndex, f.language.isEcmaScript →
        FollowsSpecifiers besideIndex (dependencies besideIndex) f := by
  refine ⟨by decide, fun h => ?_⟩
  have hfollows := h (importingIndex "src/app.ts" ["user"]) List.mem_cons_self rfl
  have hspecifies : Specifies (knownPaths besideIndex) (importingIndex "src/app.ts" ["user"])
      "src/index.ts" := ⟨(".", [.named "user"]), List.mem_cons_self, by decide⟩
  have hindex : FileFacts.empty "src/index.ts" .typescript ∈ besideIndex := by simp [besideIndex]
  obtain ⟨d, hd, -, htarget⟩ := (hfollows.joins_iff _ hindex).mpr hspecifies
  have hedges : dependencies besideIndex = [⟨"src/app.ts", "src/user.ts", ["user"]⟩] := by
    decide +kernel
  rw [hedges, List.mem_singleton] at hd
  subst hd
  exact absurd htarget (by decide)

end Codemap.Imports
