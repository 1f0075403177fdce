/-
# The edges follow the imports

Normal forms meet spelled paths here.  A reference is resolved among normal forms, and the file
found is then spoken of by the path under which it was given, so every edge joins two files as they
are spelled (`source_mem_files`, `target_mem_files`).  The names on an edge are gathered from all
references of its source that lead to its target (`mem_names_iff`).

Where normal forms are distinct, a path belongs to one file and the spelling of its normal form is
the path itself.  The edges can then be read off the references (`FollowsReferences`,
`dependencies_followsReferences`).  A specifier of dots only stands for a package, and each name
that is bound to it may be a module of its own; this holds for re-exports as for imports, so to
take such names from imports alone misses edges (`not_followsReferences_imports`).
-/
import Codemap.Proofs.Imports.Cycles

namespace Codemap.Imports

open Codemap.Order

variable {files : List FileFacts} {f g : FileFacts} {a b n t source specifier : String}
  {known names : List String} {bindings : List Binding} {d : Dependency}

/-! ## 1. What a reference leads to -/

/-- A specifier that consists of dots only. -/
def IsDots (specifier : String) : Prop := specifier ≠ "" ∧ ∀ c ∈ specifier.toList, c = '.'

/-- What a name bound to a package stands for: the module of that name, or else the package. -/
def ofPackage? (known : List String) (source specifier : String) (b : Binding) : Option String :=
  (resolve? source (specifier ++ b.name) known).or (resolve? source specifier known)

theorem isBare_iff : isBare specifier ↔ IsDots specifier := by
  simp [isBare, IsDots]

theorem mem_targets_iff : (t, names) ∈ targets known source specifier bindings ↔
    (¬ IsDots specifier ∧ resolve? source specifier known = some t ∧
      names = bindings.map (·.name)) ∨
    (IsDots specifier ∧ ∃ b ∈ bindings, ofPackage? known source specifier b = some t ∧
      names = [b.name]) := by
  by_cases h : IsDots specifier
  · have hbare : isBare specifier := isBare_iff.mpr h
    simp [targets, hbare, h, ofPackage?, eq_comm]
  · have hbare : isBare specifier = false := by simpa [← isBare_iff] using h
    simp [targets, hbare, h, eq_comm]

theorem mem_taken_iff : (t, names) ∈ taken known f ↔
    (∃ r ∈ references f, ¬ IsDots r.1 ∧ resolve? (Path.normalized f.path) r.1 known = some t ∧
      names = r.2.map (·.name)) ∨
    ∃ r ∈ references f, IsDots r.1 ∧ ∃ b ∈ r.2,
      ofPackage? known (Path.normalized f.path) r.1 b = some t ∧ names = [b.name] := by
  rw [taken, List.mem_flatMap, ← exists_or]
  simp only [mem_targets_iff, and_or_left]

/-! ## 2. Known files and their spelling -/

theorem mem_of_resolve? (h : resolve? source specifier known = some t) : t ∈ known := by
  rw [resolve?] at h
  split at h
  · exact List.contains_iff_mem.mp (List.find?_some h)
  · exact absurd h.symm (Option.some_ne_none t)

/-- A file takes names from known files only. -/
theorem mem_of_mem_taken (h : (t, names) ∈ taken known f) : t ∈ known := by
  rcases mem_taken_iff.mp h with ⟨r, -, -, ht, -⟩ | ⟨r, -, -, b, -, ht, -⟩
  · exact mem_of_resolve? ht
  · rcases Option.or_eq_some_iff.mp ht with ht | ⟨-, ht⟩
    · exact mem_of_resolve? ht
    · exact mem_of_resolve? ht

/-- The normal forms of the paths of files. -/
def knownPaths (files : List FileFacts) : List String := files.map fun f => Path.normalized f.path

/-- A known normal form is spelled as the path of a file with this normal form. -/
theorem exists_spelling_eq (h : a ∈ knownPaths files) :
    ∃ g ∈ files, Path.normalized g.path = a ∧ spelling files a = g.path := by
  rw [spelling]
  split
  next g hg =>
    have hnormal := List.find?_some hg
    exact ⟨g, List.mem_reverse.mp (List.mem_of_find?_eq_some hg), beq_iff_eq.mp hnormal, rfl⟩
  next hnone =>
    obtain ⟨g, hg, rfl⟩ := List.mem_map.mp h
    exact absurd (beq_self_eq_true _) (List.find?_eq_none.mp hnone g (List.mem_reverse.mpr hg))

/-! ## 3. Links and edges -/

/-- What every file takes, with the ends as they are spelled. -/
def links (files : List FileFacts) : List ((String × String) × List String) :=
  files.flatMap fun f =>
    (taken (knownPaths files) f).map fun (target, names) =>
      ((f.path, spelling files target), names)

theorem mem_links_iff : ((a, b), names) ∈ links files ↔
    ∃ f ∈ files, f.path = a ∧
      ∃ t, (t, names) ∈ taken (knownPaths files) f ∧ spelling files t = b := by
  rw [links, List.mem_flatMap]
  refine exists_congr fun f => and_congr_right fun _ => ?_
  simp only [List.mem_map, Prod.mk.injEq, Prod.exists]
  constructor
  · rintro ⟨t, names, htaken, ⟨ha, hb⟩, rfl⟩
    exact ⟨ha, t, htaken, hb⟩
  · rintro ⟨ha, t, htaken, hb⟩
    exact ⟨t, names, htaken, ⟨ha, hb⟩, rfl⟩

/-- There is one edge for each pair of ends of a link, and it carries the names of all links
between them. -/
theorem mem_dependencies_iff : d ∈ dependencies files ↔
    (∃ names, ((d.source, d.target), names) ∈ links files) ∧
      d.names =
        ascending (((links files).filter fun l => l.1 == (d.source, d.target)).flatMap (·.2)) := by
  show d ∈ edges (links files) ↔ _
  rw [edges, List.mem_map]
  constructor
  · rintro ⟨ends, hends, rfl⟩
    obtain ⟨l, hl, rfl⟩ := List.mem_map.mp ((mem_ascendingBy strictOrder_pairBefore).mp hends)
    exact ⟨⟨l.2, hl⟩, rfl⟩
  · rintro ⟨⟨names, hlink⟩, hnames⟩
    refine ⟨(d.source, d.target), ?_, ?_⟩
    · exact (mem_ascendingBy strictOrder_pairBefore).mpr (List.mem_map_of_mem (f := (·.1)) hlink)
    · rw [← hnames]

/-- The names of all links between two ends. -/
theorem mem_flatMap_links_iff {ends : String × String} :
    n ∈ ((links files).filter fun l => l.1 == ends).flatMap (·.2) ↔
      ∃ names, (ends, names) ∈ links files ∧ n ∈ names := by
  simp only [List.mem_flatMap, List.mem_filter, beq_iff_eq]
  constructor
  · rintro ⟨l, ⟨hl, hends⟩, hn⟩
    exact ⟨l.2, hends ▸ hl, hn⟩
  · rintro ⟨names, hl, hn⟩
    exact ⟨_, ⟨hl, rfl⟩, hn⟩

/-- **The names on an edge are those of all links between its ends.** -/
theorem mem_names_iff (hd : d ∈ dependencies files) :
    n ∈ d.names ↔ ∃ names, ((d.source, d.target), names) ∈ links files ∧ n ∈ names := by
  rw [(mem_dependencies_iff.mp hd).2, mem_ascending, mem_flatMap_links_iff]

theorem joins_dependencies_iff :
    Joins (dependencies files) a b ↔ ∃ names, ((a, b), names) ∈ links files := by
  constructor
  · rintro ⟨d, hd, rfl, rfl⟩
    exact (mem_dependencies_iff.mp hd).1
  · intro h
    refine ⟨⟨a, b, ?_⟩, mem_dependencies_iff.mpr ⟨h, ?_⟩, rfl, rfl⟩
    · exact ascending (((links files).filter fun l => l.1 == (a, b)).flatMap (·.2))
    · rfl

theorem source_mem_files (hd : d ∈ dependencies files) : d.source ∈ files.map (·.path) := by
  obtain ⟨⟨names, hlink⟩, -⟩ := mem_dependencies_iff.mp hd
  obtain ⟨f, hf, hpath, -⟩ := mem_links_iff.mp hlink
  exact hpath ▸ List.mem_map_of_mem hf

theorem target_mem_files (hd : d ∈ dependencies files) : d.target ∈ files.map (·.path) := by
  obtain ⟨⟨names, hlink⟩, -⟩ := mem_dependencies_iff.mp hd
  obtain ⟨f, -, -, t, htaken, hspelled⟩ := mem_links_iff.mp hlink
  obtain ⟨g, hg, -, hspelling⟩ := exists_spelling_eq (mem_of_mem_taken htaken)
  rw [← hspelled, hspelling]
  exact List.mem_map_of_mem hg

/-- Edges strictly ascend by their ends. -/
theorem pairwise_dependencies (files : List FileFacts) :
    (dependencies files).Pairwise fun d e =>
      d.source < e.source ∨ (d.source = e.source ∧ d.target < e.target) := by
  show (edges (links files)).Pairwise _
  rw [edges, List.pairwise_map]
  exact (pairwise_ascendingBy strictOrder_pairBefore _).imp pairBefore_iff.mp

theorem nodup_dependencies (files : List FileFacts) : (dependencies files).Nodup := by
  refine (pairwise_dependencies files).imp fun hlt heq => ?_
  subst heq
  rcases hlt with hlt | ⟨-, hlt⟩ <;> exact absurd hlt (String.lt_irrefl _)

/-! ## 4. Edges and references -/

/-- What the file `f` leads to, where the names of `packaged f` may be modules of a package: what a
specifier names that is not all dots, or what such a name stands for. -/
def LeadsTo (packaged : FileFacts → List (String × List Binding)) (known : List String)
    (f : FileFacts) (t : String) : Prop :=
  (∃ r ∈ references f, ¬ IsDots r.1 ∧ resolve? (Path.normalized f.path) r.1 known = some t) ∨
    ∃ r ∈ packaged f, IsDots r.1 ∧
      ∃ b ∈ r.2, ofPackage? known (Path.normalized f.path) r.1 b = some t

/-- The file `f` binds the name `n` by one of the references that lead to `t`. -/
def Takes (packaged : FileFacts → List (String × List Binding)) (known : List String)
    (f : FileFacts) (t n : String) : Prop :=
  (∃ r ∈ references f, ¬ IsDots r.1 ∧ resolve? (Path.normalized f.path) r.1 known = some t ∧
      ∃ b ∈ r.2, b.name = n) ∨
    ∃ r ∈ packaged f, IsDots r.1 ∧
      ∃ b ∈ r.2, ofPackage? known (Path.normalized f.path) r.1 b = some t ∧ b.name = n

/-- Names bound to a package are modules of it: in Python, and wherever no specifier is all dots. -/
def NamesModules (f : FileFacts) : Prop :=
  f.language = .python ∨ ∀ r ∈ references f, ¬ IsDots r.1

/-- Edges that ascend, join files as they are spelled and are read off the references of files,
where names bound to a package are those of `packaged`. -/
structure FollowsReferences (packaged : FileFacts → List (String × List Binding))
    (files : List FileFacts) (ds : List Dependency) : Prop where
  ascending : ds.Pairwise fun d e =>
    d.source < e.source ∨ (d.source = e.source ∧ d.target < e.target)
  source_mem : ∀ d ∈ ds, d.source ∈ files.map (·.path)
  target_mem : ∀ d ∈ ds, d.target ∈ files.map (·.path)
  names_ascending : ∀ d ∈ ds, d.names.Pairwise (· < ·)
  joins_iff : ∀ f ∈ files, NamesModules f → ∀ g ∈ files,
    Joins ds f.path g.path ↔ LeadsTo packaged (knownPaths files) f (Path.normalized g.path)
  mem_names_iff : ∀ f ∈ files, NamesModules f → ∀ g ∈ files, ∀ d ∈ ds, d.source = f.path →
    d.target = g.path → ∀ n,
      n ∈ d.names ↔ Takes packaged (knownPaths files) f (Path.normalized g.path) n

/-- A file leads to what it takes names from. -/
theorem exists_mem_taken_iff :
    (∃ names, (t, names) ∈ taken known f) ↔ LeadsTo references known f t := by
  simp only [mem_taken_iff, LeadsTo]
  constructor
  · rintro ⟨names, ⟨r, hr, hdots, ht, -⟩ | ⟨r, hr, hdots, b, hb, ht, -⟩⟩
    · exact Or.inl ⟨r, hr, hdots, ht⟩
    · exact Or.inr ⟨r, hr, hdots, b, hb, ht⟩
  · rintro (⟨r, hr, hdots, ht⟩ | ⟨r, hr, hdots, b, hb, ht⟩)
    · exact ⟨_, Or.inl ⟨r, hr, hdots, ht, rfl⟩⟩
    · exact ⟨_, Or.inr ⟨r, hr, hdots, b, hb, ht, rfl⟩⟩

theorem exists_mem_taken_mem_iff :
    (∃ names, (t, names) ∈ taken known f ∧ n ∈ names) ↔ Takes references known f t n := by
  simp only [mem_taken_iff, Takes]
  constructor
  · rintro ⟨names, ⟨r, hr, hdots, ht, rfl⟩ | ⟨r, hr, hdots, b, hb, ht, rfl⟩, hn⟩
    · exact Or.inl ⟨r, hr, hdots, ht, List.mem_map.mp hn⟩
    · exact Or.inr ⟨r, hr, hdots, b, hb, ht, (List.mem_singleton.mp hn).symm⟩
  · rintro (⟨r, hr, hdots, ht, hn⟩ | ⟨r, hr, hdots, b, hb, ht, rfl⟩)
    · exact ⟨_, Or.inl ⟨r, hr, hdots, ht, rfl⟩, List.mem_map.mpr hn⟩
    · exact ⟨_, Or.inr ⟨r, hr, hdots, b, hb, ht, rfl⟩, List.mem_singleton_self _⟩

section Distinct

variable (hd : (files.map fun f => Path.normalized f.path).Nodup)

include hd

/-- Files with distinct normal forms are told apart by them. -/
theorem eq_of_normalized_eq (hf : f ∈ files) (hg : g ∈ files)
    (h : Path.normalized f.path = Path.normalized g.path) : f = g :=
  List.inj_on_of_nodup_map hd hf hg h

/-- The normal form of a file is spelled as the file is. -/
theorem spelling_normalized (hg : g ∈ files) :
    spelling files (Path.normalized g.path) = g.path := by
  have hknown : Path.normalized g.path ∈ knownPaths files := List.mem_map_of_mem hg
  obtain ⟨h, hh, hnormal, hspelling⟩ := exists_spelling_eq hknown
  rw [hspelling, eq_of_normalized_eq hd hh hg hnormal]

/-- The links between two files are what the one takes from the other. -/
theorem mem_links_path_iff (hf : f ∈ files) (hg : g ∈ files) :
    ((f.path, g.path), names) ∈ links files ↔
      (Path.normalized g.path, names) ∈ taken (knownPaths files) f := by
  rw [mem_links_iff]
  constructor
  · rintro ⟨e, he, hpath, t, htaken, hspelling⟩
    obtain rfl : e = f := eq_of_normalized_eq hd he hf (congrArg Path.normalized hpath)
    obtain ⟨h, -, hnormal, hspelled⟩ := exists_spelling_eq (mem_of_mem_taken htaken)
    rw [← hspelling, hspelled, hnormal]
    exact htaken
  · intro htaken
    exact ⟨f, hf, rfl, Path.normalized g.path, htaken, spelling_normalized hd hg⟩

/-- **The edges follow the references of all files.** -/
theorem dependencies_followsReferences :
    FollowsReferences references files (dependencies files) where
  ascending := pairwise_dependencies files
  source_mem d hmem := source_mem_files hmem
  target_mem d hmem := target_mem_files hmem
  names_ascending d hmem := by
    rw [(mem_dependencies_iff.mp hmem).2]
    exact pairwise_ascending _
  joins_iff f hf _ g hg := by
    rw [joins_dependencies_iff, ← exists_mem_taken_iff]
    simp only [mem_links_path_iff hd hf hg]
  mem_names_iff f hf _ g hg d hmem hsource htarget n := by
    rw [Imports.mem_names_iff hmem, hsource, htarget, ← exists_mem_taken_mem_iff]
    simp only [mem_links_path_iff hd hf hg]

end Distinct

/-- A Python package: a file imports names from the package itself and from one of its modules. -/
def package : List FileFacts :=
  let takes (specifier : String) (names : List String) : Import :=
    ⟨specifier, names.map Binding.named, default⟩
  [{ FileFacts.empty "app/main.py" .python with
      imports := [takes "." ["models", "settings"], takes ".service" ["run"]] },
    .empty "app/__init__.py" .python, .empty "./app/models.py" .python,
    .empty "app/service.py" .python]

/-- The edges of a package with a module that is named through the package. -/
theorem dependencies_followsReferences_package :
    (package.map fun f => Path.normalized f.path).Nodup ∧
      FollowsReferences references package (dependencies package) :=
  ⟨by decide, dependencies_followsReferences (by decide)⟩

example : dependencies package =
    [⟨"app/main.py", "./app/models.py", ["models"]⟩,
      ⟨"app/main.py", "app/__init__.py", ["settings"]⟩,
      ⟨"app/main.py", "app/service.py", ["run"]⟩] := by decide +kernel

/-- The imports of a file, without its re-exports. -/
def importReferences (f : FileFacts) : List (String × List Binding) :=
  f.imports.map fun i => (i.source, i.bindings)

/-- The root of a Python package that exports a name bound to the package. -/
def reexportingRoot : FileFacts :=
  { FileFacts.empty "app/__init__.py" .python with
    exports := [⟨some ".", [.named "models"], default⟩] }

/-- A Python package with a root that exports one of its modules. -/
def reexporting : List FileFacts := [reexportingRoot, .empty "app/models.py" .python]

/-- **Edges do not follow from imports alone**: where a re-export binds a name to a package, an
edge leads to the module of that name. -/
theorem not_followsReferences_imports :
    (reexporting.map fun f => Path.normalized f.path).Nodup ∧
      ¬ FollowsReferences importReferences reexporting (dependencies reexporting) := by
  refine ⟨by decide, fun h => ?_⟩
  have hiff := h.joins_iff reexportingRoot List.mem_cons_self (Or.inl rfl)
    (.empty "app/models.py" .python) (List.mem_cons_of_mem _ List.mem_cons_self)
  have hjoins : Joins (dependencies reexporting) reexportingRoot.path "app/models.py" :=
    ⟨⟨"app/__init__.py", "app/models.py", ["models"]⟩, by decide, rfl, rfl⟩
  rcases hiff.mp hjoins with ⟨r, hr, hdots, -⟩ | ⟨r, hr, -⟩
  · -- the only reference is all dots
    obtain rfl : r = (".", [.named "models"]) := List.mem_singleton.mp hr
    exact hdots (by simp [IsDots])
  · exact absurd hr List.not_mem_nil

end Codemap.Imports
