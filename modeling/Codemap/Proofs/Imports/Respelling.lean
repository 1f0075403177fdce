/-
# The graph of imports does not depend on how paths are spelled

Files are told apart by the normal forms of their paths, and references are resolved among normal
forms; the spelling of a path only returns as the name that an edge or an entry point gives to its
file.  So where files are given again under other spellings, with the same normal forms and
references (`Respells`), a file takes the same names from the same normal forms (`taken_eq`), and
the links between two files are the links between their spellings (`mem_links_respelled_iff`).

Main statement: `dependencies_respelled`.  The edges and the entry points are those of before under
the new spellings, and the old spellings are found back in the same way.
-/
import Codemap.Proofs.Imports.EntryPoints
import Mathlib.Data.List.Forall2

namespace Codemap.Imports

open Codemap.Order

/-! ## 1. Other spellings -/

/-- The file `g` is the file `f` under a path with the same normal form: it refers to what `f`
refers to. -/
structure Respells (f g : FileFacts) : Prop where
  normalized : Path.normalized g.path = Path.normalized f.path
  references : references g = references f

/-- The path by which the files given speak of a file that others speak of by the path `p`. -/
def respelled (files : List FileFacts) (p : String) : String := spelling files (Path.normalized p)

/-- An edge between the same files, as the files given speak of them. -/
def respelledEdge (files : List FileFacts) (d : Dependency) : Dependency where
  source := respelled files d.source
  target := respelled files d.target
  names := d.names

variable {files files' : List FileFacts} {f g : FileFacts} {a b p : String}
  {known names : List String} {d : Dependency}

theorem Respells.symm (h : Respells f g) : Respells g f := ⟨h.normalized.symm, h.references.symm⟩

theorem taken_eq (h : Respells f g) : taken known g = taken known f := by
  rw [taken, taken, h.normalized, h.references]

theorem exists_respells_of_mem (h : List.Forall₂ Respells files files') (hf : f ∈ files) :
    ∃ g ∈ files', Respells f g := by
  induction h with
  | nil => exact absurd hf List.not_mem_nil
  | @cons x y _ _ hxy _ ih =>
    rcases List.mem_cons.mp hf with rfl | hf
    · exact ⟨y, List.mem_cons_self, hxy⟩
    · obtain ⟨g, hg, hfg⟩ := ih hf
      exact ⟨g, List.mem_cons_of_mem y hg, hfg⟩

theorem knownPaths_eq (h : List.Forall₂ Respells files files') :
    knownPaths files' = knownPaths files := by
  induction h with
  | nil => rfl
  | cons hxy _ ih => rw [knownPaths, List.map_cons, hxy.normalized, ← knownPaths, ih]; rfl

/-- The new spelling of the path of a file. -/
theorem respelled_path (hd : (knownPaths files').Nodup) (hg : g ∈ files') (h : Respells f g) :
    respelled files' f.path = g.path := by
  rw [respelled, ← h.normalized, spelling_normalized hd hg]

/-! ## 2. Edges under other spellings -/

section Respelled

variable (h : List.Forall₂ Respells files files')
  (hd : (files.map fun f => Path.normalized f.path).Nodup)

include h hd

/-- The paths of the files, one by one, are the new spellings of the old ones. -/
theorem map_path_eq_map_respelled :
    files'.map (·.path) = (files.map (·.path)).map (respelled files') := by
  have hd' : (knownPaths files').Nodup := knownPaths_eq h ▸ hd
  have hall : ∀ {xs ys : List FileFacts}, List.Forall₂ Respells xs ys → ys ⊆ files' →
      ys.map (·.path) = (xs.map (·.path)).map (respelled files') := by
    intro xs ys hxys hsub
    induction hxys with
    | nil => rfl
    | cons hxy _ ih =>
      obtain ⟨hy, hsub⟩ := List.cons_subset.mp hsub
      rw [List.map_cons, List.map_cons, List.map_cons, ih hsub, respelled_path hd' hy hxy]
  exact hall h (List.Subset.refl _)

/-- A file of which the path is spelled again has its first path back. -/
theorem respelled_respelled (hp : p ∈ files.map (·.path)) :
    respelled files (respelled files' p) = p := by
  obtain ⟨f, hf, rfl⟩ := List.mem_map.mp hp
  obtain ⟨g, hg, hfg⟩ := exists_respells_of_mem h hf
  rw [respelled_path (knownPaths_eq h ▸ hd) hg hfg, respelled_path hd hf hfg.symm]

/-- **The links between two files are the links between their new spellings.** -/
theorem mem_links_respelled_iff (ha : a ∈ files.map (·.path)) (hb : b ∈ files.map (·.path)) :
    ((respelled files' a, respelled files' b), names) ∈ links files' ↔
      ((a, b), names) ∈ links files := by
  have hknown := knownPaths_eq h
  have hd' : (knownPaths files').Nodup := hknown ▸ hd
  obtain ⟨e, he, rfl⟩ := List.mem_map.mp ha
  obtain ⟨f, hf, rfl⟩ := List.mem_map.mp hb
  obtain ⟨e', he', hee⟩ := exists_respells_of_mem h he
  obtain ⟨f', hf', hff⟩ := exists_respells_of_mem h hf
  rw [respelled_path hd' he' hee, respelled_path hd' hf' hff, mem_links_path_iff hd' he' hf',
    mem_links_path_iff hd he hf, taken_eq hee, hff.normalized, hknown]

/-- An edge is an edge between the new spellings of its ends, with the same names. -/
theorem respelledEdge_mem (hmem : d ∈ dependencies files) :
    respelledEdge files' d ∈ dependencies files' := by
  have hlinks : ∀ {names}, ((respelled files' d.source, respelled files' d.target), names) ∈
      links files' ↔ ((d.source, d.target), names) ∈ links files :=
    mem_links_respelled_iff h hd (source_mem_files hmem) (target_mem_files hmem)
  obtain ⟨⟨names, hlink⟩, hnames⟩ := mem_dependencies_iff.mp hmem
  refine mem_dependencies_iff.mpr ⟨⟨names, hlinks.mpr hlink⟩, ?_⟩
  refine hnames.trans (ascending_congr fun n => ?_)
  rw [mem_flatMap_links_iff, mem_flatMap_links_iff]
  exact exists_congr fun names => and_congr_left fun _ => hlinks.symm

theorem respelledEdge_respelledEdge (hmem : d ∈ dependencies files) :
    respelledEdge files (respelledEdge files' d) = d := by
  rw [respelledEdge, respelledEdge, respelled_respelled h hd (source_mem_files hmem),
    respelled_respelled h hd (target_mem_files hmem)]

/-- **The edges are those of before under the new spellings.** -/
theorem dependencies_perm_map_respelledEdge :
    (dependencies files').Perm ((dependencies files).map (respelledEdge files')) := by
  have hsymm : List.Forall₂ Respells files' files := (h.imp fun _ _ => Respells.symm).flip
  have hd' : (knownPaths files').Nodup := knownPaths_eq h ▸ hd
  refine (List.perm_ext_iff_of_nodup (nodup_dependencies files') ?_).mpr fun d => ?_
  · refine (nodup_dependencies files).map_on fun d hmem e hmem' heq => ?_
    rw [← respelledEdge_respelledEdge h hd hmem, heq, respelledEdge_respelledEdge h hd hmem']
  · rw [List.mem_map]
    constructor
    · intro hmem
      -- the old edge is the new one, spelled as before
      exact ⟨respelledEdge files d, respelledEdge_mem hsymm hd' hmem,
        respelledEdge_respelledEdge hsymm hd' hmem⟩
    · rintro ⟨d, hmem, rfl⟩
      exact respelledEdge_mem h hd hmem

/-- **The entry points are those of before under the new spellings**, in the same order. -/
theorem entryPoints_eq_map_respelled :
    entryPoints files' (dependencies files') =
      (entryPoints files (dependencies files)).map (respelled files') := by
  rw [entryPoints, entryPoints, map_path_eq_map_respelled h hd, List.filter_map]
  refine congrArg _ (List.filter_congr fun p hp => ?_)
  rw [Function.comp_apply, Bool.not_inj_iff, Bool.eq_iff_iff, List.any_eq_true, List.any_eq_true]
  simp only [(dependencies_perm_map_respelledEdge h hd).mem_iff, beq_iff_eq]
  constructor
  · rintro ⟨d', hd', htarget⟩
    obtain ⟨d, hmem, rfl⟩ := List.mem_map.mp hd'
    refine ⟨d, hmem, ?_⟩
    rw [← respelled_respelled h hd (target_mem_files hmem), ← respelled_respelled h hd hp]
    exact congrArg _ htarget
  · rintro ⟨d, hmem, rfl⟩
    exact ⟨_, List.mem_map_of_mem hmem, rfl⟩

/-- **The graph does not depend on how paths are spelled**, as long as their normal forms are
distinct and stay as they are.  To spell the paths again gives each file its new path, and to spell
them as before gives its old one back; the edges, with their names, and the entry points are those
of before under the new spellings. -/
theorem dependencies_respelled :
    files'.map (·.path) = (files.map (·.path)).map (respelled files') ∧
    (∀ p ∈ files.map (·.path), respelled files (respelled files' p) = p) ∧
    (dependencies files').Perm ((dependencies files).map (respelledEdge files')) ∧
    entryPoints files' (dependencies files') =
      (entryPoints files (dependencies files)).map (respelled files') :=
  ⟨map_path_eq_map_respelled h hd, fun _ hp => respelled_respelled h hd hp,
    dependencies_perm_map_respelledEdge h hd, entryPoints_eq_map_respelled h hd⟩

end Respelled

/-- A file that imports two others, under the given paths. -/
def threeFiles (app user lib : String) : List FileFacts :=
  [{ FileFacts.empty app .typescript with
      imports := [⟨"./user", [.named "User"], default⟩, ⟨"../lib", [.named "open"], default⟩] },
    .empty user .typescript, .empty lib .typescript]

/-- Three files under paths in normal form. -/
def plainFiles : List FileFacts := threeFiles "src/app.ts" "src/user.ts" "lib/index.ts"

/-- The same files under paths with backslashes, empty segments and detours. -/
def detouredFiles : List FileFacts :=
  threeFiles ".\\src/app.ts" "src//tmp/../user.ts" "./lib/index.ts"

/-- The edges and the entry point of three files under other spellings. -/
theorem dependencies_respelled_detouredFiles :
    List.Forall₂ Respells plainFiles detouredFiles ∧ (knownPaths plainFiles).Nodup ∧
    detouredFiles.map (·.path) = (plainFiles.map (·.path)).map (respelled detouredFiles) ∧
    (∀ p ∈ plainFiles.map (·.path), respelled plainFiles (respelled detouredFiles p) = p) ∧
    (dependencies detouredFiles).Perm
      ((dependencies plainFiles).map (respelledEdge detouredFiles)) ∧
    entryPoints detouredFiles (dependencies detouredFiles) =
      (entryPoints plainFiles (dependencies plainFiles)).map (respelled detouredFiles) := by
  have h : List.Forall₂ Respells plainFiles detouredFiles :=
    .cons ⟨by decide, rfl⟩ (.cons ⟨by decide, rfl⟩ (.cons ⟨by decide, rfl⟩ .nil))
  have hd : (knownPaths plainFiles).Nodup := by decide
  exact ⟨h, hd, dependencies_respelled h hd⟩

example : dependencies detouredFiles =
    [⟨".\\src/app.ts", "./lib/index.ts", ["open"]⟩,
      ⟨".\\src/app.ts", "src//tmp/../user.ts", ["User"]⟩] := by decide +kernel

end Codemap.Imports
