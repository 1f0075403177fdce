/-
# Which directories are the roots of services

Four rules ask for roots, one after the other, and the first that finds some decides: directories
with manifests that are declared to be services or workspaces; the children of a root without a
manifest that have one, if there are several; in a repository without any manifests the children
that call themselves services, if there are several; and the repository itself.  What each rule
looks for is a set of directories here (`declaredSet`, `childSet`, `namedSet`), and the lists that
are worked with hold the members of these sets.  The lists ascend strictly, so they are as long as
the sets are large (`nontrivial_iff_two_le_length`).

Main statement: `detect_rootPrecedence`.
-/
import Codemap.Proofs.Services.Owner
import Codemap.Proofs.Text.Ends
import Codemap.Proofs.Text.Pieces
import Mathlib.Data.Set.Subsingleton

namespace Codemap.Services

open Codemap.Order Codemap.Text

variable {l : Layout} {files : List FileFacts} {d p t : String}

/-! ## 1. What the rules look for -/

/-- The directories that have manifests. -/
def manifestSet (l : Layout) : Set String := {d | ∃ m ∈ l.manifests, m.directory = d}

/-- Among the segments of a path, but not as the last one, there is the name of a directory that
holds services. -/
def LiesInContainer (d : String) : Prop :=
  ∃ c ∈ ["packages", "services", "apps"], ∃ above below,
    piecesAt '/' d.toList = above ++ c.toList :: below ∧ below ≠ []

/-- A pattern without the copies of `./` before it, and then without the slashes after it. -/
def IsTrimmed (pattern trimmed : String) : Prop :=
  ∃ m n, pattern.toList =
      (List.replicate m ['.', '/']).flatten ++ (trimmed.toList ++ List.replicate n '/') ∧
    ¬ ['.', '/'] <+: trimmed.toList ++ List.replicate n '/' ∧ trimmed.toList.getLast? ≠ some '/'

/-- Some pattern for workspaces can be read, once it is trimmed, and matches a directory. -/
def MatchesWorkspace (l : Layout) (d : String) : Prop :=
  ∃ p ∈ l.workspaces, ∃ t g, IsTrimmed p t ∧ Glob.parse? t = some g ∧ g.isMatch d

/-- A name that says that a directory is a service. -/
def IsServiceName (d : String) : Prop :=
  "-service".toList <:+ d.toList ∨ "_service".toList <:+ d.toList

/-- The directories with manifests, other than the root, that lie in a directory that holds
services or are matched by a pattern for workspaces. -/
def declaredSet (l : Layout) : Set String :=
  {d ∈ manifestSet l | d ≠ "" ∧ (LiesInContainer d ∨ MatchesWorkspace l d)}

/-- The children of the root that have manifests. -/
def childSet (l : Layout) : Set String := {d ∈ manifestSet l | d ≠ "" ∧ '/' ∉ d.toList}

/-- The children of the root that call themselves services, be they known as directories or from
the paths of files in them. -/
def namedSet (l : Layout) (files : List FileFacts) : Set String :=
  {d | '/' ∉ d.toList ∧ IsServiceName d ∧
    (d ∈ l.directories ∨ ∃ f ∈ files, d.toList ++ ['/'] <+: f.path.toList)}

/-- Roots as the rules ask for them. -/
structure RootPrecedence (l : Layout) (files : List FileFacts) (roots : List String) : Prop where
  ascending : roots.Pairwise (· < ·)
  /-- Directories that are declared to be services or workspaces come first. -/
  declared : (declaredSet l).Nonempty → {r | r ∈ roots} = declaredSet l
  /-- Failing that, the children with manifests are roots, if the root has none and they are
  several. -/
  children : ¬ (declaredSet l).Nonempty → "" ∉ manifestSet l → (childSet l).Nontrivial →
    {r | r ∈ roots} = childSet l
  /-- Without any manifests the children that call themselves services are roots, if they are
  several. -/
  named : manifestSet l = ∅ → (namedSet l files).Nontrivial → {r | r ∈ roots} = namedSet l files
  /-- Failing all that, the repository is the only root. -/
  whole : ¬ (declaredSet l).Nonempty → ¬ ("" ∉ manifestSet l ∧ (childSet l).Nontrivial) →
    ¬ (manifestSet l = ∅ ∧ (namedSet l files).Nontrivial) → roots = [""]
  ne_nil : roots ≠ []
  /-- The repository is a root only if it is the only one. -/
  alone : "" ∈ roots → roots = [""]

/-! ## 2. Members of the lists -/

theorem mem_manifestDirectories : d ∈ l.manifestDirectories ↔ d ∈ manifestSet l := by
  rw [Layout.manifestDirectories, mem_ascending, List.mem_map]
  rfl

theorem hasManifest_iff : l.hasManifest d ↔ d ∈ manifestSet l := by
  simp [Layout.hasManifest, Layout.manifestsIn, manifestSet]

theorem isContained_iff : isContained d ↔ LiesInContainer d := by
  have hmem {s : List Char} : containers.contains (.ofList s) ↔
      ∃ c ∈ ["packages", "services", "apps"], c.toList = s := by
    rw [List.contains_iff_mem, containers]
    exact ⟨fun h => ⟨_, h, String.toList_ofList⟩, fun ⟨c, hc, hs⟩ => by
      rwa [← hs, String.ofList_toList]⟩
  simp only [isContained, List.any_eq_true, hmem, LiesInContainer]
  constructor
  · rintro ⟨s, hs, c, hc, rfl⟩
    -- The name stands among all segments but the last, which is what follows it in the end.
    obtain ⟨above, below, hsplit⟩ := List.append_of_mem hs
    have hne : piecesAt '/' d.toList ≠ [] := fun hnil => by simp [hnil] at hs
    refine ⟨c, hc, above, below ++ [(piecesAt '/' d.toList).getLast hne], ?_, by simp⟩
    rw [← List.cons_append, ← List.append_assoc, ← hsplit, List.dropLast_concat_getLast]
  · rintro ⟨c, hc, above, below, hsplit, hne⟩
    refine ⟨c.toList, ?_, c, hc, rfl⟩
    rw [hsplit, List.dropLast_append_of_ne_nil (List.cons_ne_nil _ _),
      List.dropLast_cons_of_ne_nil hne]
    simp

theorem workspacePattern_eq_iff : workspacePattern p = t ↔ IsTrimmed p t := by
  rw [workspacePattern, ← String.toList_inj, String.toList_ofList, dropEndWhile_eq_iff]
  constructor
  · rintro ⟨n, hstart, hlast⟩
    obtain ⟨m, hp, hno⟩ := (dropCopiesStart_eq_iff (by simp)).mp hstart
    exact ⟨m, n, hp, hno, hlast⟩
  · rintro ⟨m, n, hp, hno, hlast⟩
    exact ⟨n, (dropCopiesStart_eq_iff (by simp)).mpr ⟨m, hp, hno⟩, hlast⟩

theorem any_isMatch_iff :
    ((workspaceGlobs l).any fun g => g.isMatch d) ↔ MatchesWorkspace l d := by
  simp only [workspaceGlobs, List.any_eq_true, List.mem_filterMap, MatchesWorkspace,
    ← workspacePattern_eq_iff]
  constructor
  · rintro ⟨g, ⟨p, hp, hg⟩, hd⟩
    exact ⟨p, hp, _, g, rfl, hg, hd⟩
  · rintro ⟨p, hp, _, g, rfl, hg, hd⟩
    exact ⟨g, ⟨p, hp, hg⟩, hd⟩

theorem isNamedService_iff : isNamedService d ↔ IsServiceName d := by
  simp [isNamedService, IsServiceName, List.isSuffixOf_iff_suffix]

/-- The first segment of a path that has several is what stands before its first slash. -/
theorem topSegment?_eq_some_iff :
    topSegment? p = some d ↔ '/' ∉ d.toList ∧ d.toList ++ ['/'] <+: p.toList := by
  rw [topSegment?, Option.map_eq_some_iff]
  constructor
  · rintro ⟨⟨a, b⟩, hcut, rfl⟩
    obtain ⟨hp, ha⟩ := cutFirst_eq_some_iff.mp hcut
    rw [String.toList_ofList]
    exact ⟨ha, b, by rw [hp, List.append_assoc, List.singleton_append]⟩
  · rintro ⟨hd, b, hp⟩
    refine ⟨(d.toList, b), cutFirst_eq_some_iff.mpr ⟨?_, hd⟩, String.ofList_toList⟩
    rw [← hp, List.append_assoc, List.singleton_append]

theorem mem_declaredRoots : d ∈ declaredRoots l ↔ d ∈ declaredSet l := by
  rw [declaredRoots, List.mem_filter, mem_manifestDirectories, Bool.and_eq_true, Bool.or_eq_true,
    isContained_iff, any_isMatch_iff, declaredSet, Set.mem_sep_iff]
  simp

theorem mem_topLevel : d ∈ l.manifestDirectories.filter isTopLevel ↔ d ∈ childSet l := by
  rw [List.mem_filter, mem_manifestDirectories, childSet, Set.mem_sep_iff]
  simp [isTopLevel]

theorem mem_namedServices : d ∈ namedServices l files ↔ d ∈ namedSet l files := by
  rw [namedServices, mem_ascending, List.mem_append, List.mem_filter, List.mem_filter,
    List.mem_filterMap, Bool.and_eq_true, isNamedService_iff]
  simp only [topSegment?_eq_some_iff]
  constructor
  · rintro (⟨hd, hslash, hname⟩ | ⟨⟨f, hf, hslash, hpath⟩, hname⟩)
    · exact ⟨by simpa using hslash, hname, Or.inl hd⟩
    · exact ⟨hslash, hname, Or.inr ⟨f, hf, hpath⟩⟩
  · rintro ⟨hslash, hname, hd | ⟨f, hf, hpath⟩⟩
    · exact Or.inl ⟨hd, by simpa using hslash, hname⟩
    · exact Or.inr ⟨⟨f, hf, hslash, hpath⟩, hname⟩

/-! ## 3. Several of them -/

/-- A strictly ascending list holds two different items if it has two at all. -/
theorem nontrivial_iff_two_le_length {xs : List String} (h : xs.Pairwise (· < ·)) :
    {x | x ∈ xs}.Nontrivial ↔ 2 ≤ xs.length := by
  cases xs with
  | nil => simp
  | cons a xs =>
    cases xs with
    | nil => simp
    | cons b xs =>
      have hab : a < b := (List.pairwise_cons.mp h).1 b List.mem_cons_self
      refine iff_of_true ⟨a, by simp, b, by simp, fun hEq => ?_⟩ (by simp)
      exact String.lt_irrefl b (hEq ▸ hab)

theorem several_of_nontrivial {xs : List String} (h : xs.Pairwise (· < ·))
    (hn : {x | x ∈ xs}.Nontrivial) : several xs = xs :=
  if_pos ((nontrivial_iff_two_le_length h).mp hn)

theorem several_of_not_nontrivial {xs : List String} (h : xs.Pairwise (· < ·))
    (hn : ¬ {x | x ∈ xs}.Nontrivial) : several xs = [] :=
  if_neg (mt (nontrivial_iff_two_le_length h).mpr hn)

@[simp] theorem firstOf_nil_cons (more : List (List String)) :
    firstOf ([] :: more) = firstOf more := rfl

theorem firstOf_cons_of_ne_nil {xs : List String} (h : xs ≠ []) (more : List (List String)) :
    firstOf (xs :: more) = xs := by
  rw [firstOf, if_neg (mt List.isEmpty_iff.mp h)]

theorem ne_nil_iff_nonempty {xs : List String} : xs ≠ [] ↔ {x | x ∈ xs}.Nonempty :=
  ⟨List.exists_mem_of_ne_nil xs, fun ⟨_, hx⟩ => List.ne_nil_of_mem hx⟩

/-! ## 4. The rules one by one -/

theorem setOf_mem_declaredRoots : {r | r ∈ declaredRoots l} = declaredSet l :=
  Set.ext fun _ => mem_declaredRoots

theorem setOf_mem_topLevel : {r | r ∈ l.manifestDirectories.filter isTopLevel} = childSet l :=
  Set.ext fun _ => mem_topLevel

theorem setOf_mem_namedServices : {r | r ∈ namedServices l files} = namedSet l files :=
  Set.ext fun _ => mem_namedServices

theorem pairwise_topLevel : (l.manifestDirectories.filter isTopLevel).Pairwise (· < ·) :=
  (pairwise_ascending _).sublist List.filter_sublist

theorem declaredRoots_ne_nil_iff : declaredRoots l ≠ [] ↔ (declaredSet l).Nonempty := by
  rw [ne_nil_iff_nonempty, setOf_mem_declaredRoots]

theorem isEmpty_manifestDirectories_iff :
    l.manifestDirectories.isEmpty ↔ manifestSet l = ∅ := by
  rw [List.isEmpty_iff, List.eq_nil_iff_forall_not_mem, Set.eq_empty_iff_forall_notMem]
  exact forall_congr' fun _ => not_congr mem_manifestDirectories

/-- What the second rule finds. -/
theorem childRoots_eq (hroot : "" ∉ manifestSet l) (hn : (childSet l).Nontrivial) :
    (if l.hasManifest "" then [] else several (l.manifestDirectories.filter isTopLevel)) =
      l.manifestDirectories.filter isTopLevel := by
  rw [if_neg (mt hasManifest_iff.mp hroot)]
  exact several_of_nontrivial pairwise_topLevel (setOf_mem_topLevel ▸ hn)

theorem childRoots_eq_nil (h : ¬ ("" ∉ manifestSet l ∧ (childSet l).Nontrivial)) :
    (if l.hasManifest "" then [] else several (l.manifestDirectories.filter isTopLevel)) = [] := by
  split
  · rfl
  next hroot =>
    refine several_of_not_nontrivial pairwise_topLevel fun hn => h ⟨?_, ?_⟩
    · exact mt hasManifest_iff.mpr hroot
    · rwa [setOf_mem_topLevel] at hn

/-- What the third rule finds. -/
theorem namedRoots_eq (hnone : manifestSet l = ∅) (hn : (namedSet l files).Nontrivial) :
    (if l.manifestDirectories.isEmpty then several (namedServices l files) else []) =
      namedServices l files := by
  rw [if_pos (isEmpty_manifestDirectories_iff.mpr hnone)]
  exact several_of_nontrivial (pairwise_ascending _) (setOf_mem_namedServices ▸ hn)

theorem namedRoots_eq_nil (h : ¬ (manifestSet l = ∅ ∧ (namedSet l files).Nontrivial)) :
    (if l.manifestDirectories.isEmpty then several (namedServices l files) else []) = [] := by
  split
  next hnone =>
    refine several_of_not_nontrivial (pairwise_ascending _) fun hn => h ⟨?_, ?_⟩
    · exact isEmpty_manifestDirectories_iff.mp hnone
    · rwa [setOf_mem_namedServices] at hn
  · rfl

/-! ## 5. Their order -/

section Order

variable (hd : ¬ (declaredSet l).Nonempty)
include hd

/-- Without declared roots the other rules decide. -/
theorem roots_of_not_declared :
    roots l files = firstOf
      [if l.hasManifest "" then [] else several (l.manifestDirectories.filter isTopLevel),
        if l.manifestDirectories.isEmpty then several (namedServices l files) else [], [""]] := by
  rw [roots, not_not.mp (mt declaredRoots_ne_nil_iff.mp hd), firstOf_nil_cons]

theorem roots_eq_topLevel (hroot : "" ∉ manifestSet l) (hn : (childSet l).Nontrivial) :
    roots l files = l.manifestDirectories.filter isTopLevel := by
  rw [roots_of_not_declared hd, childRoots_eq hroot hn]
  exact firstOf_cons_of_ne_nil (ne_nil_iff_nonempty.mpr (setOf_mem_topLevel ▸ hn.nonempty)) _

theorem roots_eq_whole (hchildren : ¬ ("" ∉ manifestSet l ∧ (childSet l).Nontrivial))
    (hnamed : ¬ (manifestSet l = ∅ ∧ (namedSet l files).Nontrivial)) : roots l files = [""] := by
  rw [roots_of_not_declared hd, childRoots_eq_nil hchildren, namedRoots_eq_nil hnamed]
  rfl

end Order

theorem roots_eq_declaredRoots (hd : (declaredSet l).Nonempty) :
    roots l files = declaredRoots l :=
  firstOf_cons_of_ne_nil (declaredRoots_ne_nil_iff.mpr hd) _

/-- Where nothing has a manifest, neither of the first two rules finds anything. -/
theorem roots_eq_namedServices (hnone : manifestSet l = ∅) (hn : (namedSet l files).Nontrivial) :
    roots l files = namedServices l files := by
  have hd : ¬ (declaredSet l).Nonempty := fun ⟨d, hd⟩ => by simp [declaredSet, hnone] at hd
  have hchildren : ¬ ("" ∉ manifestSet l ∧ (childSet l).Nontrivial) := fun ⟨_, hc⟩ => by
    obtain ⟨d, hd⟩ := hc.nonempty
    simp [childSet, hnone] at hd
  rw [roots_of_not_declared hd, childRoots_eq_nil hchildren, namedRoots_eq hnone hn]
  exact firstOf_cons_of_ne_nil (ne_nil_iff_nonempty.mpr (setOf_mem_namedServices ▸ hn.nonempty)) _

/-- **The repository is a root only if it is the only one**: no other rule looks for it. -/
theorem roots_eq_of_empty_mem (h : "" ∈ roots l files) : roots l files = [""] := by
  by_cases hd : (declaredSet l).Nonempty
  · rw [roots_eq_declaredRoots hd, mem_declaredRoots] at h
    exact absurd rfl h.2.1
  by_cases hchildren : "" ∉ manifestSet l ∧ (childSet l).Nontrivial
  · rw [roots_eq_topLevel hd hchildren.1 hchildren.2, mem_topLevel] at h
    exact absurd rfl h.2.1
  by_cases hnamed : manifestSet l = ∅ ∧ (namedSet l files).Nontrivial
  · rw [roots_eq_namedServices hnamed.1 hnamed.2, mem_namedServices] at h
    exact absurd h.2.1 (by simp [IsServiceName])
  · exact roots_eq_whole hd hchildren hnamed

/-- **Services are rooted where the first rule that finds something says.** -/
theorem detect_rootPrecedence (l : Layout) (files : List FileFacts) :
    RootPrecedence l files ((detect l files).map (·.root)) := by
  rw [map_root_detect]
  exact {
    ascending := pairwise_roots
    declared := fun hd => by rw [roots_eq_declaredRoots hd, setOf_mem_declaredRoots]
    children := fun hd hroot hn => by rw [roots_eq_topLevel hd hroot hn, setOf_mem_topLevel]
    named := fun hnone hn => by rw [roots_eq_namedServices hnone hn, setOf_mem_namedServices]
    whole := roots_eq_whole
    ne_nil := roots_ne_nil
    alone := roots_eq_of_empty_mem }

end Codemap.Services
