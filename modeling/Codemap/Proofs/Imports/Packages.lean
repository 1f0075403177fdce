/-
# Modules and packages

A specifier without slashes is a dotted name: its dots say how far to climb, and its names how to go
down again.  Where the directories of a file are deep enough, the place is the package that is left
after climbing, with the names below it (`place_dotted`).

The files that are tried for a place lie beside it and are named like it (`namesakes`), lie in it
and stand for it (`indexes`), or are the sources of what is named like a compiled file (`sources`).
A module has a name without dots, so the last kind is empty, and the module is the first known file
of the other two (`dotted_resolves`).

The place of a package has all three kinds.  Its namesakes come before its indexes, so a file beside
a package can be taken for it (`not_staysInside_namesake`).  The import of a package stays inside
exactly if no namesake is known, and no source unless an index is (`staysInside_iff`).
-/
import Codemap.Proofs.Imports.Places

namespace Codemap.Imports

open Codemap.Path Codemap.Text

variable {source name : String} {known names : List String} {ss : List Segment} {k : Nat}

/-! ## 1. Dotted names -/

/-- A name that may stand between the dots of a dotted name. -/
def IsModuleName (name : String) : Prop :=
  name ≠ "" ∧ ∀ c ∈ name.toList, c ≠ '.' ∧ c ≠ '/' ∧ c ≠ '\\'

/-- A specifier of dots only. -/
def dots (k : Nat) : String := .ofList (List.replicate k '.')

/-- Dots and after them names, with a dot between each two. -/
def dotted (k : Nat) (names : List String) : String := dots k ++ ".".intercalate names

@[simp] theorem dotted_nil (k : Nat) : dotted k [] = dots k := by simp [dotted]

theorem toList_dotted (k : Nat) (names : List String) :
    (dotted k names).toList = List.replicate k '.' ++ join ['.'] (names.map String.toList) := by
  rw [dotted, dots, String.toList_append, String.toList_ofList, String.toList_intercalate]
  rfl

theorem head?_dotted (hk : 1 ≤ k) : (dotted k names).toList.head? = some '.' := by
  rw [toList_dotted, List.head?_append, List.head?_replicate, if_neg (by omega)]
  rfl

theorem IsModuleName.isProper (h : IsModuleName name) : isProper name.toList := by
  have hempty : name.toList ≠ [] := by simpa using h.1
  have hhere : name.toList ≠ here := fun heq => (h.2 '.' (by simp [heq, here])).1 rfl
  have hup : name.toList ≠ up := fun heq => (h.2 '.' (by simp [heq, up])).1 rfl
  simp [Path.isProper, stays, hempty, hhere, hup]

theorem IsModuleName.plain (h : IsModuleName name) : ∀ c ∈ name.toList, isSeparator c = false := by
  intro c hc
  simp [isSeparator, h.2 c hc]

theorem forall_isProper_of_isModuleName (h : ∀ n ∈ names, IsModuleName n) :
    ∀ s ∈ names.map String.toList, Path.isProper s ∧ ∀ c ∈ s, isSeparator c = false := by
  simpa using fun n hn => And.intro (h n hn).isProper (h n hn).plain

theorem slash_not_mem_join (h : ∀ n ∈ names, IsModuleName n) :
    '/' ∉ join ['.'] (names.map String.toList) := by
  intro hslash
  rcases mem_join hslash with heq | ⟨a, ha, hc⟩
  · exact absurd heq (by decide)
  · obtain ⟨n, hn, rfl⟩ := List.mem_map.mp ha
    exact ((h n hn).2 '/' hc).2.1 rfl

/-- Names do not add to the dots before them. -/
theorem takeWhile_join_eq_nil (h : ∀ n ∈ names, IsModuleName n) :
    (join ['.'] (names.map String.toList)).takeWhile (· == '.') = [] := by
  cases names with
  | nil => rfl
  | cons n names =>
    have hn : IsModuleName n := h n List.mem_cons_self
    cases hchars : n.toList with
    | nil => exact absurd (by simpa using hchars) hn.1
    | cons c cs =>
      have hc : c ≠ '.' := (hn.2 c (by simp [hchars])).1
      cases names <;> simp [join, hchars, hc]

theorem replaceChar_join_names (h : ∀ n ∈ names, IsModuleName n) :
    replaceChar (· == '.') '/' (join ['.'] (names.map String.toList)) =
      ofSegments (names.map String.toList) := by
  refine replaceChar_join rfl '/' fun a ha c hc => ?_
  obtain ⟨n, hn, rfl⟩ := List.mem_map.mp ha
  simpa using ((h n hn).2 c hc).1

theorem way_dotted (h : ∀ n ∈ names, IsModuleName n) : way (dotted k names).toList =
    (if k ≤ 1 then ['.', '/'] else climbs (k - 1)) ++ ofSegments (names.map String.toList) := by
  rw [toList_dotted]
  have hslash : (List.replicate k '.' ++ join ['.'] (names.map String.toList)).contains '/' =
      false := by
    simpa [List.mem_replicate] using slash_not_mem_join h
  have hdots : (List.replicate k '.' ++ join ['.'] (names.map String.toList)).takeWhile (· == '.') =
      List.replicate k '.' := by
    rw [List.takeWhile_append_of_pos (by simp), takeWhile_join_eq_nil h, List.append_nil]
  rw [way, hslash, if_neg Bool.false_ne_true]
  simp only [hdots, List.length_replicate]
  rw [List.drop_left' List.length_replicate, replaceChar_join_names h]
  rfl

/-- The dots of a name climb one level less than they are, and its names are passed. -/
theorem foldl_advance_way_dotted (hk : 1 ≤ k) (h : ∀ n ∈ names, IsModuleName n)
    (passed : List Segment) :
    (segments (way (dotted k names).toList)).foldl advance passed =
      (names.map String.toList).reverse ++ (List.replicate (k - 1) up).foldl advance passed := by
  have hnames := forall_isProper_of_isModuleName h
  rw [way_dotted h]
  split
  next hle =>
    -- one dot stays
    obtain rfl : k = 1 := by omega
    have hhere : ['.', '/'] ++ ofSegments (names.map String.toList) =
        here ++ '/' :: ofSegments (names.map String.toList) := rfl
    rw [hhere, segments_append, List.foldl_append]
    exact foldl_advance_segments_ofSegments hnames passed
  next =>
    rw [foldl_advance_climbs_append]
    exact foldl_advance_segments_ofSegments hnames _

/-- The directories that are left for a file after its imports have climbed by some dots: with one
dot these are its own, and every further dot takes one away. -/
def packageOf (source : String) (k : Nat) : List Segment :=
  (directories source.toList).take ((directories source.toList).length - (k - 1))

section Deep

variable (hs : normalized source = source) (hk : 1 ≤ k)
  (hdeep : k - 1 ≤ (directories source.toList).countP Path.isProper)

include hs

theorem isSettled_packageOf : IsSettled (packageOf source k) := (isSettled_directories hs).take _

include hk hdeep

/-- **A dotted name leads to its names below the package.** -/
theorem place_dotted (h : ∀ n ∈ names, IsModuleName n) :
    place source.toList (dotted k names).toList =
      ofSegments (packageOf source k ++ names.map String.toList) := by
  have hsettled := isSettled_directories hs
  rw [place_eq, foldl_advance_way_dotted hk h, hsettled.foldl_advance, hsettled.climb hdeep,
    List.reverse_append, List.reverse_reverse, List.reverse_reverse, packageOf]

end Deep

/-! ## 2. The files of a place -/

/-- The files beside a place that are named like it: with an extension, and as it is. -/
def namesakes (ss : List Segment) : List String :=
  (extensions ++ [[]]).map fun e => .ofList (ofSegments ss ++ e)

/-- The names of the files that stand for the directory that they lie in. -/
def indexNames : List Segment :=
  extensions.map ("index".toList ++ ·) ++ ["__init__.py".toList]

/-- The files in a place that stand for it: its index, or the root of a package. -/
def indexes (ss : List Segment) : List String :=
  indexNames.map fun name => .ofList (ofSegments (ss ++ [name]))

/-- The sources beside a place that ends like a compiled file. -/
def sources (ss : List Segment) : List String :=
  sourceEndings.filterMap fun ending =>
    (before? ending.1 (ofSegments ss)).map fun stem => .ofList (stem ++ ending.2)

theorem isProper_of_mem_indexNames {name : Segment} (h : name ∈ indexNames) :
    isProper name ∧ ∀ c ∈ name, isSeparator c = false := by
  have hproper : indexNames.all Path.isProper := by decide
  have hplain : indexNames.all (·.all (!isSeparator ·)) := by decide
  simp only [List.all_eq_true, Bool.not_eq_true'] at hproper hplain
  exact ⟨hproper name h, hplain name h⟩

/-- **The files that are tried for a place**, in this order. -/
theorem map_candidates_ofSegments (h : IsSettled ss) :
    (candidates (ofSegments ss)).map String.ofList = namesakes ss ++ indexes ss ++ sources ss := by
  have hindex : ∀ name ∈ indexNames,
      normal (ofSegments ss ++ '/' :: name) = ofSegments (ss ++ [name]) :=
    fun name hname => h.normal_concat (isProper_of_mem_indexNames hname)
  have hindexes : indexes ss =
      (indexNames.map fun name => normal (ofSegments ss ++ '/' :: name)).map String.ofList := by
    rw [indexes, List.map_map]
    exact List.map_congr_left fun name hname => congrArg String.ofList (hindex name hname).symm
  rw [hindexes]
  simp [candidates, namesakes, indexNames, sources, List.map_filterMap, Function.comp_def]

theorem ofSegments_concat (hne : ss ≠ []) (s : Segment) :
    ofSegments (ss ++ [s]) = ofSegments ss ++ '/' :: s := join_concat hne s

/-! ## 3. Modules -/

/-- A name without dots has no ending that stands for another one. -/
theorem sources_concat {s : Segment} (hs : '.' ∉ s) (ss : List Segment) :
    sources (ss ++ [s]) = [] := by
  have hendings : ∀ ending ∈ sourceEndings, '/' ∉ ending.1 ∧ '.' ∈ ending.1 := by decide
  rw [sources, List.filterMap_eq_nil_iff]
  intro ending hending
  obtain ⟨hslash, hdot⟩ := hendings ending hending
  rw [Option.map_eq_none_iff, Option.eq_none_iff_forall_not_mem]
  intro stem hstem
  have hsuffix : ending.1 <:+ ofSegments (ss ++ [s]) := ⟨stem, (before?_eq_some_iff.mp hstem).symm⟩
  have hname : ending.1 <:+ s := by
    by_cases hne : ss = []
    · subst hne
      simpa [ofSegments, join] using hsuffix
    · rwa [ofSegments_concat hne, suffix_append_cons_iff hslash] at hsuffix
  exact hs (hname.subset hdot)

/-- **A relative module is the first known file of its place**, which lies in the package that is
left after climbing, with the names below it: a file with an extension, the place itself, or what
stands for the directory there. -/
theorem dotted_resolves (hs : normalized source = source) (hup : up ∉ directories source.toList)
    (hk : 1 ≤ k) (hdeep : k ≤ (directories source.toList).length + 1) (hne : names ≠ [])
    (hnames : ∀ n ∈ names, IsModuleName n) (known : List String) :
    let ss := packageOf source k ++ names.map String.toList
    resolve? source (dotted k names) known =
      (namesakes ss ++ indexes ss).find? known.contains := by
  intro ss
  have hproper := (isSettled_directories hs).countP_isProper hup
  have hsettled : IsSettled ss :=
    (isSettled_packageOf hs).append (forall_isProper_of_isModuleName hnames)
  have hsources : sources ss = [] := by
    obtain ⟨init, last, rfl⟩ := (List.eq_nil_or_concat' names).resolve_left hne
    have hlast : '.' ∉ last.toList := fun hmem => ((hnames last (by simp)).2 '.' hmem).1 rfl
    have hconcat : ss = (packageOf source k ++ init.map String.toList) ++ [last.toList] := by
      simp [ss]
    rw [hconcat, sources_concat hlast]
  rw [resolve?_eq_find? (head?_dotted hk), place_dotted hs hk (by omega) hnames,
    map_candidates_ofSegments hsettled, hsources, List.append_nil]

/-- A module of the package above, of which the name belongs to a file and to a directory. -/
theorem dotted_resolves_schemas :
    let source := "api/app/routes.py"
    let known := ["api/service/schemas/__init__.py", "api/service/schemas.py"]
    let ss := packageOf source 2 ++ ["service", "schemas"].map String.toList
    normalized source = source ∧ up ∉ directories source.toList ∧
    2 ≤ (directories source.toList).length + 1 ∧
    (∀ n ∈ ["service", "schemas"], IsModuleName n) ∧
    resolve? source (dotted 2 ["service", "schemas"]) known =
      (namesakes ss ++ indexes ss).find? known.contains := by
  have hnames : ∀ n ∈ ["service", "schemas"], IsModuleName n := by simp [IsModuleName]
  exact ⟨by decide, by decide, by decide, hnames,
    dotted_resolves (by decide) (by decide) (by decide) (by decide) (by simp) hnames _⟩

example : resolve? "api/app/routes.py" "..service.schemas"
    ["api/service/schemas/__init__.py", "api/service/schemas.py"] =
      some "api/service/schemas.py" := by decide

/-! ## 4. Packages -/

/-- What a specifier of `k` dots leads to stands for the package that is left after climbing. -/
def StaysInside (source : String) (k : Nat) (known : List String) : Prop :=
  ∀ file, resolve? source (dots k) known = some file → file ∈ indexes (packageOf source k)

theorem length_ofSegments_lt (ss : List Segment) {s : Segment} (hs : s ≠ []) :
    (ofSegments ss).length < (ofSegments (ss ++ [s])).length := by
  by_cases hne : ss = []
  · subst hne
    simpa [ofSegments, join] using List.length_pos_of_ne_nil hs
  · rw [ofSegments_concat hne]
    simp

/-- A file that is named like a directory does not lie in it. -/
theorem not_mem_indexes_of_mem_namesakes {file : String} (h : file ∈ namesakes ss) :
    file ∉ indexes ss := by
  have hends : ∀ e ∈ extensions ++ [[]], ∀ name ∈ indexNames, name ≠ e ∧ '/' :: name ≠ e := by
    decide
  obtain ⟨e, he, rfl⟩ := List.mem_map.mp h
  intro hmem
  obtain ⟨name, hname, heq⟩ := List.mem_map.mp hmem
  rw [String.ofList_inj] at heq
  obtain ⟨h1, h2⟩ := hends e he name hname
  by_cases hne : ss = []
  · -- in the root there is no slash between the directory and its files
    subst hne
    exact h1 (by simpa [ofSegments, join] using heq)
  · rw [ofSegments_concat hne] at heq
    exact h2 (List.append_cancel_left heq)

/-- A source that a compiled ending stands for is not longer than the path of the directory. -/
theorem not_mem_indexes_of_mem_sources {file : String} (h : file ∈ sources ss) :
    file ∉ indexes ss := by
  have hlengths : ∀ ending ∈ sourceEndings, ending.2.length = ending.1.length := by decide
  have hnames : [] ∉ indexNames := by decide
  obtain ⟨ending, hending, hfile⟩ := List.mem_filterMap.mp h
  obtain ⟨stem, hstem, rfl⟩ := Option.map_eq_some_iff.mp hfile
  intro hmem
  obtain ⟨name, hname, heq⟩ := List.mem_map.mp hmem
  rw [String.ofList_inj] at heq
  have hlt := length_ofSegments_lt ss (s := name) fun hnil => hnames (hnil ▸ hname)
  rw [heq, before?_eq_some_iff.mp hstem, List.length_append, List.length_append,
    hlengths ending hending] at hlt
  exact Nat.lt_irrefl _ hlt

/-- Where the second of three blocks alone has a property, the first hit has it exactly if the first
block holds no hit, and the second one holds a hit or the third one none. -/
theorem forall_find?_append_iff {α : Type} {p : α → Bool} {P : α → Prop}
    {first second third : List α} (hfirst : ∀ a ∈ first, ¬ P a) (hsecond : ∀ a ∈ second, P a)
    (hthird : ∀ a ∈ third, ¬ P a) :
    (∀ a, (first ++ second ++ third).find? p = some a → P a) ↔
      (∀ a ∈ first, ¬ p a) ∧ ((∃ a ∈ second, p a) ∨ ∀ a ∈ third, ¬ p a) := by
  rw [List.find?_append, List.find?_append, ← List.find?_eq_none, ← List.find?_isSome,
    ← List.find?_eq_none]
  cases h1 : first.find? p with
  | some a => simp [hfirst a (List.mem_of_find?_eq_some h1)]
  | none =>
    cases h2 : second.find? p with
    | some a => simp [hsecond a (List.mem_of_find?_eq_some h2)]
    | none =>
      cases h3 : third.find? p with
      | some a => simp [hthird a (List.mem_of_find?_eq_some h3)]
      | none => simp

/-- **Imports of a package stay inside it exactly if** no file beside it that is named like it is
known, and no source beside it unless something inside is. -/
theorem staysInside_iff (hs : normalized source = source) (hk : 1 ≤ k)
    (hdeep : k - 1 ≤ (directories source.toList).countP Path.isProper) :
    StaysInside source k known ↔
      (∀ file ∈ namesakes (packageOf source k), file ∉ known) ∧
        ((∃ file ∈ indexes (packageOf source k), file ∈ known) ∨
          ∀ file ∈ sources (packageOf source k), file ∉ known) := by
  have hplace : place source.toList (dots k).toList = ofSegments (packageOf source k) := by
    rw [← dotted_nil, place_dotted hs hk hdeep (by simp), List.map_nil, List.append_nil]
  have hdot : (dots k).toList.head? = some '.' := dotted_nil k ▸ head?_dotted hk
  simp only [StaysInside, resolve?_eq_find? hdot, hplace,
    map_candidates_ofSegments (isSettled_packageOf hs)]
  rw [forall_find?_append_iff (fun _ h => not_mem_indexes_of_mem_namesakes h) (fun _ h => h)
    (fun _ h => not_mem_indexes_of_mem_sources h)]
  simp only [List.contains_iff_mem]

/-- The import of a package that is named like a compiled file, with a source of such a file beside
it. -/
theorem staysInside_iff_compiled :
    let source := "lib.js/app/main.ts"
    let known := ["lib.js/index.ts", "lib.ts"]
    normalized source = source ∧ 2 - 1 ≤ (directories source.toList).countP Path.isProper ∧
    (StaysInside source 2 known ↔
      (∀ file ∈ namesakes (packageOf source 2), file ∉ known) ∧
        ((∃ file ∈ indexes (packageOf source 2), file ∈ known) ∨
          ∀ file ∈ sources (packageOf source 2), file ∉ known)) :=
  ⟨by decide, by decide, staysInside_iff (by decide) (by decide) (by decide)⟩

/-- **The import of a package may leave it**: a file beside the package that is named like it is
taken before its root. -/
theorem not_staysInside_namesake :
    normalized "app/main.py" = "app/main.py" ∧
      1 - 1 ≤ (directories "app/main.py".toList).countP Path.isProper ∧
      ¬ StaysInside "app/main.py" 1 ["app.py", "app/__init__.py", "app/main.py"] := by
  refine ⟨by decide, by decide, fun h => ?_⟩
  have hfound : resolve? "app/main.py" (dots 1) ["app.py", "app/__init__.py", "app/main.py"] =
      some "app.py" := by decide
  exact absurd (h "app.py" hfound) (by decide)

end Codemap.Imports
