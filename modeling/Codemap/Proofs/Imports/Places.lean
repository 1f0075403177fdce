/-
# Where relative imports lead

A relative specifier is read from the directories of its file, segment by segment, and the place
that it points to is what has been passed at the end (`place_eq`).  Nothing else of the two texts
counts.  So a specifier with slashes may be given in any spelling, and a file under any path, as
long as the normal forms agree.

In a normal form, climbs come first and proper segments after them (`IsSettled`).  From there a
climb takes one directory away, and as many climbs as there are directories lead to the root
(`IsSettled.climb`).  Every known file lies below the root, so it can be reached from every other
file.

Main statement: `reaches_known_by_normal_form`.
-/
import Codemap.Imports.Resolve
import Codemap.Proofs.Imports.Normal

namespace Codemap.Path

open Codemap.Text

variable {s : Segment} {ss names passed : List Segment} {path : List Char} {m : Nat}

/-! ## 1. Directories -/

/-- The segments that a path passes before its last one. -/
def directories (path : List Char) : List Segment := (segments path).dropLast

theorem segments_replaceChar (path : List Char) :
    segments (replaceChar (· == '\\') '/' path) = segments path := by
  refine pieces_map (fun c => ?_) (fun c hc => ?_) path
  · by_cases h : c = '\\' <;> simp [isSeparator, h]
  · simp only [isSeparator, Bool.or_eq_false_iff] at hc
    simp [hc.2]

theorem segments_of_forall {a : List Char} (ha : ∀ c ∈ a, isSeparator c = false) :
    segments a = [a] := pieces_of_forall ha

theorem forall_isSeparator_eq_false {a : List Char} (hslash : '/' ∉ a) (hback : '\\' ∉ a) :
    ∀ c ∈ a, isSeparator c = false := by
  intro c hc
  have h1 : c ≠ '/' := fun h => hslash (h ▸ hc)
  have h2 : c ≠ '\\' := fun h => hback (h ▸ hc)
  simp [isSeparator, h1, h2]

theorem segments_ne_nil (path : List Char) : segments path ≠ [] := pieces_ne_nil path

/-- What stands before the last slash passes the directories. -/
theorem foldl_advance_directory (path : List Char) (passed : List Segment) :
    (segments (directory (replaceChar (· == '\\') '/' path))).foldl advance passed =
      (directories path).foldl advance passed := by
  rw [directories, ← segments_replaceChar path]
  have hback : '\\' ∉ replaceChar (· == '\\') '/' path := by
    simp only [replaceChar, List.mem_map, not_exists, not_and]
    intro c _
    by_cases h : c = '\\' <;> simp [h]
  generalize replaceChar (· == '\\') '/' path = written at hback ⊢
  by_cases hslash : '/' ∈ written
  · obtain ⟨a, b, rfl, hb⟩ := exists_append_cons_of_mem hslash
    simp only [List.mem_append, List.mem_cons, not_or] at hback
    rw [directory, cutLast_append_cons hb, segments_append,
      segments_of_forall (forall_isSeparator_eq_false hb hback.2.2), List.dropLast_concat]
  · rw [directory, cutLast_of_not_mem hslash,
      segments_of_forall (forall_isSeparator_eq_false hslash hback)]
    rfl

/-! ## 2. Climbing -/

theorem foldl_advance_of_isProper (h : ∀ s ∈ names, isProper s) (passed : List Segment) :
    names.foldl advance passed = names.reverse ++ passed := by
  induction names generalizing passed with
  | nil => rfl
  | cons s names ih =>
    obtain ⟨hs, hnames⟩ := List.forall_mem_cons.mp h
    rw [List.foldl_cons, advance_proper hs, ih hnames]
    simp

theorem foldl_advance_replicate_up (n : Nat) :
    (List.replicate n up).foldl advance [] = List.replicate n up := by
  induction n with
  | zero => rfl
  | succ n ih =>
    rw [List.replicate_succ', foldl_advance_concat, ih, advance_up_replicate,
      List.replicate_succ']

/-- Climbs take as many proper segments away. -/
theorem foldl_advance_climb (hlen : m ≤ passed.length) (h : ∀ s ∈ passed.take m, isProper s) :
    (List.replicate m up).foldl advance passed = passed.drop m := by
  induction m generalizing passed with
  | zero => rfl
  | succ m ih =>
    cases passed with
    | nil => simp at hlen
    | cons s passed =>
      simp only [List.take_succ_cons, List.forall_mem_cons] at h
      rw [List.replicate_succ, List.foldl_cons, advance_up_of_isProper h.1,
        ih (by simpa using hlen) h.2, List.drop_succ_cons]

/-- Joined proper segments are passed one after the other. -/
theorem foldl_advance_segments_ofSegments
    (h : ∀ s ∈ names, isProper s ∧ ∀ c ∈ s, isSeparator c = false) (passed : List Segment) :
    (segments (ofSegments names)).foldl advance passed = names.reverse ++ passed := by
  by_cases hne : names = []
  · subst hne
    rfl
  · rw [segments, ofSegments, pieces_join rfl hne fun s hs => (h s hs).2,
      foldl_advance_of_isProper fun s hs => (h s hs).1]

/-! ## 3. Segments of normal forms -/

theorem isSettled_nil : IsSettled [] := ⟨0, [], rfl, by simp⟩

namespace IsSettled

/-- In a normal form, all that is passed stays. -/
theorem foldl_advance (h : IsSettled ss) : ss.foldl advance [] = ss.reverse := by
  obtain ⟨n, names, rfl, hnames⟩ := h
  rw [List.foldl_append, foldl_advance_replicate_up,
    foldl_advance_of_isProper fun s hs => (hnames s hs).1]
  simp

theorem take (h : IsSettled ss) (m : Nat) : IsSettled (ss.take m) := by
  obtain ⟨n, names, rfl, hnames⟩ := h
  refine ⟨min m n, names.take (m - n), ?_, fun s hs => hnames s (List.mem_of_mem_take hs)⟩
  rw [List.take_append, List.take_replicate, List.length_replicate]

theorem append (h : IsSettled ss)
    (hnames : ∀ s ∈ names, isProper s ∧ ∀ c ∈ s, isSeparator c = false) :
    IsSettled (ss ++ names) := by
  obtain ⟨n, first, rfl, hfirst⟩ := h
  exact ⟨n, first ++ names, List.append_assoc _ _ _, List.forall_mem_append.mpr ⟨hfirst, hnames⟩⟩

/-- Where nothing climbs, all segments are proper. -/
theorem countP_isProper (h : IsSettled ss) (hup : up ∉ ss) : ss.countP isProper = ss.length := by
  obtain ⟨n, names, rfl, hnames⟩ := h
  refine List.countP_eq_length.mpr fun s hs => ?_
  rcases List.mem_append.mp hs with hclimb | hs
  · exact absurd (List.eq_of_mem_replicate hclimb ▸ hs) hup
  · exact (hnames s hs).1

/-- **A climb takes one directory away**, where proper directories are left. -/
theorem climb (h : IsSettled ss) (hm : m ≤ ss.countP isProper) :
    (List.replicate m up).foldl advance ss.reverse = (ss.take (ss.length - m)).reverse := by
  obtain ⟨n, names, rfl, hnames⟩ := h
  have hups : (List.replicate n up).countP isProper = 0 := by
    rw [List.countP_replicate]
    rfl
  have hm : m ≤ names.length := by
    rw [List.countP_append, hups] at hm
    have := List.countP_le_length (p := isProper) (l := names)
    omega
  rw [foldl_advance_climb (by simp; omega), List.reverse_take]
  · congr 1
    simp
    omega
  · intro s hs
    rw [List.reverse_append, List.take_append_of_le_length (by simpa using hm)] at hs
    exact (hnames s (List.mem_reverse.mp (List.mem_of_mem_take hs))).1

theorem foldl_advance_segments (h : IsSettled ss) :
    (segments (ofSegments ss)).foldl advance [] = ss.reverse := by
  by_cases hne : ss = []
  · subst hne
    rfl
  · rw [h.segments_ofSegments hne, h.foldl_advance]

/-- A normal form is followed by a proper segment. -/
theorem normal_concat (h : IsSettled ss) (hs : isProper s ∧ ∀ c ∈ s, isSeparator c = false) :
    normal (ofSegments ss ++ '/' :: s) = ofSegments (ss ++ [s]) := by
  rw [normal_append, h.foldl_advance_segments, segments_of_forall hs.2, List.foldl_cons,
    List.foldl_nil, advance_proper hs.1]
  simp

end IsSettled

/-- The directories of a normal form are settled. -/
theorem isSettled_directories {path : String} (h : normalized path = path) :
    IsSettled (directories path.toList) := by
  rw [← h, toList_normalized, normal, normalSegments_eq, directories]
  have hsettled := isSettled_settled path.toList
  by_cases hne : settled (segments path.toList) = []
  · rw [hne]
    exact isSettled_nil
  · rw [hsettled.segments_ofSegments hne, List.dropLast_eq_take]
    exact hsettled.take _

/-- A path that ends in a proper segment passes the directories of its normal form. -/
theorem foldl_advance_directories_normal (h : ∀ s ∈ (segments path).getLast?, isProper s)
    (passed : List Segment) :
    (directories (normal path)).foldl advance passed = (directories path).foldl advance passed := by
  obtain ⟨init, last, hsegments⟩ :=
    (List.eq_nil_or_concat' (segments path)).resolve_left (segments_ne_nil path)
  rw [hsegments, List.getLast?_concat] at h
  have hlast : isProper last := h last rfl
  have hsettled : settled (segments path) = settled init ++ [last] := by
    rw [hsegments, settled, foldl_advance_concat, advance_proper hlast, List.reverse_cons, settled]
  rw [normal, normalSegments_eq, directories,
    (isSettled_settled path).segments_ofSegments (by simp [hsettled]), hsettled,
    List.dropLast_concat, foldl_advance_settled, directories, hsegments, List.dropLast_concat]

end Codemap.Path

namespace Codemap.Imports

open Codemap.Path Codemap.Text

variable {source target specifier : String} {known : List String}

/-! ## 4. Places -/

/-- **The place is what the directories of the file and the segments of the specifier lead to.** -/
theorem place_eq (source specifier : List Char) :
    place source specifier = ofSegments ((segments (way specifier)).foldl advance
      ((directories source).foldl advance [])).reverse := by
  rw [place, normal_append, foldl_advance_directory]

theorem way_of_mem {specifier : List Char} (h : '/' ∈ specifier) : way specifier = specifier :=
  if_pos (List.contains_iff_mem.mpr h)

theorem place_congr {source a b : List Char} (h : normal (way a) = normal (way b)) :
    place source a = place source b := by
  rw [place_eq, place_eq, ← foldl_advance_segments_normal (way a), h,
    foldl_advance_segments_normal]

theorem place_normal {source : List Char} (h : ∀ s ∈ (segments source).getLast?, isProper s)
    (specifier : List Char) : place (normal source) specifier = place source specifier := by
  rw [place_eq, place_eq, foldl_advance_directories_normal h]

/-- Climbs of some levels, as they are written. -/
def climbs (levels : Nat) : List Char := (List.replicate levels ['.', '.', '/']).flatten

theorem foldl_advance_climbs_append (levels : Nat) (rest : List Char) (passed : List Segment) :
    (segments (climbs levels ++ rest)).foldl advance passed =
      (segments rest).foldl advance ((List.replicate levels up).foldl advance passed) := by
  induction levels generalizing passed with
  | zero => rfl
  | succ levels ih =>
    have hcons : climbs (levels + 1) ++ rest = up ++ '/' :: (climbs levels ++ rest) := by
      simp [climbs, List.replicate_succ, up]
    rw [hcons, segments_append, List.foldl_append, ih]
    rfl

/-- The specifier that climbs from a file to the root and goes on to another file. -/
def throughRoot (source target : String) : String :=
  .ofList ("./".toList ++ climbs (directories source.toList).length ++ target.toList)

theorem place_throughRoot (hs : normalized source = source) (hup : up ∉ directories source.toList) :
    place source.toList (throughRoot source target).toList = normal target.toList := by
  have hsettled := isSettled_directories hs
  have hslash : '/' ∈ (throughRoot source target).toList := by simp [throughRoot]
  have hhere : (throughRoot source target).toList =
      here ++ '/' :: (climbs (directories source.toList).length ++ target.toList) := by
    simp [throughRoot, here]
  rw [place_eq, way_of_mem hslash, hhere, segments_append, List.foldl_append,
    foldl_advance_climbs_append, hsettled.foldl_advance]
  have hstay : (segments here).foldl advance (directories source.toList).reverse =
      (directories source.toList).reverse := rfl
  rw [hstay, hsettled.climb (by rw [hsettled.countP_isProper hup]), Nat.sub_self]
  rfl

/-! ## 5. Resolving -/

theorem resolve?_eq_find? (h : specifier.toList.head? = some '.') :
    resolve? source specifier known =
      ((candidates (place source.toList specifier.toList)).map String.ofList).find?
        known.contains := by
  rw [resolve?, if_pos (by simp [h])]

/-- A known place is found, unless an extension is known to complete it. -/
theorem find?_candidates_eq_some_iff (h : target ∈ known) :
    ((candidates target.toList).map String.ofList).find? known.contains = some target ↔
      ∀ e ∈ extensions, target ++ .ofList e ∉ known := by
  have hplace : ([target.toList].map String.ofList).find? known.contains = some target := by
    simpa using h
  have hcompletions : (extensions.map (target.toList ++ ·)).map String.ofList =
      extensions.map fun e => target ++ .ofList e := by
    simp [Function.comp_def]
  have hcompleted : ∀ e ∈ extensions, target ++ .ofList e ≠ target := by
    intro e he heq
    have hnil : e = [] := by simpa using congrArg String.toList heq
    exact absurd (hnil ▸ he) (by decide)
  simp only [candidates, List.append_assoc, List.map_append (f := String.ofList),
    List.find?_append, hcompletions, hplace, Option.some_or]
  cases hfirst : (extensions.map fun e => target ++ .ofList e).find? known.contains with
  | none => simpa using hfirst
  | some t =>
    obtain ⟨e, he, rfl⟩ := List.mem_map.mp (List.mem_of_find?_eq_some hfirst)
    have hknown : target ++ .ofList e ∈ known := by simpa using List.find?_some hfirst
    rw [Option.some_or, Option.some.injEq, eq_false (hcompleted e he), false_iff]
    exact fun hall => hall e he hknown

/-- A relative specifier that is written with slashes. -/
def IsRelativePath (specifier : String) : Prop :=
  specifier.toList.head? = some '.' ∧ '/' ∈ specifier.toList

/-- **Every known file is reached, and spellings do not count.**  The way to a known file through
the root is resolved, and to this file unless an extension completes its path to that of another
known one.  Specifiers with slashes count by their normal forms alone, and so do the paths of the
files that they stand in, if these do not end in a segment that stays or climbs. -/
theorem reaches_known_by_normal_form :
    (∀ (source target : String) (known : List String), normalized source = source →
      normalized target = target → up ∉ directories source.toList → target ∈ known →
        (resolve? source (throughRoot source target) known).isSome ∧
        (resolve? source (throughRoot source target) known = some target ↔
          ∀ e ∈ extensions, target ++ .ofList e ∉ known)) ∧
    (∀ (source a b : String) (known : List String), IsRelativePath a → IsRelativePath b →
      normalized a = normalized b → resolve? source a known = resolve? source b known) ∧
    ∀ (source specifier : String) (known : List String),
      (∀ s ∈ (segments source.toList).getLast?, isProper s) →
        resolve? (normalized source) specifier known = resolve? source specifier known := by
  refine ⟨fun source target known hs ht hup hknown => ?_, fun source a b known ha hb hab => ?_,
    fun source specifier known hlast => ?_⟩
  · have hplace : place source.toList (throughRoot source target).toList = target.toList := by
      rw [place_throughRoot hs hup, ← toList_normalized, ht]
    have hdot : (throughRoot source target).toList.head? = some '.' := by simp [throughRoot]
    rw [resolve?_eq_find? hdot, hplace]
    refine ⟨?_, find?_candidates_eq_some_iff hknown⟩
    rw [List.find?_isSome]
    exact ⟨target, by simp [candidates], by simpa using hknown⟩
  · have hway : normal (way a.toList) = normal (way b.toList) := by
      rw [way_of_mem ha.2, way_of_mem hb.2]
      exact normalized_eq_iff.mp hab
    rw [resolve?_eq_find? ha.1, resolve?_eq_find? hb.1, place_congr hway]
  · rw [resolve?, resolve?, toList_normalized, place_normal hlast]

/-- A file two directories deep reaches one beside them, by two spellings of the way and under two
spellings of its own path. -/
theorem reaches_known_by_normal_form_user :
    let known := ["lib/user.ts", "src/app/main.ts"]
    let source := "src/app/main.ts"
    (normalized source = source ∧ up ∉ directories source.toList ∧
      (resolve? source (throughRoot source "lib/user.ts") known).isSome ∧
      (resolve? source (throughRoot source "lib/user.ts") known = some "lib/user.ts" ↔
        ∀ e ∈ extensions, "lib/user.ts" ++ .ofList e ∉ known)) ∧
    (IsRelativePath "../../lib/user" ∧ IsRelativePath "./..\\..//lib/user" ∧
      normalized "../../lib/user" = normalized "./..\\..//lib/user" ∧
      resolve? source "../../lib/user" known = resolve? source "./..\\..//lib/user" known) ∧
    ((∀ s ∈ (segments "src/./app//main.ts".toList).getLast?, isProper s) ∧
      resolve? (normalized "src/./app//main.ts") "../../lib/user" known =
        resolve? "src/./app//main.ts" "../../lib/user" known) :=
  ⟨⟨by decide, by decide,
      reaches_known_by_normal_form.1 _ _ _ (by decide) (by decide) (by decide) (by decide)⟩,
    ⟨⟨rfl, by decide⟩, ⟨rfl, by decide⟩, by decide,
      reaches_known_by_normal_form.2.1 _ _ _ _ ⟨rfl, by decide⟩ ⟨rfl, by decide⟩ (by decide)⟩,
    by decide, reaches_known_by_normal_form.2.2 _ _ _ (by decide)⟩

example : resolve? "src/app/main.ts" (throughRoot "src/app/main.ts" "lib/user.ts")
    ["lib/user.ts", "lib/user.ts.js"] = some "lib/user.ts.js" := by decide

end Codemap.Imports
