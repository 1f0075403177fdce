/-
# Paths and the names on the way to them

A path is written by the segments on its way, with slashes between them.  Segments are not empty and
hold no slashes, so the way is read back from the path (`wayOf_pathOf`); any text at
all can be read as a way, since what stands between its slashes is a segment or nothing
(`isSegment_of_mem_wayOf`).

Names hold no slashes of either kind, so they are segments, and two ways of names have two paths
(`pathOf_inj`).  Whether a file is a source file is told by its own name, although it is asked of
its path (`hasSourceExtension_pathOf`).
-/
import Codemap.Layout.Scan
import Codemap.Proofs.Text.Pieces

namespace Codemap

open Codemap.Text

variable {way way' : List String} {name : String}

/-! ## 1. Segments and paths -/

/-- A text that can stand between two slashes of a path. -/
def IsSegment (s : String) : Prop := s ≠ "" ∧ '/' ∉ s.toList

instance : DecidablePred IsSegment := fun s => inferInstanceAs (Decidable (s ≠ "" ∧ _))

/-- The path of what lies at the end of a way of names. -/
def pathOf (way : List String) : String := "/".intercalate way

@[simp] theorem pathOf_nil : pathOf [] = "" := rfl

theorem toList_pathOf (way : List String) :
    (pathOf way).toList = join ['/'] (way.map String.toList) := by
  rw [pathOf, String.toList_intercalate]
  rfl

theorem pathOf_append (hne : way ≠ []) (hne' : way' ≠ []) :
    pathOf (way ++ way') = pathOf way ++ "/" ++ pathOf way' :=
  String.intercalate_append_of_ne_nil hne hne'

theorem pathOf_concat (hne : way ≠ []) (name : String) :
    pathOf (way ++ [name]) = pathOf way ++ "/" ++ name := by
  rw [pathOf_append hne (List.cons_ne_nil name [])]
  exact congrArg _ String.intercalate_singleton

/-- **The way is read back from the path.** -/
theorem wayOf_pathOf (h : ∀ s ∈ way, IsSegment s) :
    FileTree.wayOf (pathOf way) = way := by
  rw [FileTree.wayOf, toList_pathOf]
  by_cases hne : way = []
  · subst hne
    rfl
  · have hslash : ∀ a ∈ way.map String.toList, '/' ∉ a := by
      simpa using fun s hs => (h s hs).2
    have hfull : ∀ a ∈ way.map String.toList, (!a.isEmpty) = true := by
      simpa using fun s hs => (h s hs).1
    rw [piecesAt_join (by simpa using hne) hslash, List.filter_eq_self.mpr hfull, List.map_map]
    exact List.map_id'' (fun _ => String.ofList_toList) way

theorem pathOf_inj_of_isSegment (h : ∀ s ∈ way, IsSegment s) (h' : ∀ s ∈ way', IsSegment s) :
    pathOf way = pathOf way' ↔ way = way' := by
  refine ⟨fun heq => ?_, congrArg pathOf⟩
  have hway := congrArg FileTree.wayOf heq
  rwa [wayOf_pathOf h, wayOf_pathOf h'] at hway

theorem wayOf_append_slash (a b : String) :
    FileTree.wayOf (a ++ "/" ++ b) = FileTree.wayOf a ++ FileTree.wayOf b := by
  have hlist : (a ++ "/" ++ b).toList = a.toList ++ '/' :: b.toList := by simp
  rw [FileTree.wayOf, hlist, piecesAt, pieces_append (by decide), List.filter_append,
    List.map_append]
  rfl

/-- What stands between the slashes of a text is a segment or nothing. -/
theorem isSegment_of_mem_wayOf {path s : String} (h : s ∈ FileTree.wayOf path) : IsSegment s := by
  obtain ⟨a, ha, rfl⟩ := List.mem_map.mp h
  obtain ⟨ha, hfull⟩ := List.mem_filter.mp ha
  refine ⟨by simpa using hfull, fun hslash => ?_⟩
  rw [String.toList_ofList] at hslash
  exact absurd (eq_false_of_mem_pieces ha '/' hslash) (by decide)

/-! ## 2. Names -/

/-- Whether a text can be the name of a file or a directory. -/
def isName (name : String) : Bool :=
  !name.isEmpty && !name.toList.contains '/' && !name.toList.contains '\\'

theorem isName_iff : isName name ↔ name ≠ "" ∧ '/' ∉ name.toList ∧ '\\' ∉ name.toList := by
  simp [isName, and_assoc]

theorem forall_isSegment (h : ∀ n ∈ way, isName n) : ∀ n ∈ way, IsSegment n :=
  fun n hn => ⟨(isName_iff.mp (h n hn)).1, (isName_iff.mp (h n hn)).2.1⟩

theorem forall_isName_nil : ∀ n ∈ ([] : List String), isName n :=
  fun _ hn => absurd hn List.not_mem_nil

theorem forall_isName_concat (h : ∀ n ∈ way, isName n) (hname : isName name) :
    ∀ n ∈ way ++ [name], isName n :=
  List.forall_mem_append.mpr ⟨h, List.forall_mem_cons.mpr ⟨hname, forall_isName_nil⟩⟩

theorem pathOf_inj (h : ∀ n ∈ way, isName n) (h' : ∀ n ∈ way', isName n) :
    pathOf way = pathOf way' ↔ way = way' :=
  pathOf_inj_of_isSegment (forall_isSegment h) (forall_isSegment h')

theorem isEmpty_pathOf (h : ∀ n ∈ way, isName n) : (pathOf way).isEmpty = way.isEmpty := by
  rw [Bool.eq_iff_iff, String.isEmpty_iff, List.isEmpty_iff]
  exact pathOf_inj h forall_isName_nil

theorem pathIn_pathOf (h : ∀ n ∈ way, isName n) (name : String) :
    pathIn (pathOf way) name = pathOf (way ++ [name]) := by
  rw [pathIn, isEmpty_pathOf h]
  cases way with
  | nil => rfl
  | cons a way => exact (pathOf_concat (List.cons_ne_nil a way) name).symm

/-- A path has slashes only. -/
theorem withSlashes_pathOf (h : ∀ n ∈ way, isName n) : withSlashes (pathOf way) = pathOf way := by
  have hslashes : ∀ c ∈ (pathOf way).toList, (c == '\\') = false := by
    intro c hc
    rw [toList_pathOf] at hc
    rcases mem_join hc with rfl | ⟨a, ha, hc⟩
    · rfl
    · obtain ⟨n, hn, rfl⟩ := List.mem_map.mp ha
      rw [beq_eq_false_iff_ne]
      exact fun heq => (isName_iff.mp (h n hn)).2.2 (heq ▸ hc)
  rw [withSlashes, replaceChar_of_forall hslashes, String.ofList_toList]

/-! ## 3. Extensions -/

/-- A name ends in a dot and an extension of some language. -/
def HasSourceExtension (name : String) : Prop :=
  ∃ extension, (Language.ofExtension? extension).isSome ∧ '.' :: extension.toList <:+ name.toList

/-- The extensions of languages are plain. -/
theorem not_mem_of_ofExtension? {extension : String}
    (h : (Language.ofExtension? extension).isSome) :
    '.' ∉ extension.toList ∧ '/' ∉ extension.toList := by
  unfold Language.ofExtension? at h
  split at h
  all_goals first | exact absurd h Bool.false_ne_true | decide

theorem isSome_ofPath?_iff {path : String} :
    (Language.ofPath? path).isSome ↔ HasSourceExtension path := by
  simp only [Language.ofPath?, HasSourceExtension, Option.bind_eq_bind]
  constructor
  · intro h
    cases hcut : cutLast '.' path.toList with
    | none => simp [hcut] at h
    | some parts =>
      rw [hcut, Option.bind_some] at h
      exact ⟨.ofList parts.2, h, parts.1, by rw [String.toList_ofList, ← eq_of_cutLast hcut]⟩
  · rintro ⟨extension, hextension, stem, hpath⟩
    rw [← hpath, cutLast_append_cons (not_mem_of_ofExtension? hextension).1, Option.bind_some,
      String.ofList_toList]
    exact hextension

/-- **The name of a file tells whether its path has the extension of a language.** -/
theorem hasSourceExtension_pathOf (way : List String) (name : String) :
    HasSourceExtension (pathOf (way ++ [name])) ↔ HasSourceExtension name := by
  cases way with
  | nil => rfl
  | cons a way =>
    have hpath : (pathOf (a :: way ++ [name])).toList =
        (pathOf (a :: way)).toList ++ '/' :: name.toList := by
      rw [pathOf_concat (List.cons_ne_nil a way)]
      simp
    refine exists_congr fun extension => and_congr_right fun hextension => ?_
    have hslash : '/' ∉ '.' :: extension.toList := by
      simpa using (not_mem_of_ofExtension? hextension).2
    rw [hpath, suffix_append_cons_iff hslash]

end Codemap
