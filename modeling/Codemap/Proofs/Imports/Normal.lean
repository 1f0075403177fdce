/-
# Normal forms of paths

A path is read segment by segment, and what has been passed is some proper segments below some
climbs (`Reaches`).  A climb takes the latest proper segment away; where there is none it stays, so
the climbs that are left are as many as the path exceeds its start by: the greatest excess of climbs
over proper segments among its beginnings (`IsExcess`).

The segments of a normal form are climbs and proper segments below them (`IsSettled`), and they are
read back from it.  A path and its normal form lead from everywhere to the same place
(`foldl_advance_settled`).  All laws follow from this: the normal form of a normal form is itself,
and either part of a path may be replaced by its normal form before the two are joined
(`normalized_normalForm`).
-/
import Codemap.Imports.Path
import Codemap.Proofs.Text.Pieces
import Mathlib.Data.List.Infix
import Mathlib.Data.List.Induction

namespace Codemap.Path

open Codemap.Text

/-! ## 1. Segments -/

/-- Whether a segment stays where it is. -/
def stays (s : Segment) : Bool := s.isEmpty || s == here

/-- Whether a segment leads to a file or a directory: it is neither empty nor made of one dot or
two. -/
def isProper (s : Segment) : Bool := !(stays s || s == up)

variable {s : Segment} {ss passed names : List Segment} {n : Nat}

theorem ne_up_of_stays (h : stays s) : s ≠ up := by
  rintro rfl
  exact absurd h (by decide)

theorem isProper_of_stays (h : stays s) : isProper s = false := by
  rw [isProper, h, Bool.true_or, Bool.not_true]

theorem ne_up_of_isProper (h : isProper s) : s ≠ up := by
  rintro rfl
  exact Bool.false_ne_true h

/-- A segment stays, climbs, or is proper. -/
theorem segment_cases (s : Segment) : stays s ∨ s = up ∨ isProper s := by
  rw [isProper, Bool.not_eq_true', Bool.or_eq_false_iff, beq_eq_false_iff_ne]
  by_cases hup : s = up
  · exact Or.inr (Or.inl hup)
  · cases hstays : stays s
    · exact Or.inr (Or.inr ⟨rfl, hup⟩)
    · exact Or.inl rfl

theorem advance_stays (h : stays s) (passed : List Segment) : advance passed s = passed := by
  unfold advance
  exact if_pos h

theorem advance_proper (h : isProper s) (passed : List Segment) :
    advance passed s = s :: passed := by
  rw [isProper, Bool.not_eq_true', Bool.or_eq_false_iff] at h
  unfold advance
  rw [← stays, h.1, h.2]
  rfl

/-- A climb takes a proper segment away. -/
theorem advance_up_of_isProper (h : isProper s) (passed : List Segment) :
    advance (s :: passed) up = passed := by
  show (if s == up then up :: s :: passed else passed) = passed
  rw [if_neg (by simpa using ne_up_of_isProper h)]

/-- A climb stays where there is nothing to take away. -/
theorem advance_up_replicate (n : Nat) :
    advance (List.replicate n up) up = List.replicate (n + 1) up := by
  cases n <;> rfl

/-! ## 2. How far a path climbs -/

/-- The segments climb `n` levels above their start: some beginning has `n` more climbs than proper
segments, and none has more. -/
structure IsExcess (ss : List Segment) (n : Nat) : Prop where
  attained : ∃ p, p <+: ss ∧ p.count up = p.countP isProper + n
  bound : ∀ p, p <+: ss → p.count up ≤ p.countP isProper + n

theorem isExcess_nil : IsExcess [] 0 where
  attained := ⟨[], List.nil_prefix, rfl⟩
  bound p hp := by
    rw [List.prefix_nil.mp hp]
    exact Nat.le_refl 0

theorem IsExcess.concat (h : IsExcess ss n)
    (hle : (ss ++ [s]).count up ≤ (ss ++ [s]).countP isProper + n) :
    IsExcess (ss ++ [s]) n where
  attained := by
    obtain ⟨p, hp, heq⟩ := h.attained
    exact ⟨p, hp.trans (List.prefix_append ss [s]), heq⟩
  bound p hp := by
    rcases List.prefix_concat_iff.mp hp with rfl | hp
    · exact hle
    · exact h.bound p hp

theorem IsExcess.concat_succ (h : IsExcess ss n)
    (heq : (ss ++ [s]).count up = (ss ++ [s]).countP isProper + (n + 1)) :
    IsExcess (ss ++ [s]) (n + 1) where
  attained := ⟨ss ++ [s], List.prefix_refl _, heq⟩
  bound p hp := by
    rcases List.prefix_concat_iff.mp hp with rfl | hp
    · exact Nat.le_of_eq heq
    · exact Nat.le_trans (h.bound p hp) (Nat.le_succ _)

/-! ## 3. What has been passed -/

/-- After the segments `ss`, proper segments `names`, latest first, lie below `n` climbs. -/
structure Reaches (ss : List Segment) (n : Nat) (names : List Segment) : Prop where
  passed : ss.foldl advance [] = names ++ List.replicate n up
  proper : ∀ s ∈ names, isProper s
  subset : names ⊆ ss
  excess : IsExcess ss n
  level : ss.count up + names.length = ss.countP isProper + n

theorem reaches_nil : Reaches [] 0 [] where
  passed := rfl
  proper _ hs := absurd hs List.not_mem_nil
  subset := List.nil_subset _
  excess := isExcess_nil
  level := rfl

theorem foldl_advance_concat (ss : List Segment) (s : Segment) (passed : List Segment) :
    (ss ++ [s]).foldl advance passed = advance (ss.foldl advance passed) s := by
  rw [List.foldl_append, List.foldl_cons, List.foldl_nil]

theorem count_up_concat (h : s ≠ up) (ss : List Segment) :
    (ss ++ [s]).count up = ss.count up := by
  rw [List.count_append, List.count_singleton, if_neg (by simpa using h), Nat.add_zero]

theorem count_up_concat_up (ss : List Segment) : (ss ++ [up]).count up = ss.count up + 1 := by
  rw [List.count_append, List.count_singleton_self]

theorem countP_isProper_concat (h : isProper s = false) (ss : List Segment) :
    (ss ++ [s]).countP isProper = ss.countP isProper := by
  rw [List.countP_append, List.countP_singleton, h, if_neg Bool.false_ne_true, Nat.add_zero]

theorem countP_isProper_concat_of_isProper (h : isProper s) (ss : List Segment) :
    (ss ++ [s]).countP isProper = ss.countP isProper + 1 := by
  rw [List.countP_append, List.countP_singleton, if_pos h]

theorem Reaches.stay (h : Reaches ss n names) (hs : stays s) : Reaches (ss ++ [s]) n names := by
  have hup := count_up_concat (ne_up_of_stays hs) ss
  have hproper := countP_isProper_concat (isProper_of_stays hs) ss
  have hsubset : names ⊆ ss ++ [s] := List.Subset.trans h.subset (List.subset_append_left ss [s])
  refine ⟨?_, h.proper, hsubset, h.excess.concat ?_, ?_⟩
  · rw [foldl_advance_concat, advance_stays hs, h.passed]
  · rw [hup, hproper]
    exact h.excess.bound ss (List.prefix_refl ss)
  · rw [hup, hproper]
    exact h.level

theorem Reaches.enter (h : Reaches ss n names) (hs : isProper s) :
    Reaches (ss ++ [s]) n (s :: names) := by
  have hup := count_up_concat (ne_up_of_isProper hs) ss
  have hproper := countP_isProper_concat_of_isProper hs ss
  refine ⟨?_, List.forall_mem_cons.mpr ⟨hs, h.proper⟩, ?_, h.excess.concat ?_, ?_⟩
  · rw [foldl_advance_concat, advance_proper hs, h.passed, List.cons_append]
  · refine List.cons_subset.mpr ⟨List.mem_append_right ss (List.mem_singleton_self s), ?_⟩
    exact List.Subset.trans h.subset (List.subset_append_left ss [s])
  · have hle := h.excess.bound ss (List.prefix_refl ss)
    omega
  · have hlevel := h.level
    rw [List.length_cons]
    omega

/-- A climb out of a directory that the path has entered. -/
theorem Reaches.leave (h : Reaches ss n (s :: names)) : Reaches (ss ++ [up]) n names := by
  obtain ⟨hs, hproper⟩ := List.forall_mem_cons.mp h.proper
  have hsubset : names ⊆ ss ++ [up] := fun x hx =>
    List.mem_append_left [up] (h.subset (List.mem_cons_of_mem s hx))
  have hlevel := h.level
  rw [List.length_cons] at hlevel
  refine ⟨?_, hproper, hsubset, h.excess.concat ?_, ?_⟩
  · rw [foldl_advance_concat, h.passed, List.cons_append, advance_up_of_isProper hs]
  · rw [count_up_concat_up, countP_isProper_concat rfl]
    omega
  · rw [count_up_concat_up, countP_isProper_concat rfl]
    omega

/-- A climb above the start. -/
theorem Reaches.climb (h : Reaches ss n []) : Reaches (ss ++ [up]) (n + 1) [] := by
  have hlevel : ss.count up = ss.countP isProper + n := h.level
  refine ⟨?_, h.proper, List.nil_subset _, h.excess.concat_succ ?_, ?_⟩
  · rw [foldl_advance_concat, h.passed, List.nil_append, List.nil_append, advance_up_replicate]
  · rw [count_up_concat_up, countP_isProper_concat rfl, hlevel, Nat.add_assoc]
  · rw [count_up_concat_up, countP_isProper_concat rfl, hlevel, Nat.add_assoc]
    rfl

/-- **What has been passed is proper segments below climbs**, and these are as many as the segments
exceed their start by. -/
theorem exists_reaches (ss : List Segment) : ∃ n names, Reaches ss n names := by
  induction ss using List.reverseRecOn with
  | nil => exact ⟨0, [], reaches_nil⟩
  | append_singleton ss s ih =>
    obtain ⟨n, names, h⟩ := ih
    rcases segment_cases s with hs | rfl | hs
    · exact ⟨n, names, h.stay hs⟩
    · cases names with
      | nil => exact ⟨n + 1, [], h.climb⟩
      | cons s names => exact ⟨n, names, h.leave⟩
    · exact ⟨n, s :: names, h.enter hs⟩

/-! ## 4. Normal forms -/

/-- The segments of the normal form of what is written with the segments `ss`. -/
def settled (ss : List Segment) : List Segment := (ss.foldl advance []).reverse

theorem normalSegments_eq (path : List Char) : normalSegments path = settled (segments path) := rfl

theorem Reaches.settled_eq (h : Reaches ss n names) :
    settled ss = List.replicate n up ++ names.reverse := by
  rw [settled, h.passed, List.reverse_append, List.reverse_replicate]

/-- **From everywhere, segments and their normal form lead to the same place.** -/
theorem foldl_advance_settled (ss passed : List Segment) :
    (settled ss).foldl advance passed = ss.foldl advance passed := by
  induction ss using List.reverseRecOn with
  | nil => rfl
  | append_singleton ss s ih =>
    obtain ⟨n, names, h⟩ := exists_reaches ss
    rw [foldl_advance_concat, ← ih, h.settled_eq]
    rcases segment_cases s with hs | rfl | hs
    · rw [(h.stay hs).settled_eq, advance_stays hs]
    · cases names with
      | nil =>
        rw [h.climb.settled_eq, List.reverse_nil, List.append_nil, List.append_nil,
          List.replicate_succ', foldl_advance_concat]
      | cons s names =>
        -- the climb takes away the segment that the normal form ends with
        have hs : isProper s := h.proper s List.mem_cons_self
        rw [h.leave.settled_eq, List.reverse_cons, ← List.append_assoc, foldl_advance_concat,
          advance_proper hs, advance_up_of_isProper hs]
    · rw [(h.enter hs).settled_eq, List.reverse_cons, ← List.append_assoc, foldl_advance_concat]

theorem segments_append (a b : List Char) : segments (a ++ '/' :: b) = segments a ++ segments b :=
  pieces_append rfl a b

/-- Climbs and after them proper segments, which hold no slashes of either kind. -/
def IsSettled (ss : List Segment) : Prop :=
  ∃ n names, ss = List.replicate n up ++ names ∧
    ∀ s ∈ names, isProper s ∧ ∀ c ∈ s, isSeparator c = false

theorem IsSettled.plain (h : IsSettled ss) : ∀ s ∈ ss, ∀ c ∈ s, isSeparator c = false := by
  obtain ⟨n, names, rfl, hnames⟩ := h
  intro s hs
  rcases List.mem_append.mp hs with hs | hs
  · rw [List.eq_of_mem_replicate hs]
    simp [up, isSeparator]
  · exact (hnames s hs).2

theorem IsSettled.segments_ofSegments (h : IsSettled ss) (hne : ss ≠ []) :
    segments (ofSegments ss) = ss := pieces_join rfl hne h.plain

theorem Reaches.forall_isProper {path : List Char} (h : Reaches (segments path) n names) :
    ∀ s ∈ names.reverse, isProper s ∧ ∀ c ∈ s, isSeparator c = false := by
  intro s hs
  rw [List.mem_reverse] at hs
  exact ⟨h.proper s hs, eq_false_of_mem_pieces (h.subset hs)⟩

theorem isSettled_settled (path : List Char) : IsSettled (settled (segments path)) := by
  obtain ⟨n, names, h⟩ := exists_reaches (segments path)
  exact ⟨n, names.reverse, h.settled_eq, h.forall_isProper⟩

/-- From everywhere, a path and its normal form lead to the same place. -/
theorem foldl_advance_segments_normal (path : List Char) (passed : List Segment) :
    (segments (normal path)).foldl advance passed = (segments path).foldl advance passed := by
  rw [← foldl_advance_settled (segments path), normal, normalSegments_eq]
  by_cases hnil : settled (segments path) = []
  · -- the empty path has one segment, which stays
    rw [hnil]
    rfl
  · rw [(isSettled_settled path).segments_ofSegments hnil]

/-- A path is passed after the one before it. -/
theorem normal_append (a b : List Char) : normal (a ++ '/' :: b) =
    ofSegments ((segments b).foldl advance ((segments a).foldl advance [])).reverse := by
  rw [normal, normalSegments, segments_append, List.foldl_append]

theorem normal_normal_append (a b : List Char) :
    normal (normal a ++ '/' :: b) = normal (a ++ '/' :: b) := by
  rw [normal_append, normal_append, foldl_advance_segments_normal]

theorem normal_append_normal (a b : List Char) :
    normal (a ++ '/' :: normal b) = normal (a ++ '/' :: b) := by
  rw [normal_append, normal_append, foldl_advance_segments_normal]

theorem normal_normal (path : List Char) : normal (normal path) = normal path := by
  rw [normal, normalSegments, foldl_advance_segments_normal]
  rfl

/-! ## 5. Normal forms of texts -/

/-- A path is in normal form: its segments are `n` climbs and then `names`, none of which is empty
or made of one dot or two, and only the one kind of slash stands between them.  The empty path is
the one without any segments. -/
structure IsNormalForm (n : Nat) (names : List Segment) (path : List Char) : Prop where
  segments_eq : piecesAt '/' path = List.replicate n ['.', '.'] ++ names ∨
    path = [] ∧ n = 0 ∧ names = []
  proper : ∀ s ∈ names, s ≠ [] ∧ s ≠ ['.'] ∧ s ≠ ['.', '.']
  plain : '\\' ∉ path

theorem isProper_iff : isProper s ↔ s ≠ [] ∧ s ≠ ['.'] ∧ s ≠ ['.', '.'] := by
  simp [isProper, stays, here, up, and_assoc]

/-- Segments without slashes of either kind are read back where they are joined. -/
theorem IsSettled.piecesAt_ofSegments (h : IsSettled ss) (hne : ss ≠ []) :
    piecesAt '/' (ofSegments ss) = ss :=
  piecesAt_join hne fun s hs hslash => absurd (h.plain s hs _ hslash) (by decide)

theorem IsSettled.backslash_not_mem (h : IsSettled ss) : '\\' ∉ ofSegments ss := by
  intro hmem
  rcases mem_join hmem with hmem | ⟨s, hs, hmem⟩
  · exact absurd hmem (by decide)
  · exact absurd (h.plain s hs _ hmem) (by decide)

/-- The normal form of a path starts with as many climbs as the path exceeds its start by. -/
theorem exists_isNormalForm (path : List Char) :
    ∃ n names, IsNormalForm n names (normal path) ∧ IsExcess (segments path) n := by
  obtain ⟨n, names, h⟩ := exists_reaches (segments path)
  have hsettled := isSettled_settled path
  refine ⟨n, names.reverse, ⟨?_, fun s hs => isProper_iff.mp (h.forall_isProper s hs).1, ?_⟩,
    h.excess⟩
  · rw [normal, normalSegments_eq]
    by_cases hnil : settled (segments path) = []
    · rw [hnil]
      rw [h.settled_eq, List.append_eq_nil_iff, List.replicate_eq_nil_iff] at hnil
      exact Or.inr ⟨rfl, hnil⟩
    · exact Or.inl ((hsettled.piecesAt_ofSegments hnil).trans h.settled_eq)
  · rw [normal, normalSegments_eq]
    exact hsettled.backslash_not_mem

theorem toList_normalized (path : String) : (normalized path).toList = normal path.toList := by
  rw [normalized, String.toList_ofList]

theorem normalized_eq_iff {a b : String} :
    normalized a = normalized b ↔ normal a.toList = normal b.toList := by
  rw [normalized, normalized, String.ofList_inj]

/-- **Normal forms of paths.**  The normal form of a path is climbs and after them proper segments,
with as many climbs as the path exceeds its start by; it is its own normal form; and where paths are
joined, each of them may be taken in its normal form. -/
theorem normalized_normalForm :
    (∀ path : String, ∃ n names, IsNormalForm n names (normalized path).toList ∧
      IsExcess (segments path.toList) n) ∧
    (∀ path : String, normalized (normalized path) = normalized path) ∧
    ∀ a b : String, normalized (normalized a ++ "/" ++ b) = normalized (a ++ "/" ++ b) ∧
      normalized (a ++ "/" ++ normalized b) = normalized (a ++ "/" ++ b) := by
  have hjoin : ∀ a b : String, (a ++ "/" ++ b).toList = a.toList ++ '/' :: b.toList := by
    intro a b
    rw [String.toList_append, String.toList_append, List.append_assoc]
    rfl
  refine ⟨fun path => ?_, fun path => ?_, fun a b => ⟨?_, ?_⟩⟩
  · rw [toList_normalized]
    exact exists_isNormalForm path.toList
  · rw [normalized_eq_iff, toList_normalized, normal_normal]
  · rw [normalized_eq_iff, hjoin, hjoin, toList_normalized, normal_normal_append]
  · rw [normalized_eq_iff, hjoin, hjoin, toList_normalized, normal_append_normal]

example : normalized "a/../../b//./c\\..\\d" = "../b/d" := by decide

end Codemap.Path
