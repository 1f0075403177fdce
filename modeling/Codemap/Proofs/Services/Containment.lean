/-
# What lies below a directory

Two tests ask whether a path lies at or below a directory.  A root is compared with the beginning of
the path, and the byte behind that beginning has to be a slash (`isRootOf`); a directory gets its
slash first, and the path has to begin with both (`isWithin`).  They agree on all texts
(`isRootOf_eq_isWithin`), since a slash is one byte and no other character begins with it.

Where a path is written by its segments, what lies below it begins with the same segments
(`isRootOf_iff_wayOf`): a sibling whose name merely begins alike does not.  So the roots around
one path are nested, and longer ones are deeper.

Main statement: `isRootOf_segmentwise`.
-/
import Codemap.Proofs.Layout.Paths
import Codemap.Proofs.Text.Ascii
import Codemap.Services.Basic

namespace Codemap

open Codemap.Text FileTree

variable {d e p r t : String} {ps rs : List String}

/-! ## 1. Directories around a path -/

theorem isWithin_iff : isWithin d p ↔ d = "" ∨ p = d ∨ d.toList ++ ['/'] <+: p.toList := by
  simp [isWithin, or_assoc]

/-- Everything lies within the root. -/
@[simp] theorem isWithin_empty (p : String) : isWithin "" p := isWithin_iff.mpr (Or.inl rfl)

/-- A path begins with every directory that it lies within. -/
theorem isPrefix_of_isWithin (h : isWithin d p) : d.toList <+: p.toList := by
  rcases isWithin_iff.mp h with rfl | rfl | h
  · exact List.nil_prefix
  · exact List.prefix_rfl
  · exact (List.prefix_append _ _).trans h

/-- Of two directories around a path, the one with the shorter path lies around the other. -/
theorem isWithin_of_length_lt (hd : isWithin d p) (he : isWithin e p)
    (hlt : d.length < e.length) : isWithin d e := by
  have hep : e.toList <+: p.toList := isPrefix_of_isWithin he
  rcases isWithin_iff.mp hd with rfl | rfl | hd
  · exact isWithin_empty e
  · have := hep.length_le
    simp only [String.length_toList] at this
    omega
  · refine isWithin_iff.mpr (Or.inr (Or.inr (List.prefix_of_prefix_length_le hd hep ?_)))
    simp only [List.length_append, String.length_toList, List.length_singleton]
    omega

/-- Directories around one path that are of one length are the same. -/
theorem eq_of_isWithin_of_length_eq (hd : isWithin d p) (he : isWithin e p)
    (h : d.length = e.length) : d = e := by
  have hlen : d.toList.length = e.toList.length := by
    rw [String.length_toList, String.length_toList, h]
  have hle : d.toList <+: e.toList :=
    List.prefix_of_prefix_length_le (isPrefix_of_isWithin hd) (isPrefix_of_isWithin he)
      (Nat.le_of_eq hlen)
  exact String.toList_inj.mp (hle.eq_of_length hlen)

/-- **Of two directories around a path, the one that is no longer lies around the other.** -/
theorem isWithin_iff_length_le (hd : isWithin d p) (he : isWithin e p) :
    isWithin d e ↔ d.length ≤ e.length := by
  constructor
  · intro h
    have hle := (isPrefix_of_isWithin h).length_le
    rwa [String.length_toList, String.length_toList] at hle
  · intro hle
    rcases Nat.lt_or_eq_of_le hle with hlt | heq
    · exact isWithin_of_length_lt hd he hlt
    · obtain rfl := eq_of_isWithin_of_length_eq hd he heq
      exact isWithin_iff.mpr (Or.inr (Or.inl rfl))

/-! ## 2. The byte behind a root -/

/-- A text that begins with another is that one and the rest. -/
theorem exists_eq_append_of_prefix (h : r.toList <+: p.toList) : ∃ u, p = r ++ u := by
  obtain ⟨u, hu⟩ := h
  refine ⟨.ofList u, String.toList_inj.mp ?_⟩
  rw [String.toList_append, String.toList_ofList, hu]

/-- The byte behind a root is a slash if and only if a slash follows the root. -/
theorem append_slash_prefix_iff (r u : String) :
    r.toList ++ ['/'] <+: (r ++ u).toList ↔
      (r ++ u).toUTF8[r.utf8ByteSize]? = some '/'.toUInt8 := by
  rw [IsAscii.getElem?_toUTF8_append_eq_some_iff (by decide), String.toList_append,
    List.prefix_append_right_inj]
  cases u.toList with
  | nil => simp
  | cons c cs => simp [eq_comm]

/-- **Both tests agree.** -/
theorem isRootOf_eq_isWithin (r p : String) : isRootOf r p = isWithin r p := by
  rw [isRootOf, isWithin]
  refine congrArg _ (Bool.eq_iff_iff.mpr ?_)
  rw [Bool.and_eq_true, List.isPrefixOf_iff_prefix, List.isPrefixOf_iff_prefix, beq_iff_eq]
  constructor
  · rintro ⟨hbegins, hbyte⟩
    obtain ⟨u, rfl⟩ := exists_eq_append_of_prefix hbegins
    exact (append_slash_prefix_iff r u).mpr hbyte
  · intro h
    have hbegins : r.toList <+: p.toList := (List.prefix_append _ _).trans h
    obtain ⟨u, rfl⟩ := exists_eq_append_of_prefix hbegins
    exact ⟨hbegins, (append_slash_prefix_iff r u).mp h⟩

theorem directoriesWithin_eq (l : Layout) (r : String) :
    l.directoriesWithin r = l.directories.filter (isRootOf r) := by
  refine List.filter_congr fun d _ => ?_
  rw [isRootOf_eq_isWithin]

/-! ## 3. Segments -/

/-- A path that is written by its segments: the empty path, or nonempty segments with slashes
between them. -/
def IsPath (p : String) : Prop := ∃ way, (∀ s ∈ way, IsSegment s) ∧ pathOf way = p

/-- How deep a path lies below the root of the repository. -/
def depth (p : String) : Nat := (wayOf p).length

/-- The way to a directory begins every way to what lies below it. -/
theorem wayOf_prefix_of_isWithin (h : isWithin d p) : wayOf d <+: wayOf p := by
  rcases isWithin_iff.mp h with rfl | rfl | h
  · exact List.nil_prefix
  · exact List.prefix_rfl
  · obtain ⟨u, hu⟩ := h
    obtain rfl : p = d ++ "/" ++ .ofList u := by
      refine String.toList_inj.mp ?_
      rw [← hu]
      simp
    rw [wayOf_append_slash]
    exact List.prefix_append _ _

/-- What a way begins with lies around what it leads to. -/
theorem isWithin_pathOf_of_prefix (h : rs <+: ps) : isWithin (pathOf rs) (pathOf ps) := by
  obtain ⟨us, rfl⟩ := h
  by_cases hrs : rs = []
  · subst hrs
    exact isWithin_empty _
  by_cases hus : us = []
  · subst hus
    rw [List.append_nil]
    exact isWithin_iff.mpr (Or.inr (Or.inl rfl))
  refine isWithin_iff.mpr (Or.inr (Or.inr ?_))
  rw [pathOf_append hrs hus, String.toList_append, String.toList_append]
  exact List.prefix_append _ _

/-- **A path lies below a root if and only if it begins with the segments of the root.** -/
theorem isRootOf_iff_wayOf (hr : IsPath r) (hp : IsPath p) :
    isRootOf r p ↔ wayOf r <+: wayOf p := by
  rw [isRootOf_eq_isWithin]
  refine ⟨wayOf_prefix_of_isWithin, fun h => ?_⟩
  obtain ⟨rs, hrs, rfl⟩ := hr
  obtain ⟨ps, hps, rfl⟩ := hp
  rw [wayOf_pathOf hrs, wayOf_pathOf hps] at h
  exact isWithin_pathOf_of_prefix h

/-! ## 4. Roots around one path -/

/-- Of two roots, one lies below the other, and which one it is can be told by their lengths. -/
structure AreNested (r t : String) : Prop where
  comparable : isRootOf r t ∨ isRootOf t r
  /-- What is no longer lies around the other one; lengths may be counted in bytes. -/
  isRootOf_iff_size_le : isRootOf r t ↔ r.utf8ByteSize ≤ t.utf8ByteSize
  /-- They may be counted in characters as well. -/
  isRootOf_iff_length_le : isRootOf r t ↔ r.length ≤ t.length
  /-- The longer one is the deeper one. -/
  size_lt_iff : r.utf8ByteSize < t.utf8ByteSize ↔ depth r < depth t

/-- Texts that begin one another are ordered alike by bytes and by characters. -/
theorem size_le_iff_length_le (h : r.toList <+: t.toList ∨ t.toList <+: r.toList) :
    r.utf8ByteSize ≤ t.utf8ByteSize ↔ r.length ≤ t.length := by
  have hgrow (a u : String) : a.utf8ByteSize ≤ (a ++ u).utf8ByteSize ∧ a.length ≤ (a ++ u).length ∧
      ((a ++ u).utf8ByteSize ≤ a.utf8ByteSize ↔ (a ++ u).length ≤ a.length) := by
    have hzero : u.utf8ByteSize = 0 ↔ u.length = 0 :=
      String.utf8ByteSize_eq_zero_iff.trans String.length_eq_zero_iff.symm
    rw [String.utf8ByteSize_append, String.length_append]
    omega
  rcases h with h | h
  · obtain ⟨u, rfl⟩ := exists_eq_append_of_prefix h
    obtain ⟨hsize, hlength, -⟩ := hgrow r u
    exact iff_of_true hsize hlength
  · obtain ⟨u, rfl⟩ := exists_eq_append_of_prefix h
    exact (hgrow t u).2.2

/-- **Roots around one path are nested.** -/
theorem areNested_of_isRootOf (hr : IsPath r) (ht : IsPath t) (hrp : isRootOf r p)
    (htp : isRootOf t p) : AreNested r t := by
  rw [isRootOf_eq_isWithin] at hrp htp
  have hlists := List.prefix_or_prefix_of_prefix (isPrefix_of_isWithin hrp)
    (isPrefix_of_isWithin htp)
  have hsize := size_le_iff_length_le hlists
  have hsize' := size_le_iff_length_le hlists.symm
  have hrt : isRootOf r t ↔ r.length ≤ t.length := by
    rw [isRootOf_eq_isWithin]
    exact isWithin_iff_length_le hrp htp
  have htr : isRootOf t r ↔ t.length ≤ r.length := by
    rw [isRootOf_eq_isWithin]
    exact isWithin_iff_length_le htp hrp
  have hdepth : isRootOf t r ↔ depth t ≤ depth r := by
    rw [isRootOf_iff_wayOf ht hr]
    exact ⟨List.IsPrefix.length_le, List.prefix_of_prefix_length_le (wayOf_prefix_of_isWithin htp)
      (wayOf_prefix_of_isWithin hrp)⟩
  refine ⟨?_, hrt.trans hsize.symm, hrt, ?_⟩
  · rw [hrt, htr]
    exact Nat.le_total _ _
  · rw [← Nat.not_le, ← Nat.not_le, hsize', ← htr, hdepth]

/-- **What lies below a root is what begins with its segments.** -/
theorem isRootOf_segmentwise (l : Layout) (hp : IsPath p) (hr : IsPath r) (ht : IsPath t) :
    (isRootOf r p ↔ wayOf r <+: wayOf p) ∧
      l.directoriesWithin r = l.directories.filter (isRootOf r) ∧
      (isRootOf r p → isRootOf t p → AreNested r t) :=
  ⟨isRootOf_iff_wayOf hr hp, directoriesWithin_eq l r, areNested_of_isRootOf hr ht⟩

/-- Two roots around one path, and a sibling of the deeper one whose name begins alike. -/
theorem isRootOf_segmentwise_siblings :
    IsPath "services/über/a.py" ∧ IsPath "services/über" ∧ IsPath "services" ∧
      isRootOf "services/über" "services/über/a.py" ∧
      (Layout.mk "shop" []
        ["services", "services/über", "services/übergabe"] [] []).directoriesWithin
          "services/über" = ["services/über"] ∧
      AreNested "services/über" "services" := by
  have hp : IsPath "services/über/a.py" := ⟨["services", "über", "a.py"], by decide, by decide⟩
  have hr : IsPath "services/über" := ⟨["services", "über"], by decide, by decide⟩
  have ht : IsPath "services" := ⟨["services"], by decide, by decide⟩
  obtain ⟨hsegments, hdirectories, hnested⟩ := isRootOf_segmentwise
    (Layout.mk "shop" [] ["services", "services/über", "services/übergabe"] [] []) hp hr ht
  have hrp : isRootOf "services/über" "services/über/a.py" := hsegments.mpr (by decide)
  refine ⟨hp, hr, ht, hrp, ?_, hnested hrp (by decide)⟩
  rw [hdirectories]
  decide

end Codemap
