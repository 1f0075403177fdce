/-
# Pieces of texts

A separator ends a piece, so the pieces of a text are those before a separator and those after it
(`pieces_append`), and pieces are read back from a text that they are joined to
(`pieces_join`).  A text with a separator is cut at the last one (`exists_append_cons_of_mem`),
and an ending without separators lies behind it (`suffix_append_cons_iff`); so the last part holds
what no separator follows (`mem_lastPart_iff`).
-/
import Codemap.Text.Pieces
import Mathlib.Data.List.Basic

namespace Codemap.Text

/-! ## 1. Pieces -/

section Pieces

variable {p : Char → Bool} {sep : Char}

theorem pieces_cons_of_pos {c : Char} (hc : p c = true) (s : List Char) :
    pieces p (c :: s) = [] :: pieces p s := by
  rw [pieces, if_pos hc]

/-- A character that does not separate stands at the front of the first piece. -/
theorem exists_pieces_cons {c : Char} (hc : p c = false) (s : List Char) :
    ∃ q qs, pieces p s = q :: qs ∧ pieces p (c :: s) = (c :: q) :: qs := by
  induction s generalizing c with
  | nil => exact ⟨[], [], rfl, by simp [pieces, hc]⟩
  | cons d s ih =>
    have hne : ∃ q qs, pieces p (d :: s) = q :: qs := by
      cases hd : p d with
      | true => exact ⟨[], pieces p s, pieces_cons_of_pos hd s⟩
      | false =>
        obtain ⟨q, qs, -, h⟩ := ih hd
        exact ⟨d :: q, qs, h⟩
    obtain ⟨q, qs, h⟩ := hne
    refine ⟨q, qs, h, ?_⟩
    rw [pieces, if_neg (by simp [hc]), h]

/-- **A separator ends a piece**: the pieces before it and those after it are the pieces. -/
theorem pieces_append {c : Char} (hc : p c = true) (a b : List Char) :
    pieces p (a ++ c :: b) = pieces p a ++ pieces p b := by
  induction a with
  | nil => exact pieces_cons_of_pos hc b
  | cons x a ih =>
    cases hx : p x with
    | true =>
      rw [List.cons_append, pieces_cons_of_pos hx, ih, pieces_cons_of_pos hx, List.cons_append]
    | false =>
      obtain ⟨q, qs, hq, h⟩ := exists_pieces_cons hx (a ++ c :: b)
      obtain ⟨r, rs, hr, hcons⟩ := exists_pieces_cons hx a
      rw [ih, hr, List.cons_append] at hq
      obtain ⟨rfl, rfl⟩ := List.cons.inj hq
      rw [List.cons_append, h, hcons, List.cons_append]

/-- A text without separators is one piece. -/
theorem pieces_of_forall {a : List Char} (ha : ∀ x ∈ a, p x = false) : pieces p a = [a] := by
  induction a with
  | nil => rfl
  | cons x a ih =>
    obtain ⟨hx, ha⟩ := List.forall_mem_cons.mp ha
    rw [pieces, ih ha, hx]
    rfl

/-- The first piece ends at the first separator. -/
theorem pieces_append_cons {c : Char} {a : List Char} (ha : ∀ x ∈ a, p x = false)
    (hc : p c = true) (b : List Char) : pieces p (a ++ c :: b) = a :: pieces p b := by
  rw [pieces_append hc, pieces_of_forall ha, List.singleton_append]

/-- Pieces hold no separators. -/
theorem eq_false_of_mem_pieces {s a : List Char} (ha : a ∈ pieces p s) : ∀ c ∈ a, p c = false := by
  induction s generalizing a with
  | nil =>
    obtain rfl := List.mem_singleton.mp ha
    exact fun c hc => absurd hc List.not_mem_nil
  | cons x s ih =>
    cases hx : p x with
    | true =>
      rw [pieces_cons_of_pos hx] at ha
      rcases List.mem_cons.mp ha with rfl | ha
      · exact fun c hc => absurd hc List.not_mem_nil
      · exact ih ha
    | false =>
      obtain ⟨q, qs, hq, h⟩ := exists_pieces_cons hx s
      rw [h] at ha
      rw [hq] at ih
      rcases List.mem_cons.mp ha with rfl | ha
      · exact List.forall_mem_cons.mpr ⟨hx, ih List.mem_cons_self⟩
      · exact ih (List.mem_cons_of_mem q ha)

/-- There is one piece more than there are separators. -/
theorem length_pieces (s : List Char) : (pieces p s).length = s.countP p + 1 := by
  induction s with
  | nil => rfl
  | cons x s ih =>
    cases hx : p x with
    | true => rw [pieces_cons_of_pos hx, List.length_cons, ih, List.countP_cons_of_pos hx]
    | false =>
      obtain ⟨q, qs, hq, h⟩ := exists_pieces_cons hx s
      rw [h, List.length_cons, ← List.length_cons , ← hq, ih,
        List.countP_cons_of_neg (by simp [hx])]

theorem pieces_ne_nil (s : List Char) : pieces p s ≠ [] := by
  rw [← List.length_pos_iff, length_pieces]
  exact Nat.succ_pos _

/-- Characters that do not separate stand at the front of the first piece. -/
theorem exists_pieces_append {a : List Char} (ha : ∀ x ∈ a, p x = false) (s : List Char) :
    ∃ q qs, pieces p s = q :: qs ∧ pieces p (a ++ s) = (a ++ q) :: qs := by
  induction a with
  | nil =>
    obtain ⟨q, qs, h⟩ := List.exists_cons_of_ne_nil (pieces_ne_nil s)
    exact ⟨q, qs, h, h⟩
  | cons x a ih =>
    obtain ⟨hx, ha⟩ := List.forall_mem_cons.mp ha
    obtain ⟨q, qs, hq, h⟩ := ih ha
    obtain ⟨r, rs, hr, hcons⟩ := exists_pieces_cons hx (a ++ s)
    rw [hr] at h
    obtain ⟨rfl, rfl⟩ := List.cons.inj h
    exact ⟨q, rs, hq, hcons⟩

/-- Characters that do not separate stand at the end of the last piece. -/
theorem exists_pieces_append_right {t : List Char} (ht : ∀ x ∈ t, p x = false) (s : List Char) :
    ∃ qs q, pieces p s = qs ++ [q] ∧ pieces p (s ++ t) = qs ++ [q ++ t] := by
  induction s with
  | nil => exact ⟨[], [], rfl, pieces_of_forall ht⟩
  | cons x s ih =>
    obtain ⟨qs, q, hs, hst⟩ := ih
    cases hx : p x with
    | true =>
      refine ⟨[] :: qs, q, ?_, ?_⟩
      · rw [pieces_cons_of_pos hx, hs, List.cons_append]
      · rw [List.cons_append, pieces_cons_of_pos hx, hst, List.cons_append]
    | false =>
      obtain ⟨r, rs, hr, hcons⟩ := exists_pieces_cons hx s
      obtain ⟨r', rs', hr', hcons'⟩ := exists_pieces_cons hx (s ++ t)
      rw [hs] at hr
      rw [hst] at hr'
      rw [hcons, List.cons_append, hcons']
      cases qs with
      | nil =>
        obtain ⟨rfl, rfl⟩ := List.cons.inj hr
        obtain ⟨rfl, rfl⟩ := List.cons.inj hr'
        exact ⟨[], x :: q, rfl, rfl⟩
      | cons a qs =>
        obtain ⟨rfl, rfl⟩ := List.cons.inj hr
        obtain ⟨rfl, rfl⟩ := List.cons.inj hr'
        exact ⟨(x :: a) :: qs, q, rfl, rfl⟩

/-- What parts are joined to holds separators and what the parts hold. -/
theorem mem_join {c : Char} {parts : List (List Char)} (h : c ∈ join [sep] parts) :
    c = sep ∨ ∃ a ∈ parts, c ∈ a := by
  induction parts with
  | nil => simp [join] at h
  | cons a parts ih =>
    cases parts with
    | nil => exact Or.inr ⟨a, List.mem_cons_self, by simpa [join] using h⟩
    | cons b parts =>
      simp only [join, List.intercalate_cons_cons, List.mem_append, List.mem_singleton] at h ih
      rcases h with (h | h) | h
      · exact Or.inr ⟨a, List.mem_cons_self, h⟩
      · exact Or.inl h
      · rcases ih h with hc | ⟨part, hpart, hc⟩
        · exact Or.inl hc
        · exact Or.inr ⟨part, List.mem_cons_of_mem a hpart, hc⟩

theorem join_concat {parts : List (List Char)} (hne : parts ≠ []) (a : List Char) :
    join [sep] (parts ++ [a]) = join [sep] parts ++ sep :: a := by
  induction parts with
  | nil => exact absurd rfl hne
  | cons b parts ih =>
    cases parts with
    | nil => simp [join]
    | cons c parts =>
      have ih := ih (List.cons_ne_nil c parts)
      simp only [join, List.cons_append, List.intercalate_cons_cons] at ih ⊢
      rw [ih]
      simp

/-- **Joined pieces are read back**, if there are some and none of them holds a separator. -/
theorem pieces_join (hsep : p sep = true) {parts : List (List Char)} (hne : parts ≠ [])
    (h : ∀ a ∈ parts, ∀ c ∈ a, p c = false) : pieces p (join [sep] parts) = parts := by
  induction parts with
  | nil => exact absurd rfl hne
  | cons a parts ih =>
    obtain ⟨ha, hparts⟩ := List.forall_mem_cons.mp h
    cases parts with
    | nil => simpa [join] using pieces_of_forall ha
    | cons b parts =>
      rw [join, List.intercalate_cons_cons, List.append_assoc, List.singleton_append,
        pieces_append_cons ha hsep]
      exact congrArg (a :: ·) (ih (List.cons_ne_nil b parts) hparts)

/-- Pieces stay where separators are exchanged for separators. -/
theorem pieces_map {f : Char → Char} (hp : ∀ c, p (f c) = p c) (hf : ∀ c, p c = false → f c = c)
    (s : List Char) : pieces p (s.map f) = pieces p s := by
  induction s with
  | nil => rfl
  | cons c s ih =>
    cases hc : p c with
    | true => rw [List.map_cons, pieces_cons_of_pos (by simp [hp, hc]), pieces_cons_of_pos hc, ih]
    | false => rw [List.map_cons, hf c hc, pieces, pieces, ih]

theorem piecesAt_join {parts : List (List Char)} (hne : parts ≠ []) (h : ∀ a ∈ parts, sep ∉ a) :
    piecesAt sep (join [sep] parts) = parts := by
  refine pieces_join (p := (· == sep)) (beq_self_eq_true sep) hne fun a ha c hc => ?_
  rw [beq_eq_false_iff_ne]
  rintro rfl
  exact h a ha hc

/-- A text without the separator is one piece. -/
theorem piecesAt_of_not_mem {a : List Char} (ha : sep ∉ a) : piecesAt sep a = [a] :=
  pieces_of_forall fun _ hc => beq_eq_false_iff_ne.mpr fun h => ha (h ▸ hc)

/-- What follows the last separator is the last piece. -/
theorem piecesAt_append_cons {b : List Char} (hb : sep ∉ b) (a : List Char) :
    piecesAt sep (a ++ sep :: b) = piecesAt sep a ++ [b] := by
  rw [← piecesAt_of_not_mem hb]
  exact pieces_append (p := (· == sep)) (beq_self_eq_true sep) a b

theorem replaceChar_of_forall {a : List Char} (ha : ∀ x ∈ a, p x = false) (d : Char) :
    replaceChar p d a = a := by
  refine (List.map_congr_left fun x hx => ?_).trans (List.map_id a)
  rw [ha x hx]
  rfl

/-- What parts are joined by is exchanged, if none of them holds such a character. -/
theorem replaceChar_join (hsep : p sep = true) (d : Char) {parts : List (List Char)}
    (h : ∀ a ∈ parts, ∀ c ∈ a, p c = false) :
    replaceChar p d (join [sep] parts) = join [d] parts := by
  induction parts with
  | nil => rfl
  | cons a parts ih =>
    obtain ⟨ha, hparts⟩ := List.forall_mem_cons.mp h
    have ha' : replaceChar p d a = a := replaceChar_of_forall ha d
    cases parts with
    | nil => simpa [join] using ha'
    | cons b parts =>
      have ih := ih hparts
      simp only [replaceChar, join, List.intercalate_cons_cons, List.map_append, List.map_cons,
        List.map_nil, hsep, if_pos] at ha' ih ⊢
      rw [ha', ih]

end Pieces

/-! ## 2. Cuts -/

/-- The parts that a cut gives make up the text. -/
theorem eq_of_cutFirst {sep : Char} {s a b : List Char} (h : cutFirst sep s = some (a, b)) :
    s = a ++ sep :: b := by
  induction s generalizing a b with
  | nil => simp [cutFirst] at h
  | cons c s ih =>
    rw [cutFirst] at h
    split at h
    next hc =>
      obtain ⟨rfl, rfl⟩ := Prod.mk.inj (Option.some.inj h)
      rw [eq_of_beq hc, List.nil_append]
    next =>
      simp only [Option.map_eq_some_iff, Prod.mk.injEq, Prod.exists] at h
      obtain ⟨x, y, hxy, rfl, rfl⟩ := h
      rw [ih hxy, List.cons_append]

/-- A cut is made where the separator occurs first. -/
theorem cutFirst_append_cons {sep : Char} {a : List Char} (ha : sep ∉ a) (b : List Char) :
    cutFirst sep (a ++ sep :: b) = some (a, b) := by
  induction a with
  | nil => simp [cutFirst]
  | cons c a ih =>
    rw [List.mem_cons, not_or] at ha
    obtain ⟨hc, ha⟩ := ha
    rw [List.cons_append, cutFirst, ih ha, if_neg (by simpa using Ne.symm hc)]
    rfl

theorem cutFirst_eq_some_iff {sep : Char} {s a b : List Char} :
    cutFirst sep s = some (a, b) ↔ s = a ++ sep :: b ∧ sep ∉ a := by
  constructor
  · intro h
    have hs := eq_of_cutFirst h
    obtain ⟨x, y, hxy, hx⟩ := List.eq_append_cons_of_mem (hs ▸ List.mem_append_cons_self)
    have hcut := cutFirst_append_cons hx y
    rw [← hxy, h] at hcut
    obtain ⟨rfl, rfl⟩ := Prod.mk.inj (Option.some.inj hcut)
    exact ⟨hs, hx⟩
  · rintro ⟨rfl, ha⟩
    exact cutFirst_append_cons ha b

/-- A cut at the last occurrence gives what follows the separator, if that does not hold it. -/
theorem cutLast_append_cons {sep : Char} {b : List Char} (hb : sep ∉ b) (a : List Char) :
    cutLast sep (a ++ sep :: b) = some (a, b) := by
  have hreverse : (a ++ sep :: b).reverse = b.reverse ++ sep :: a.reverse := by simp
  rw [cutLast, hreverse, cutFirst_append_cons (by simpa using hb)]
  simp

theorem cutFirst_of_not_mem {sep : Char} {s : List Char} (h : sep ∉ s) : cutFirst sep s = none := by
  induction s with
  | nil => rfl
  | cons c s ih =>
    simp only [List.mem_cons, not_or] at h
    simp [cutFirst, Ne.symm h.1, ih h.2]

theorem cutLast_of_not_mem {sep : Char} {s : List Char} (h : sep ∉ s) : cutLast sep s = none := by
  rw [cutLast, cutFirst_of_not_mem (by simpa using h)]
  rfl

/-- A text that holds a separator is what stands before the last one and what follows it. -/
theorem exists_append_cons_of_mem {sep : Char} {s : List Char} (h : sep ∈ s) :
    ∃ a b, s = a ++ sep :: b ∧ sep ∉ b := by
  obtain ⟨b, a, hs, hb⟩ := List.eq_append_cons_of_mem (List.mem_reverse.mpr h)
  refine ⟨a.reverse, b.reverse, ?_, by simpa using hb⟩
  simpa using congrArg List.reverse hs

/-- An ending without separators begins after the last one. -/
theorem suffix_append_cons_iff {sep : Char} {t : List Char} (ht : sep ∉ t) (a b : List Char) :
    t <:+ a ++ sep :: b ↔ t <:+ b := by
  constructor
  · intro h
    rcases List.suffix_or_suffix_of_suffix h (List.suffix_append a (sep :: b)) with h | h
    · rcases List.suffix_cons_iff.mp h with h | h
      · exact absurd (h ▸ List.mem_cons_self) ht
      · exact h
    · exact absurd (h.subset List.mem_cons_self) ht
  · exact fun h => (h.trans (List.suffix_cons sep b)).trans (List.suffix_append a _)

theorem lastPart_of_not_mem {sep : Char} {s : List Char} (h : sep ∉ s) : lastPart sep s = s := by
  rw [lastPart, piecesAt_of_not_mem h]
  rfl

theorem lastPart_append_cons {sep : Char} {t : List Char} (ht : sep ∉ t) (s : List Char) :
    lastPart sep (s ++ sep :: t) = t := by
  rw [lastPart, piecesAt_append_cons ht, List.getLastD_concat]

/-- What stands before a separator does not matter for the last part. -/
theorem lastPart_append (sep : Char) (s t : List Char) :
    lastPart sep (s ++ sep :: t) = lastPart sep t := by
  by_cases h : sep ∈ t
  · obtain ⟨a, b, rfl, hb⟩ := exists_append_cons_of_mem h
    have hsplit : s ++ sep :: (a ++ sep :: b) = (s ++ sep :: a) ++ sep :: b := by simp
    rw [hsplit, lastPart_append_cons hb, lastPart_append_cons hb]
  · rw [lastPart_append_cons h, lastPart_of_not_mem h]

/-- The last part holds what no separator follows. -/
theorem mem_lastPart_iff {sep c : Char} {s : List Char} (hc : c ≠ sep) :
    c ∈ lastPart sep s ↔ ∃ a b, s = a ++ c :: b ∧ sep ∉ b := by
  by_cases hs : sep ∈ s
  · obtain ⟨r, t, rfl, ht⟩ := exists_append_cons_of_mem hs
    rw [lastPart_append_cons ht]
    constructor
    · intro h
      obtain ⟨a, b, rfl⟩ := List.append_of_mem h
      exact ⟨r ++ sep :: a, b, by simp, fun hb => ht (List.mem_append_right a (.tail c hb))⟩
    · rintro ⟨a, b, h, hb⟩
      have hsuffix : c :: b <:+ r ++ sep :: t := h ▸ List.suffix_append a (c :: b)
      have hnot : sep ∉ c :: b := fun hmem => (List.mem_cons.mp hmem).elim hc.symm hb
      exact ((suffix_append_cons_iff hnot r t).mp hsuffix).subset List.mem_cons_self
  · rw [lastPart_of_not_mem hs]
    constructor
    · intro h
      obtain ⟨a, b, rfl⟩ := List.append_of_mem h
      exact ⟨a, b, rfl, fun hb => hs (List.mem_append_right a (.tail c hb))⟩
    · rintro ⟨a, b, rfl, -⟩
      exact List.mem_append_cons_self

theorem before?_eq_some_iff {tail s a : List Char} : before? tail s = some a ↔ s = a ++ tail := by
  rw [before?]
  constructor
  · intro h
    split at h
    next hsuffix =>
      obtain ⟨b, rfl⟩ := List.isSuffixOf_iff_suffix.mp hsuffix
      simpa using h
    next => simp at h
  · rintro rfl
    simp

theorem eq_of_cutLast {sep : Char} {s a b : List Char} (h : cutLast sep s = some (a, b)) :
    s = a ++ sep :: b := by
  simp only [cutLast, Option.map_eq_some_iff, Prod.mk.injEq, Prod.exists] at h
  obtain ⟨x, y, hxy, rfl, rfl⟩ := h
  have hs := congrArg List.reverse (eq_of_cutFirst hxy)
  simpa using hs

theorem cutLast_eq_some_iff {sep : Char} {s a b : List Char} :
    cutLast sep s = some (a, b) ↔ s = a ++ sep :: b ∧ sep ∉ b := by
  constructor
  · intro h
    have hs := eq_of_cutLast h
    obtain ⟨x, y, hxy, hy⟩ := exists_append_cons_of_mem (hs ▸ List.mem_append_cons_self)
    have hcut := cutLast_append_cons hy x
    rw [← hxy, h] at hcut
    obtain ⟨rfl, rfl⟩ := Prod.mk.inj (Option.some.inj hcut)
    exact ⟨hs, hy⟩
  · rintro ⟨rfl, hb⟩
    exact cutLast_append_cons hb a

end Codemap.Text
