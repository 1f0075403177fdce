/-
# Types with brackets as labels

A type whose square brackets are balanced is characters and pairs of brackets, one within the other.
What its label should be is a matter of pairs: an empty pair is that of an array and stays, any
other holds arguments and becomes tildes, and so do angle brackets; what would break a line becomes
a blank, and everything else stays.  `Bracketed` is that reading, and `Bracketed.marks` has each
character with what it should become.

The label is written from left to right with a number in place of the pairs: that of the brackets
that are open and became tildes.  A bracket that is closed at once does not count when it opens, but
it counts when it closes, if the number is positive.  So an empty pair goes well outside of all
other pairs, and within another pair its closing bracket is taken for that of the other one.

Main statement: `typeText_bracketed`.  The label is what it should be exactly if no empty pair
stands within another, and it differs at closing brackets only.  The counterexample is a list of
arrays (`not_typeText_bracketed_arrays`).
-/
import Codemap.Diagram.Basic
import Mathlib.Data.List.Forall2
import Mathlib.Data.List.Infix

namespace Codemap.Diagram

open Codemap.Text

/-! ## 1. Texts with balanced brackets -/

/-- The square brackets of a text are balanced when `depth` of them are open before it: in the end
all are closed, and none is closed before it is opened. -/
def ClosesFrom (depth : Nat) (s : List Char) : Prop :=
  s.count ']' = s.count '[' + depth ∧ ∀ p ∈ s.inits, p.count ']' ≤ p.count '[' + depth

/-- The square brackets of a text are balanced. -/
def IsBalanced (s : List Char) : Prop := ClosesFrom 0 s

instance (s : List Char) : Decidable (IsBalanced s) := inferInstanceAs (Decidable (_ ∧ _))

/-- A text with balanced square brackets: nothing, or one that starts with a character that is no
bracket, or with a pair of brackets. -/
inductive Bracketed where
  | done
  | char (c : Char) (plain : c ≠ '[' ∧ c ≠ ']') (rest : Bracketed)
  | pair (inside rest : Bracketed)

namespace Bracketed

/-- Whether a text is nothing. -/
def isDone : Bracketed → Bool
  | done => true
  | _ => false

/-- What a character that is no square bracket should become. -/
def labelChar (c : Char) : Char :=
  if c == '<' || c == '>' then '~' else if c == '\n' || c == '\r' || c == '\t' then ' ' else c

/-- The characters of a text, each with what it should become. -/
def marks : Bracketed → List (Char × Char)
  | done => []
  | char c _ rest => (c, labelChar c) :: rest.marks
  | pair inside rest =>
    (if inside.isDone then [('[', '['), (']', ']')] else ('[', '~') :: inside.marks ++ [(']', '~')])
      ++ rest.marks

/-- The text. -/
def source (t : Bracketed) : List Char := t.marks.map Prod.fst

/-- The label that it should have. -/
def label (t : Bracketed) : List Char := t.marks.map Prod.snd

/-- No empty pair stands within another one; `within` tells whether the text itself does. -/
def emptiesAreOuter (within : Bool) : Bracketed → Bool
  | done => true
  | char _ _ rest => rest.emptiesAreOuter within
  | pair inside rest =>
    (if inside.isDone then !within else inside.emptiesAreOuter true) && rest.emptiesAreOuter within

theorem source_char_append {c : Char} (plain : c ≠ '[' ∧ c ≠ ']') (rest : Bracketed)
    (s : List Char) : (char c plain rest).source ++ s = c :: (rest.source ++ s) := rfl

theorem label_char_append {c : Char} (plain : c ≠ '[' ∧ c ≠ ']') (rest : Bracketed)
    (x : List Char) : (char c plain rest).label ++ x = labelChar c :: (rest.label ++ x) := rfl

theorem source_pair_append (inside rest : Bracketed) (s : List Char) :
    (pair inside rest).source ++ s = '[' :: (inside.source ++ ']' :: (rest.source ++ s)) := by
  cases inside <;> simp [source, marks, isDone]

theorem label_pair_append {inside : Bracketed} (h : inside.isDone = false) (rest : Bracketed)
    (x : List Char) :
    (pair inside rest).label ++ x = '~' :: (inside.label ++ '~' :: (rest.label ++ x)) := by
  simp [label, marks, h]

theorem eq_done_of_isDone {t : Bracketed} (h : t.isDone = true) : t = done := by
  cases t with
  | done => rfl
  | char => exact absurd h Bool.false_ne_true
  | pair => exact absurd h Bool.false_ne_true

/-- What is not empty does not start with a closing bracket. -/
theorem head?_source_append {t : Bracketed} (h : t.isDone = false) (s : List Char) :
    (t.source ++ s).head? ≠ some ']' := by
  cases t with
  | done => exact absurd h (by decide)
  | char c plain rest => simpa [source_char_append] using plain.2
  | pair inside rest => simp [source_pair_append]

end Bracketed

open Bracketed

/-- What follows an opening bracket has one bracket more to close. -/
theorem ClosesFrom.opening {depth : Nat} {s : List Char} (h : ClosesFrom depth ('[' :: s)) :
    ClosesFrom (depth + 1) s := by
  obtain ⟨hall, hinits⟩ := h
  refine ⟨by simp at hall; omega, fun p hp => ?_⟩
  have := hinits ('[' :: p) (by simpa [List.mem_inits] using hp)
  simp at this
  omega

/-- A closing bracket closes one, so there was one. -/
theorem ClosesFrom.closing {depth : Nat} {s : List Char} (h : ClosesFrom depth (']' :: s)) :
    ∃ d, depth = d + 1 ∧ ClosesFrom d s := by
  obtain ⟨hall, hinits⟩ := h
  obtain ⟨d, rfl⟩ : ∃ d, depth = d + 1 := by
    have := hinits [']'] (by simp [List.mem_inits])
    exact ⟨depth - 1, by simp at this; omega⟩
  refine ⟨d, rfl, by simp at hall; omega, fun p hp => ?_⟩
  have := hinits (']' :: p) (by simpa [List.mem_inits] using hp)
  simp at this
  omega

theorem ClosesFrom.plain {depth : Nat} {c : Char} {s : List Char} (hc : c ≠ '[' ∧ c ≠ ']')
    (h : ClosesFrom depth (c :: s)) : ClosesFrom depth s := by
  obtain ⟨hall, hinits⟩ := h
  simp only [List.count_cons_of_ne hc.1, List.count_cons_of_ne hc.2] at hall
  refine ⟨hall, fun p hp => ?_⟩
  have := hinits (c :: p) (by simpa [List.mem_inits] using hp)
  simpa only [List.count_cons_of_ne hc.1, List.count_cons_of_ne hc.2] using this

/-- A text reads as a balanced one up to its end, or up to the bracket that closes what was open
before it. -/
theorem exists_source_append {depth : Nat} {s : List Char} (h : ClosesFrom depth s) :
    ∃ (t : Bracketed) (r : List Char), s = t.source ++ r ∧
      ((depth = 0 ∧ r = []) ∨ ∃ d r', depth = d + 1 ∧ r = ']' :: r' ∧ ClosesFrom d r') := by
  match s with
  | [] =>
    have hdepth : depth = 0 := by simpa [ClosesFrom] using h.1.symm
    exact ⟨done, [], rfl, Or.inl ⟨hdepth, rfl⟩⟩
  | c :: s =>
    by_cases hopen : c = '['
    · subst hopen
      -- the pair, and then what follows it, which is shorter still
      obtain ⟨inside, r, hs, ⟨h0, -⟩ | ⟨d, r, hd, rfl, hr⟩⟩ := exists_source_append h.opening
      · exact absurd h0 (Nat.succ_ne_zero depth)
      · obtain rfl := Nat.succ.inj hd
        have hlt : r.length < s.length := by
          rw [hs, List.length_append, List.length_cons]
          omega
        obtain ⟨rest, r', rfl, hrest⟩ := exists_source_append hr
        exact ⟨pair inside rest, r', by rw [source_pair_append, hs], hrest⟩
    · by_cases hclose : c = ']'
      · subst hclose
        obtain ⟨d, rfl, hs⟩ := h.closing
        exact ⟨done, _, rfl, Or.inr ⟨d, s, rfl, rfl, hs⟩⟩
      · obtain ⟨rest, r, rfl, hr⟩ := exists_source_append (h.plain ⟨hopen, hclose⟩)
        exact ⟨char c ⟨hopen, hclose⟩ rest, r, rfl, hr⟩
termination_by s.length
decreasing_by all_goals simp only [List.length_cons]; omega

theorem exists_source_eq {s : List Char} (h : IsBalanced s) : ∃ t : Bracketed, t.source = s := by
  obtain ⟨t, r, rfl, ⟨-, rfl⟩ | ⟨d, r', hd, -⟩⟩ := exists_source_append h
  · exact ⟨t, (List.append_nil _).symm⟩
  · exact absurd hd.symm (Nat.succ_ne_zero d)

/-! ## 2. What is written -/

section Written

variable (depth : Nat) (s : List Char)

theorem typeTextFrom_char {c : Char} (hc : c ≠ '[' ∧ c ≠ ']') :
    typeTextFrom depth (c :: s) = labelChar c :: typeTextFrom depth s := by
  rw [typeTextFrom, labelChar, beq_eq_false_iff_ne.mpr hc.1, beq_eq_false_iff_ne.mpr hc.2]
  split
  · rfl
  · rw [Bool.false_and, Bool.false_and, if_neg Bool.false_ne_true, if_neg Bool.false_ne_true]
    split <;> rfl

theorem typeTextFrom_opening {s : List Char} (h : s.head? ≠ some ']') :
    typeTextFrom depth ('[' :: s) = '~' :: typeTextFrom (depth + 1) s := by
  simp [typeTextFrom, h]

theorem typeTextFrom_empty :
    typeTextFrom depth ('[' :: ']' :: s) = '[' :: typeTextFrom depth (']' :: s) := by
  conv_lhs => rw [typeTextFrom]
  simp

theorem typeTextFrom_closing :
    typeTextFrom (depth + 1) (']' :: s) = '~' :: typeTextFrom depth s := by
  simp [typeTextFrom]

theorem typeTextFrom_closing_zero :
    typeTextFrom 0 (']' :: s) = ']' :: typeTextFrom 0 s := by
  simp [typeTextFrom]

end Written

/-- **A text with balanced brackets is written as it should be exactly if its empty pairs are outer
ones**, and what follows it is then written as if it stood alone. -/
theorem typeTextFrom_source_append_iff (t : Bracketed) (depth : Nat) (s x : List Char) :
    typeTextFrom depth (t.source ++ s) = t.label ++ x ↔
      t.emptiesAreOuter (0 < depth) ∧ typeTextFrom depth s = x := by
  induction t generalizing depth s x with
  | done => simp [source, label, marks, emptiesAreOuter]
  | char c plain rest ih =>
    rw [source_char_append, label_char_append, typeTextFrom_char depth _ plain,
      List.cons_inj_right, ih, emptiesAreOuter]
  | pair inside rest ihInside ihRest =>
    rw [source_pair_append]
    cases hdone : inside.isDone with
    | true =>
      obtain rfl := eq_done_of_isDone hdone
      have hlabel : (pair done rest).label ++ x = '[' :: ']' :: (rest.label ++ x) := rfl
      have hsource : done.source ++ ']' :: (rest.source ++ s) = ']' :: (rest.source ++ s) := rfl
      rw [hsource, hlabel, typeTextFrom_empty, List.cons_inj_right]
      cases depth with
      | zero =>
        rw [typeTextFrom_closing_zero, List.cons_inj_right, ihRest]
        simp [emptiesAreOuter, isDone]
      | succ depth =>
        -- the closing bracket is taken for that of the pair around
        rw [typeTextFrom_closing]
        simp [emptiesAreOuter, isDone]
    | false =>
      rw [typeTextFrom_opening depth (head?_source_append hdone _), label_pair_append hdone,
        List.cons_inj_right, ihInside, typeTextFrom_closing, List.cons_inj_right, ihRest]
      simp [emptiesAreOuter, hdone, and_assoc]

/-- Whatever is written for a text, it is what it should be but for closing brackets. -/
theorem exists_typeTextFrom_source_append (t : Bracketed) (depth : Nat) (s : List Char) :
    ∃ depth' out, typeTextFrom depth (t.source ++ s) = out ++ typeTextFrom depth' s ∧
      List.Forall₂ (fun m c => m.1 ≠ ']' → c = m.2) t.marks out := by
  induction t generalizing depth s with
  | done => exact ⟨depth, [], rfl, List.Forall₂.nil⟩
  | char c plain rest ih =>
    obtain ⟨depth', out, hout, hmarks⟩ := ih depth s
    refine ⟨depth', labelChar c :: out, ?_, List.Forall₂.cons (fun _ => rfl) hmarks⟩
    rw [source_char_append, typeTextFrom_char depth _ plain, hout, List.cons_append]
  | pair inside rest ihInside ihRest =>
    have hclosing : ∀ depth, ∃ depth' c, ∀ r,
        typeTextFrom depth (']' :: r) = c :: typeTextFrom depth' r := by
      intro depth
      cases depth with
      | zero => exact ⟨0, ']', typeTextFrom_closing_zero⟩
      | succ depth => exact ⟨depth, '~', typeTextFrom_closing depth⟩
    rw [source_pair_append]
    cases hdone : inside.isDone with
    | true =>
      obtain rfl := eq_done_of_isDone hdone
      obtain ⟨depth', c, hc⟩ := hclosing depth
      obtain ⟨depth'', out, hout, hmarks⟩ := ihRest depth' s
      refine ⟨depth'', '[' :: c :: out, ?_, ?_⟩
      · rw [List.cons_append, List.cons_append, ← hout, ← hc]
        exact typeTextFrom_empty depth _
      · exact List.Forall₂.cons (fun _ => rfl) (List.Forall₂.cons (fun h => absurd rfl h) hmarks)
    | false =>
      obtain ⟨depth₁, out₁, hout₁, hmarks₁⟩ := ihInside (depth + 1) (']' :: (rest.source ++ s))
      obtain ⟨depth₂, c, hc⟩ := hclosing depth₁
      obtain ⟨depth₃, out₂, hout₂, hmarks₂⟩ := ihRest depth₂ s
      refine ⟨depth₃, '~' :: out₁ ++ c :: out₂, ?_, ?_⟩
      · rw [typeTextFrom_opening depth (head?_source_append hdone _), hout₁, hc, hout₂]
        simp
      · simp only [marks, hdone, Bool.false_eq_true, if_false, List.append_assoc]
        exact List.Forall₂.cons (fun _ => rfl)
          (List.rel_append hmarks₁ (List.Forall₂.cons (fun h => absurd rfl h) hmarks₂))

/-- **The label of a type with balanced brackets** is what it should be exactly if no empty pair
stands within another, and in any case it is so but for closing brackets. -/
theorem typeText_bracketed {s : List Char} (hs : IsBalanced s) (htrim : trim s = s) :
    (∃ t : Bracketed, t.source = s) ∧ ∀ t : Bracketed, t.source = s →
      (typeText s = t.label ↔ t.emptiesAreOuter false) ∧
        List.Forall₂ (fun m c => m.1 ≠ ']' → c = m.2) t.marks (typeText s) := by
  refine ⟨exists_source_eq hs, ?_⟩
  rintro t rfl
  rw [typeText, htrim]
  constructor
  · have h := typeTextFrom_source_append_iff t 0 [] []
    simpa [typeTextFrom] using h
  · obtain ⟨depth', out, hout, hmarks⟩ := exists_typeTextFrom_source_append t 0 []
    rw [List.append_nil] at hout
    rwa [hout, typeTextFrom, List.append_nil]

/-- A type with brackets one within the other, and an empty pair beside them. -/
def gridType : List Char := "map[string][]<Row\t[K, [V]]>".toList

theorem typeText_bracketed_grid :
    (IsBalanced gridType ∧ trim gridType = gridType) ∧
      (∃ t : Bracketed, t.source = gridType) ∧ ∀ t : Bracketed, t.source = gridType →
        (typeText gridType = t.label ↔ t.emptiesAreOuter false) ∧
          List.Forall₂ (fun m c => m.1 ≠ ']' → c = m.2) t.marks (typeText gridType) := by
  have hbalanced : IsBalanced gridType := by decide +kernel
  have htrim : trim gridType = gridType := by decide +kernel
  exact ⟨⟨hbalanced, htrim⟩, typeText_bracketed hbalanced htrim⟩

example : typeText gridType = "map~string~[]~Row ~K, ~V~~~".toList := by decide +kernel

/-- The text of a word before another text, brackets left out. -/
def Bracketed.word (s : String) (rest : Bracketed) : Bracketed :=
  s.toList.foldr (fun c t => if h : c ≠ '[' ∧ c ≠ ']' then .char c h t else t) rest

/-- A list of arrays. -/
def listOfArrays : Bracketed := .word "List" (.pair (.word "User" (.pair .done .done)) .done)

/-- **The array in a list of arrays is taken apart**: the closing bracket of the list is left, and
that of the array is not. -/
theorem not_typeText_bracketed_arrays :
    listOfArrays.source = "List[User[]]".toList ∧ IsBalanced listOfArrays.source ∧
      trim listOfArrays.source = listOfArrays.source ∧
      listOfArrays.label = "List~User[]~".toList ∧
      typeText listOfArrays.source ≠ listOfArrays.label := by
  decide +kernel

end Codemap.Diagram
