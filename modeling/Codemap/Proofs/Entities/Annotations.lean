/-
# The name within an annotation

An annotation is made of dotted names, bare or quoted, by subscripts.  `innermostType` looks for the
name that is meant in the text: it goes on between the first `[` and the last `]` as long as there
is something between them, and takes the first argument of what is left, without quotation marks and
without the modules before the name.

The first `[` and the last `]` belong to one subscript if each level has one.  If two subscripts
stand side by side they do not, and what is left may hold brackets whose partners are gone.  What is
left is the text that has as many `[` before it as `]` behind it, and nothing more between brackets
(`IsHeart`).

Main statement: `innermostType_iff`.  Whatever the text, going inwards comes to an end.  It finds a
part of a name exactly if no bracket is left in the last part of the first argument; and it finds
the last part of the one name that single subscripts stand around.  The counterexample is a union of
two collections (`not_innermostType_union`).
-/
import Codemap.Entities.Python
import Codemap.Proofs.Text.Between

namespace Codemap.Entities.Python

open Codemap.Facts Codemap.Text

/-! ## 1. Annotations -/

/-- A character of an identifier: no blank, no quotation mark, and none of the marks that an
annotation is made of. -/
def isWordChar (c : Char) : Bool :=
  !isBlank c && !isQuote c && !(['.', ',', '[', ']'].contains c)

theorem isWordChar_iff {c : Char} : isWordChar c = true ↔
    isBlank c = false ∧ isQuote c = false ∧ c ∉ ['.', ',', '[', ']'] := by
  simp [isWordChar, and_assoc]

/-- A part of a dotted name. -/
structure Segment where
  text : List Char
  ne_nil : text ≠ []
  isWordChar_of_mem : ∀ c ∈ text, isWordChar c = true

/-- A dotted name, bare or quoted. -/
structure DottedName where
  modules : List Segment
  member : Segment
  quote : Option Char
  isQuote_of_mem : ∀ c ∈ quote, isQuote c = true

namespace DottedName

/-- The parts of a name. -/
def segments (n : DottedName) : List Segment := n.modules ++ [n.member]

/-- The modules before a name, with the dot after each. -/
def qualifier (n : DottedName) : List Char := n.modules.flatMap fun m => m.text ++ ['.']

/-- The text of a name. -/
def text (n : DottedName) : List Char :=
  n.quote.toList ++ (n.qualifier ++ n.member.text ++ n.quote.toList)

end DottedName

mutual

/-- An annotation: a name, or a name with arguments. -/
inductive TypeHint where
  | name (n : DottedName)
  | subscript (w : DottedName) (arguments : Arguments)

/-- The arguments of a subscript. -/
inductive Arguments where
  | last (a : TypeHint)
  | cons (a : TypeHint) (rest : Arguments)

end

/-- What the text of an annotation is made of. -/
inductive Token where
  | name (n : DottedName)
  | opening
  | closing
  | comma

/-- The text of a token. -/
def Token.text : Token → List Char
  | .name n => n.text
  | .opening => ['[']
  | .closing => [']']
  | .comma => [',', ' ']

mutual

/-- The tokens of an annotation. -/
def TypeHint.tokens : TypeHint → List Token
  | .name n => [.name n]
  | .subscript w arguments => .name w :: .opening :: (arguments.tokens ++ [.closing])

/-- The tokens of arguments. -/
def Arguments.tokens : Arguments → List Token
  | .last a => a.tokens
  | .cons a rest => a.tokens ++ .comma :: rest.tokens

end

/-- The text of tokens. -/
def textOf (ts : List Token) : List Char := ts.flatMap Token.text

/-- The text of an annotation. -/
def TypeHint.text (a : TypeHint) : List Char := textOf a.tokens

@[simp]
theorem textOf_append (ts ts' : List Token) : textOf (ts ++ ts') = textOf ts ++ textOf ts' :=
  List.flatMap_append

@[simp]
theorem textOf_cons (t : Token) (ts : List Token) : textOf (t :: ts) = t.text ++ textOf ts :=
  List.flatMap_cons

@[simp]
theorem textOf_nil : textOf [] = [] := rfl

/-! ## 2. Going inwards -/

/-- What stands within the brackets of a text. -/
def argument? (type : List Char) : Option (List Char) := between? '[' ']' (trim type)

theorem argument?_eq (type : List Char) : argument? type = between? '[' ']' type :=
  between?_trim (by decide) (by decide)

theorem length_lt_of_argument? {type inner : List Char} (h : argument? type = some inner) :
    inner.length < type.length :=
  length_of_between? (argument?_eq type ▸ h)

theorem innermost_of_some {type inner : List Char} (h : argument? type = some inner) :
    innermost type = innermost inner := by
  rw [argument?] at h
  rw [innermost]
  split
  next t ht => rw [Option.some.inj (ht.symm.trans h)]
  next ht => exact absurd (ht.symm.trans h).symm (Option.some_ne_none inner)

theorem innermost_of_none {type : List Char} (h : argument? type = none) :
    innermost type = trim type := by
  rw [argument?] at h
  rw [innermost]
  split
  next t ht => exact absurd (ht.symm.trans h) (Option.some_ne_none t)
  · rfl

/-- What is left is reached when there is nothing more between brackets. -/
theorem innermost_of_mem_eval {type inner : List Char}
    (h : inner ∈ StateTransition.eval argument? type) : innermost type = trim inner := by
  obtain ⟨hsame, hend⟩ := eq_of_mem_eval (fun _ _ => innermost_of_some) h
  rw [hsame, innermost_of_none hend]

/-- What is left within brackets: there are as many `[` before it as `]` behind it, and nothing more
stands between brackets in it. -/
structure IsHeart (s u w v : List Char) : Prop where
  eq : s = u ++ '[' :: (w ++ ']' :: v)
  count_eq : u.count '[' = v.count ']'
  between?_eq : between? '[' ']' w = none

/-- **What going inwards leaves is what the counts say.** -/
theorem innermost_of_isHeart {s u w v : List Char} (h : IsHeart s u w v) :
    innermost s = trim w := by
  obtain ⟨rfl, hcount, hw⟩ := h
  induction hn : u.count '[' generalizing u v with
  | zero =>
    have hu := List.count_eq_zero.mp hn
    have hv := List.count_eq_zero.mp (hcount.symm.trans hn)
    have hbetween := between?_append hu hv w
    rw [innermost_of_some ((argument?_eq _).trans hbetween),
      innermost_of_none ((argument?_eq w).trans hw)]
  | succ n ih =>
    -- the first `[` and the last `]` are taken away, one of those counted on either side
    have hu : '[' ∈ u := List.count_pos_iff.mp (by omega)
    have hv : ']' ∈ v := List.count_pos_iff.mp (by omega)
    obtain ⟨a, u', rfl, ha⟩ := List.eq_append_cons_of_mem hu
    obtain ⟨v', b, rfl, hb⟩ := exists_append_cons_of_mem hv
    have hu' : u'.count '[' = n := by
      rw [List.count_append, List.count_cons_self, List.count_eq_zero.mpr ha] at hn
      omega
    have hv' : v'.count ']' = n := by
      rw [hn, List.count_append, List.count_cons_self, List.count_eq_zero.mpr hb] at hcount
      omega
    have hbetween := between?_append ha hb (u' ++ '[' :: (w ++ ']' :: v'))
    have hs : (a ++ '[' :: u') ++ '[' :: (w ++ ']' :: (v' ++ ']' :: b)) =
        a ++ '[' :: ((u' ++ '[' :: (w ++ ']' :: v')) ++ ']' :: b) := by simp
    rw [hs, innermost_of_some ((argument?_eq _).trans hbetween)]
    exact ih (hu'.trans hv'.symm) hu'

/-- Something is left within brackets if there is something between them. -/
theorem exists_isHeart {s t : List Char} (h : between? '[' ']' s = some t) :
    ∃ u w v, IsHeart s u w v := by
  have hlt := length_of_between? h
  obtain ⟨a, b, hs, ha, hb⟩ := between?_eq_some_iff.mp h
  cases ht : between? '[' ']' t with
  | none =>
    exact ⟨a, t, b, hs, by rw [List.count_eq_zero.mpr ha, List.count_eq_zero.mpr hb], ht⟩
  | some r =>
    obtain ⟨u, w, v, heq, hcount, hw⟩ := exists_isHeart ht
    refine ⟨a ++ '[' :: u, w, v ++ ']' :: b, by simp [hs, heq], ?_, hw⟩
    simp only [List.count_append, List.count_cons_self]
    rw [List.count_eq_zero.mpr ha, List.count_eq_zero.mpr hb, hcount]
    omega
termination_by s.length

/-! ## 3. Names -/

/-- A quotation mark is no blank, and none of the marks that an annotation is made of. -/
theorem isQuote_not_mark {c : Char} (h : isQuote c = true) :
    isBlank c = false ∧ c ∉ ['.', ',', '[', ']'] := by
  constructor
  · simp only [isQuote, Bool.or_eq_true, beq_iff_eq] at h
    rcases h with (h | h) | h <;> simp [isBlank, h]
  · intro hmem
    have hmarks : (['.', ',', '[', ']'].all fun c => !isQuote c) = true := by decide
    have hmark := List.all_eq_true.mp hmarks c hmem
    rw [h] at hmark
    exact Bool.false_ne_true hmark

theorem DottedName.text_ne_nil (n : DottedName) : n.text ≠ [] := by
  simp [DottedName.text, n.member.ne_nil]

theorem isQuote_of_mem_toList {n : DottedName} {c : Char} (h : c ∈ n.quote.toList) :
    isQuote c = true :=
  n.isQuote_of_mem c (Option.mem_toList.mp h)

/-- A name holds no blanks, no commas and no brackets. -/
theorem not_mark_of_mem_text {n : DottedName} {c : Char} (h : c ∈ n.text) :
    isBlank c = false ∧ c ∉ [',', '[', ']'] := by
  have hquote : c ∈ n.quote.toList → isBlank c = false ∧ c ∉ [',', '[', ']'] := fun hc =>
    ⟨(isQuote_not_mark (isQuote_of_mem_toList hc)).1,
      fun hmem => (isQuote_not_mark (isQuote_of_mem_toList hc)).2 (.tail _ hmem)⟩
  have hsegment : ∀ m : Segment, c ∈ m.text → isBlank c = false ∧ c ∉ [',', '[', ']'] :=
    fun m hc => ⟨(isWordChar_iff.mp (m.isWordChar_of_mem c hc)).1,
      fun hmem => (isWordChar_iff.mp (m.isWordChar_of_mem c hc)).2.2 (.tail _ hmem)⟩
  simp only [DottedName.text, DottedName.qualifier, List.mem_append, List.mem_flatMap,
    List.mem_singleton] at h
  rcases h with hc | (⟨m, -, hc | rfl⟩ | hc) | hc
  · exact hquote hc
  · exact hsegment m hc
  · decide
  · exact hsegment _ hc
  · exact hquote hc

theorem opening_not_mem_text (n : DottedName) : '[' ∉ n.text := fun h =>
  absurd (by decide) (not_mark_of_mem_text h).2

/-- A mark in the middle stays, and what stands before it has no part in what stays behind it. -/
theorem unquote_append_cons {c : Char} (hblank : isBlank c = false) (hquote : isQuote c = false)
    (s t : List Char) :
    ∃ s', unquote (s ++ c :: t) = s' ++ c :: dropEndWhile isQuote (dropEndWhile isBlank t) :=
  ⟨(s.dropWhile isBlank).dropWhile isQuote,
    by rw [unquote, trim, strip_append_cons hblank, strip_append_cons hquote]⟩

/-- A character that stands after the last dot is still there without the quotation marks. -/
theorem mem_lastPart_unquote {c : Char} (hblank : isBlank c = false) (hquote : isQuote c = false)
    (hdot : c ≠ '.') {s : List Char} (h : c ∈ lastPart '.' s) : c ∈ lastPart '.' (unquote s) := by
  obtain ⟨a, b, rfl, hb⟩ := (mem_lastPart_iff hdot).mp h
  obtain ⟨a', hunquote⟩ := unquote_append_cons hblank hquote a b
  exact (mem_lastPart_iff hdot).mpr ⟨a', _, hunquote, fun hmem =>
    hb (mem_of_mem_dropEndWhile (mem_of_mem_dropEndWhile hmem))⟩

/-- The name behind its modules is found, whatever stands before them; and a name without modules is
found if nothing stands before it. -/
theorem lastPart_unquote_append (n : DottedName) {s : List Char} (h : s = [] ∨ n.modules ≠ []) :
    lastPart '.' (unquote (s ++ n.text)) = n.member.text := by
  have hmember : ∀ c ∈ n.member.text, isQuote c = false := fun c hc =>
    (isWordChar_iff.mp (n.member.isWordChar_of_mem c hc)).2.1
  have hdot : '.' ∉ n.member.text := fun hc =>
    (isWordChar_iff.mp (n.member.isWordChar_of_mem _ hc)).2.2 List.mem_cons_self
  have hquote : ∀ c ∈ n.quote.toList, isQuote c = true := fun c => isQuote_of_mem_toList
  have hhead : ∀ c ∈ n.member.text.head?, isQuote c = false := fun c hc =>
    hmember c (List.mem_of_mem_head? hc)
  have hlast : ∀ c ∈ n.member.text.getLast?, isQuote c = false := fun c hc =>
    hmember c (List.mem_of_mem_getLast? hc)
  rcases List.eq_nil_or_concat n.modules with hmodules | ⟨ms, m, hmodules⟩
  · obtain rfl : s = [] := h.resolve_right fun hne => hne hmodules
    have hblank : ∀ c ∈ n.text, isBlank c = false := fun c hc => (not_mark_of_mem_text hc).1
    have htext : n.text = n.quote.toList ++ (n.member.text ++ n.quote.toList) := by
      simp [DottedName.text, DottedName.qualifier, hmodules]
    rw [List.nil_append, unquote, trim_of_forall hblank, htext, strip,
      List.dropWhile_append_of_pos hquote, ← strip, strip_append hhead hlast hquote,
      lastPart_of_not_mem hdot]
  · have htext : s ++ n.text = (s ++ (n.quote.toList ++ (ms.flatMap fun m => m.text ++ ['.']) ++
        m.text)) ++ '.' :: (n.member.text ++ n.quote.toList) := by
      simp [DottedName.text, DottedName.qualifier, hmodules]
    have hblank : ∀ c ∈ (n.member.text ++ n.quote.toList).getLast?, isBlank c = false := by
      intro c hc
      refine (not_mark_of_mem_text (n := n) ?_).1
      rw [DottedName.text, List.append_assoc]
      exact List.mem_append_right _ (List.mem_append_right _ (List.mem_of_mem_getLast? hc))
    obtain ⟨s', hunquote⟩ := unquote_append_cons (c := '.') (by decide) (by decide)
      (s ++ (n.quote.toList ++ (ms.flatMap fun m => m.text ++ ['.']) ++ m.text))
      (n.member.text ++ n.quote.toList)
    rw [htext, hunquote, dropEndWhile_eq_self hblank, dropEndWhile_append hlast hquote,
      lastPart_append_cons hdot]

/-! ## 4. Rows -/

open Token

/-- Which tokens may follow each other: a name begins what is opened and what follows a comma, and
what is closed is closed further or followed by a comma. -/
def mayPrecede : Token → Token → Bool
  | opening, .name _ | comma, .name _ => true
  | .name _, opening | .name _, closing | .name _, comma => true
  | closing, closing | closing, comma => true
  | _, _ => false

/-- Each token may follow the one before it. -/
def IsFluent (ts : List Token) : Prop := ts.IsChain fun t t' => mayPrecede t t' = true

/-- Tokens that may stand between brackets. -/
def IsRow (ts : List Token) : Prop := IsFluent (opening :: (ts ++ [closing]))

theorem isFluent_append_cons {ts ts' : List Token} {t : Token} :
    IsFluent (ts ++ t :: ts') ↔ IsFluent (ts ++ [t]) ∧ IsFluent (t :: ts') :=
  List.isChain_split

/-- What stands before a comma and what stands behind it may stand between brackets. -/
theorem isRow_append_comma {ts ts' : List Token} :
    IsRow (ts ++ comma :: ts') ↔ IsRow ts ∧ IsRow ts' := by
  have hcomma : ∀ t, mayPrecede t comma = mayPrecede t closing := by
    intro t; cases t <;> rfl
  have hcomma' : ∀ t, mayPrecede comma t = mayPrecede opening t := by
    intro t; cases t <;> rfl
  have hend : IsFluent (opening :: ts ++ [comma]) ↔ IsFluent (opening :: ts ++ [closing]) := by
    simp only [IsFluent, List.isChain_append]
    simp [hcomma]
  have hstart : IsFluent (comma :: (ts' ++ [closing])) ↔
      IsFluent (opening :: (ts' ++ [closing])) := by
    simp only [IsFluent, List.isChain_cons, hcomma']
  have hrow : opening :: (ts ++ comma :: ts' ++ [closing]) =
      opening :: ts ++ comma :: (ts' ++ [closing]) := by simp
  rw [IsRow, hrow, isFluent_append_cons, hend, hstart]
  exact Iff.rfl

/-- What may stand between brackets may do so behind a name. -/
theorem isRow_subscript (w : DottedName) {ts : List Token} (h : IsRow ts) :
    IsRow (.name w :: opening :: (ts ++ [closing])) := by
  have hrow : opening :: (.name w :: opening :: (ts ++ [closing]) ++ [closing]) =
      [opening, .name w] ++ opening :: (ts ++ closing :: [closing]) := by simp
  rw [IsRow, hrow, isFluent_append_cons]
  refine ⟨by simp [IsFluent, mayPrecede], ?_⟩
  rw [← List.cons_append, isFluent_append_cons]
  exact ⟨h, by simp [IsFluent, mayPrecede]⟩

mutual

theorem TypeHint.isRow_tokens : ∀ a : TypeHint, IsRow a.tokens
  | .name n => by simp [IsRow, IsFluent, TypeHint.tokens, mayPrecede]
  | .subscript w arguments => isRow_subscript w arguments.isRow_tokens

theorem Arguments.isRow_tokens : ∀ arguments : Arguments, IsRow arguments.tokens
  | .last a => a.isRow_tokens
  | .cons a rest => isRow_append_comma.mpr ⟨a.isRow_tokens, rest.isRow_tokens⟩

end

/-- What stands between two brackets of an annotation may stand there. -/
theorem isRow_of_infix {ts a b : List Token} {r : TypeHint}
    (h : r.tokens = a ++ opening :: (ts ++ closing :: b)) : IsRow ts := by
  have hinfix : opening :: (ts ++ [closing]) <:+: r.tokens :=
    ⟨a, b, by rw [h]; simp⟩
  have hchain := r.isRow_tokens.infix (List.infix_append [opening] r.tokens [closing])
  exact hchain.infix hinfix

/-- A row begins with a name. -/
theorem IsRow.exists_cons {ts : List Token} (h : IsRow ts) : ∃ n ts', ts = .name n :: ts' := by
  cases ts with
  | nil => exact absurd (List.isChain_cons_cons.mp h).1 (by decide)
  | cons t ts =>
    have hrel := (List.isChain_cons_cons.mp h).1
    cases t with
    | name n => exact ⟨n, ts, rfl⟩
    | opening | closing | comma => exact absurd hrel (by decide)

/-- A row ends with a closing bracket, or with a name that stands behind an opening bracket, behind
a comma or alone. -/
theorem IsRow.exists_concat {ts : List Token} (h : IsRow ts) :
    (∃ ts', ts = ts' ++ [closing]) ∨ ∃ n ts', ts = ts' ++ [Token.name n] ∧
      ∀ t ∈ ts'.getLast?, t = opening ∨ t = comma := by
  rcases List.eq_nil_or_concat ts with rfl | ⟨ts', t, rfl⟩
  · exact absurd (List.isChain_cons_cons.mp h).1 (by decide)
  rw [IsRow, List.concat_eq_append, List.append_assoc, List.singleton_append, ← List.cons_append,
    IsFluent, List.isChain_append_cons_cons] at h
  obtain ⟨hbefore, hrel, -⟩ := h
  cases t with
  | closing => exact Or.inl ⟨ts', List.concat_eq_append⟩
  | opening | comma => exact absurd hrel (by decide)
  | name n =>
    refine Or.inr ⟨n, ts', List.concat_eq_append, fun t ht => ?_⟩
    have hlast := (List.isChain_append.mp hbefore).2.2 t
      (by rw [List.getLast?_cons, ht]; rfl) (.name n) rfl
    cases t with
    | opening => exact Or.inl rfl
    | comma => exact Or.inr rfl
    | name n' | closing => exact absurd hlast Bool.false_ne_true

/-! ## 5. The text of a row -/

/-- The character that a mark of an annotation begins with. -/
def Token.mark? : Token → Option Char
  | .name _ => none
  | opening => some '['
  | closing => some ']'
  | comma => some ','

section Mark

variable {m : Token} {c : Char} (hm : m.mark? = some c)

include hm

/-- A mark stands in no text but its own. -/
theorem eq_of_mem_text {t : Token} (hc : c ∈ t.text) : t = m := by
  cases m with
  | name n => exact absurd hm.symm (Option.some_ne_none c)
  | opening | closing | comma =>
    obtain rfl := Option.some.inj hm
    cases t with
    | name n => exact absurd (by decide) (not_mark_of_mem_text hc).2
    | opening | closing | comma => first | rfl | exact absurd hc (by decide)

/-- A mark begins with its character and does not have it again. -/
theorem exists_text_eq_cons : ∃ r, m.text = c :: r ∧ c ∉ r := by
  cases m with
  | name n => exact absurd hm.symm (Option.some_ne_none c)
  | opening | closing | comma =>
    obtain rfl := Option.some.inj hm
    exact ⟨_, rfl, by decide⟩

/-- **A mark in the text of tokens is one of the tokens.** -/
theorem exists_of_textOf_eq {ts : List Token} {u r : List Char} (h : textOf ts = u ++ c :: r) :
    ∃ ts₁ ts₂, ts = ts₁ ++ m :: ts₂ ∧ u = textOf ts₁ ∧ c :: r = m.text ++ textOf ts₂ := by
  induction ts generalizing u with
  | nil => exact absurd h (by simp [textOf])
  | cons t ts ih =>
    -- what does not hold the character stands before it as a whole
    have hskip {x u : List Char} (hx : c ∉ x) (h : x ++ textOf ts = u ++ c :: r) :
        ∃ ts₁ ts₂, ts = ts₁ ++ m :: ts₂ ∧ u = x ++ textOf ts₁ ∧
          c :: r = m.text ++ textOf ts₂ := by
      rcases List.append_eq_append_iff.mp h with ⟨a, rfl, ha⟩ | ⟨a, rfl, ha⟩
      · obtain ⟨ts₁, ts₂, hts, rfl, hr⟩ := ih ha
        exact ⟨ts₁, ts₂, hts, rfl, hr⟩
      · cases a with
        | nil =>
          obtain ⟨ts₁, ts₂, hts, hnil, hr⟩ := ih (u := []) ha.symm
          exact ⟨ts₁, ts₂, hts, by rw [← hnil]; simp, hr⟩
        | cons d a =>
          obtain ⟨rfl, -⟩ := List.cons.inj ha
          exact absurd List.mem_append_cons_self hx
    rw [textOf_cons] at h
    by_cases hc : c ∈ t.text
    · obtain rfl := eq_of_mem_text hm hc
      obtain ⟨x, htext, hx⟩ := exists_text_eq_cons hm
      cases u with
      | nil => exact ⟨[], ts, rfl, rfl, h.symm⟩
      | cons d u =>
        rw [htext] at h
        obtain ⟨rfl, htail⟩ := List.cons.inj h
        obtain ⟨ts₁, ts₂, rfl, rfl, hr⟩ := hskip hx htail
        exact ⟨t :: ts₁, ts₂, rfl, by rw [textOf_cons, htext]; rfl, hr⟩
    · obtain ⟨ts₁, ts₂, rfl, rfl, hr⟩ := hskip hc h
      exact ⟨t :: ts₁, ts₂, rfl, (textOf_cons t ts₁).symm, hr⟩

end Mark

namespace IsRow

variable {ts : List Token} (h : IsRow ts)

include h

/-- A row has no blanks at its ends. -/
theorem trim_textOf : trim (textOf ts) = textOf ts := by
  refine strip_eq_self (fun c hc => ?_) fun c hc => ?_
  · obtain ⟨n, ts', rfl⟩ := h.exists_cons
    rw [textOf_cons, Token.text, List.head?_append_of_ne_nil _ n.text_ne_nil] at hc
    exact (not_mark_of_mem_text (List.mem_of_mem_head? hc)).1
  · rcases h.exists_concat with ⟨ts', rfl⟩ | ⟨n, ts', rfl, -⟩
    · obtain rfl : ']' = c := by simpa [Token.text] using hc
      decide
    · rw [textOf_append, textOf_cons, textOf_nil, List.append_nil, Token.text,
        List.getLast?_append_of_ne_nil _ n.text_ne_nil] at hc
      exact (not_mark_of_mem_text (List.mem_of_mem_getLast? hc)).1

/-- The first argument of a row ends at the first comma. -/
theorem exists_firstArgument : ∃ ts', IsRow ts' ∧ comma ∉ ts' ∧ ts' ⊆ ts ∧
    (textOf ts).takeWhile (· != ',') = textOf ts' := by
  have hnot {ts : List Token} (hts : comma ∉ ts) :
      ∀ c ∈ textOf ts, (c != ',') = true := by
    intro c hc
    obtain ⟨t, ht, hc⟩ := List.mem_flatMap.mp hc
    rw [bne_iff_ne]
    rintro rfl
    exact hts (eq_of_mem_text (m := comma) rfl hc ▸ ht)
  by_cases hcomma : comma ∈ ts
  · obtain ⟨ts₁, ts₂, rfl, hts₁⟩ := List.eq_append_cons_of_mem hcomma
    refine ⟨ts₁, (isRow_append_comma.mp h).1, hts₁, List.subset_append_left _ _, ?_⟩
    rw [textOf_append, List.takeWhile_append_of_pos (hnot hts₁)]
    simp [Token.text]
  · exact ⟨ts, h, hcomma, List.Subset.refl ts, List.takeWhile_eq_self_iff.mpr (hnot hcomma)⟩

end IsRow

theorem dot_not_mem_text {n : DottedName} (h : n.modules = []) : '.' ∉ n.text := by
  intro hc
  have hquote : '.' ∉ n.quote.toList := fun hc =>
    (isQuote_not_mark (isQuote_of_mem_toList hc)).2 List.mem_cons_self
  have hmember : '.' ∉ n.member.text := fun hc =>
    (isWordChar_iff.mp (n.member.isWordChar_of_mem _ hc)).2.2 List.mem_cons_self
  simp [DottedName.text, DottedName.qualifier, h, hquote, hmember] at hc

/-- A first argument without brackets after its last dot gives a name. -/
theorem exists_lastPart_unquote {ts : List Token} (h : IsRow ts) (hcomma : comma ∉ ts)
    (hbracket : ∀ c ∈ lastPart '.' (textOf ts), c ≠ '[' ∧ c ≠ ']') :
    ∃ n, .name n ∈ ts ∧ lastPart '.' (unquote (textOf ts)) = n.member.text := by
  rcases h.exists_concat with ⟨ts', rfl⟩ | ⟨n, ts', rfl, hbefore⟩
  · have hclosing : ']' ∈ lastPart '.' (textOf (ts' ++ [closing])) :=
      (mem_lastPart_iff (by decide)).mpr ⟨textOf ts', [], textOf_append ts' _, List.not_mem_nil⟩
    exact absurd rfl (hbracket _ hclosing).2
  · refine ⟨n, List.mem_append_right ts' List.mem_cons_self, ?_⟩
    have htext : textOf (ts' ++ [.name n]) = textOf ts' ++ n.text := by simp [Token.text]
    rw [htext] at hbracket ⊢
    refine lastPart_unquote_append n (or_iff_not_imp_right.mpr fun hmodules => ?_)
    rw [not_not] at hmodules
    rcases List.eq_nil_or_concat ts' with rfl | ⟨ts'', t, rfl⟩
    · rfl
    -- a bracket before a name without modules would stand after the last dot
    rcases hbefore t (by simp) with rfl | rfl
    · have hopening : '[' ∈ lastPart '.' (textOf (ts''.concat opening) ++ n.text) :=
        (mem_lastPart_iff (by decide)).mpr
          ⟨textOf ts'', n.text, by simp [Token.text], dot_not_mem_text hmodules⟩
      exact absurd rfl (hbracket _ hopening).1
    · exact absurd (by simp) hcomma

/-- What gives a part of a name has no brackets after its last dot. -/
theorem not_bracket_of_unquote {f : List Char} {s : Segment}
    (h : lastPart '.' (unquote f) = s.text) : ∀ c ∈ lastPart '.' f, c ≠ '[' ∧ c ≠ ']' := by
  intro c hc
  have hword (hblank : isBlank c = false) (hquote : isQuote c = false) (hdot : c ≠ '.') :
      c ∉ ['.', ',', '[', ']'] := by
    have hmem := mem_lastPart_unquote hblank hquote hdot hc
    rw [h] at hmem
    exact (isWordChar_iff.mp (s.isWordChar_of_mem c hmem)).2.2
  constructor <;> rintro rfl <;> exact hword (by decide) (by decide) (by decide) (by decide)

/-! ## 6. What is found -/

/-- Something is left within the brackets of a subscript. -/
theorem exists_isHeart_subscript (w : DottedName) (arguments : Arguments) :
    ∃ u inner v, IsHeart (TypeHint.subscript w arguments).text u inner v := by
  have htext : (TypeHint.subscript w arguments).text =
      w.text ++ '[' :: (textOf arguments.tokens ++ ']' :: []) := by
    simp [TypeHint.text, TypeHint.tokens, Token.text]
  rw [htext]
  exact exists_isHeart (between?_append (opening_not_mem_text w) List.not_mem_nil _)

/-- What is left of an annotation is a row, and its first argument says what is found. -/
theorem innermostType_of_isHeart {a : TypeHint} {u w v : List Char} (h : IsHeart a.text u w v) :
    ∃ ts, IsRow ts ∧ comma ∉ ts ∧ ts ⊆ a.tokens ∧ w.takeWhile (· != ',') = textOf ts ∧
      innermostType a.text = lastPart '.' (unquote (textOf ts)) := by
  obtain ⟨before, rest, htokens, -, hrest⟩ := exists_of_textOf_eq (m := opening) rfl h.eq
  obtain ⟨inner, behind, rfl, rfl, -⟩ :=
    exists_of_textOf_eq (m := closing) rfl (List.cons.inj hrest).2.symm
  have hrow := isRow_of_infix htokens
  obtain ⟨ts, hts, hcomma, hsub, htext⟩ := hrow.exists_firstArgument
  refine ⟨ts, hts, hcomma, fun t ht => ?_, htext, ?_⟩
  · rw [htokens]
    exact List.mem_append_right _ (.tail _ (List.mem_append_left _ (hsub ht)))
  · rw [innermostType, innermost_of_isHeart h, hrow.trim_textOf, htext]

/-- Single subscripts are taken off. -/
theorem innermost_singles (ws : List DottedName) (n : DottedName) :
    innermost (ws.foldr (fun w a => .subscript w (.last a)) (TypeHint.name n)).text = n.text := by
  induction ws with
  | nil =>
    have htext : (TypeHint.name n).text = n.text := by
      simp [TypeHint.text, TypeHint.tokens, Token.text]
    rw [List.foldr_nil, htext,
      innermost_of_none ((argument?_eq _).trans (between?_of_not_mem (opening_not_mem_text n)))]
    exact trim_of_forall fun c hc => (not_mark_of_mem_text hc).1
  | cons w ws ih =>
    have hbetween := between?_append (opening_not_mem_text w) (List.not_mem_nil (a := ']'))
      (ws.foldr (fun w a => .subscript w (.last a)) (TypeHint.name n)).text
    rw [← ih]
    refine innermost_of_some ((argument?_eq _).trans (Eq.trans (congrArg _ ?_) hbetween))
    simp [TypeHint.text, TypeHint.tokens, Arguments.tokens, Token.text]

theorem innermostType_singles (ws : List DottedName) (n : DottedName) :
    innermostType (ws.foldr (fun w a => .subscript w (.last a)) (TypeHint.name n)).text =
      n.member.text := by
  have hcomma : n.text.takeWhile (· != ',') = n.text :=
    List.takeWhile_eq_self_iff.mpr fun c hc => bne_iff_ne.mpr fun h =>
      absurd (by simp [h]) (not_mark_of_mem_text hc).2
  have hname := lastPart_unquote_append n (Or.inl (Eq.refl []))
  rwa [innermostType, innermost_singles, hcomma, ← List.nil_append n.text]

/-- **Going inwards comes to an end, and finds a part of a name exactly if no bracket is left after
the last dot of the first argument.**  Of the one name that single subscripts stand around, it finds
the last part. -/
theorem innermostType_iff (type : List Char) (a : TypeHint) (ws : List DottedName)
    (n : DottedName) :
    (∃ inner ∈ StateTransition.eval argument? type,
      innermostType type = lastPart '.' (unquote ((trim inner).takeWhile (· != ',')))) ∧
    ((∃ m, .name m ∈ a.tokens ∧ ∃ s ∈ m.segments, innermostType a.text = s.text) ↔
      ∀ u w v, IsHeart a.text u w v →
        ∀ c ∈ lastPart '.' (w.takeWhile (· != ',')), c ≠ '[' ∧ c ≠ ']') ∧
    innermostType (ws.foldr (fun w a => .subscript w (.last a)) (TypeHint.name n)).text =
      n.member.text := by
  refine ⟨?_, ⟨?_, fun h => ?_⟩, innermostType_singles ws n⟩
  · obtain ⟨inner, hinner⟩ := exists_mem_eval (fun _ _ => length_lt_of_argument?) type
    exact ⟨inner, hinner, by rw [innermostType, innermost_of_mem_eval hinner]⟩
  · rintro ⟨m, -, s, -, hfound⟩ u w v hheart
    obtain ⟨ts, -, -, -, htext, hts⟩ := innermostType_of_isHeart hheart
    rw [htext]
    exact not_bracket_of_unquote (hts.symm.trans hfound)
  · cases a with
    | name m =>
      exact ⟨m, List.mem_cons_self, m.member, List.mem_append_right _ List.mem_cons_self,
        innermostType_singles [] m⟩
    | subscript w arguments =>
      obtain ⟨u, inner, v, hheart⟩ := exists_isHeart_subscript w arguments
      obtain ⟨ts, hrow, hcomma, hsub, hinner, hts⟩ := innermostType_of_isHeart hheart
      have hbracket := h u inner v hheart
      rw [hinner] at hbracket
      obtain ⟨m, hm, hfound⟩ := exists_lastPart_unquote hrow hcomma hbracket
      exact ⟨m, hsub hm, m.member, List.mem_append_right _ List.mem_cons_self, hts.trans hfound⟩

/-- A bare name without modules. -/
def DottedName.bare (s : String) (hne : s.toList ≠ []) (h : s.toList.all isWordChar = true) :
    DottedName :=
  ⟨[], ⟨s.toList, hne, List.all_eq_true.mp h⟩, none, nofun⟩

/-- A union of two collections of one thing. -/
def unionOfCollections : TypeHint :=
  let task : TypeHint := .name (.bare "Task" (by decide) (by decide))
  .subscript (.bare "Union" (by decide) (by decide))
    (.cons (.subscript (.bare "List" (by decide) (by decide)) (.last task))
      (.last (.subscript (.bare "Set" (by decide) (by decide)) (.last task))))

/-- **What is found in a union of collections has a bracket at its end.** -/
theorem not_innermostType_union : ¬ ∀ a : TypeHint,
    ∃ n, .name n ∈ a.tokens ∧ ∃ s ∈ n.segments, innermostType a.text = s.text := by
  intro h
  have hheart : IsHeart unionOfCollections.text "Union[List".toList "Task], Set[Task".toList
      "]".toList := ⟨by decide, by decide, by decide⟩
  have hfound : innermostType unionOfCollections.text = "Task]".toList := by
    rw [innermostType, innermost_of_isHeart hheart]
    decide
  obtain ⟨n, -, s, -, hs⟩ := h unionOfCollections
  have hmem : ']' ∈ s.text := by
    rw [← hs, hfound]
    decide
  exact absurd (s.isWordChar_of_mem _ hmem) (by decide)

end Codemap.Entities.Python
