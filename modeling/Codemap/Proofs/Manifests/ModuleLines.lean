/-
# The lines of module files

A module file is written in directives: a keyword and a row of words on one line, or a keyword and
rows between round brackets.  One line names the module itself, and behind two slashes there may be
comments, on lines of their own or at the ends of others.

The reader takes one line after the other, and what it makes of a line hangs on the first word and
on what follows it at once.  There is one lemma below for each form of line, with and without a
comment.
-/
import Codemap.Manifests.GoModule
import Codemap.Proofs.Text.Lines

namespace Codemap.Manifests.GoModule

open Codemap.Text

/-! ## 1. The language -/

/-- A word without blanks and round brackets, in which no comment starts.  The keywords that the
reader knows are none. -/
structure Word where
  text : List Char
  ne_nil : text ≠ [] := by decide
  plain : ∀ c ∈ text, isBlank c = false ∧ c ≠ '(' ∧ c ≠ ')' := by decide
  uncommented : occursIn commentMark text = false := by decide
  ne_module : text ≠ "module".toList := by decide
  ne_require : text ≠ "require".toList := by decide

/-- What a comment says: anything that is on one line. -/
structure Comment where
  text : List Char
  onOneLine : '\n' ∉ text := by decide

/-- A line that is a comment. -/
def Comment.line (c : Comment) : List Char := commentMark ++ c.text

/-- A line and the comment at its end, if there is one. -/
def withComment (line : List Char) : Option Comment → List Char
  | none => line
  | some c => line ++ ' ' :: (commentMark ++ ' ' :: c.text)

/-- Words, with blanks between them. -/
structure Row where
  first : Word
  rest : List Word

/-- The text of a row. -/
def Row.text (r : Row) : List Char := r.first.text ++ r.rest.flatMap fun w => ' ' :: w.text

/-- What a row names: its first word. -/
def Row.path (r : Row) : String := .ofList r.first.text

/-- The keyword of a directive. -/
inductive Keyword where
  | require
  | other (word : Word)

/-- The text of a keyword. -/
def Keyword.text : Keyword → List Char
  | require => "require".toList
  | other word => word.text

@[simp] theorem Keyword.text_other (w : Word) : (other w).text = w.text := rfl

theorem text_require_append : Keyword.require.text ++ [' '] = "require ".toList := by decide

/-- A line between brackets. -/
inductive BodyLine where
  | comment (c : Comment)
  | row (r : Row) (c : Option Comment)

/-- The text of a line between brackets. -/
def BodyLine.line : BodyLine → List Char
  | comment c => c.line
  | row r c => withComment r.text c

/-- The row on a line between brackets. -/
def BodyLine.row? : BodyLine → Option Row
  | comment _ => none
  | row r _ => some r

/-- A directive, or a comment among directives. -/
inductive Directive where
  | comment (c : Comment)
  | single (k : Keyword) (r : Row) (c : Option Comment)
  | group (k : Keyword) (opening : Option Comment) (body : List BodyLine)
      (closing : Option Comment)

/-- The lines of a directive. -/
def Directive.lines : Directive → List (List Char)
  | comment c => [c.line]
  | single k r c => [withComment (k.text ++ ' ' :: r.text) c]
  | group k opening body closing =>
    withComment (k.text ++ [' ', '(']) opening :: body.map BodyLine.line ++
      [withComment [')'] closing]

/-! ## 2. Ends of lines -/

theorem Word.isSolid (w : Word) : IsSolid w.text :=
  isSolid_of_forall w.ne_nil fun c hc => (w.plain c hc).1

theorem Row.isSolid (r : Row) : IsSolid r.text := by
  obtain ⟨first, rest⟩ := r
  rw [Row.text]
  induction rest using List.reverseRecOn with
  | nil => simpa using first.isSolid
  | append_singleton rest w ih =>
    simpa using first.isSolid.append w.isSolid (rest.flatMap (fun w => ' ' :: w.text) ++ [' '])

theorem Keyword.isSolid (k : Keyword) : IsSolid k.text := by
  cases k with
  | require => exact isSolid_of_forall (by decide) (by decide)
  | other word => exact word.isSolid

/-- What follows a line when its comment has been trimmed. -/
def tailOf : Option Comment → List Char
  | none => []
  | some c => ' ' :: (commentMark ++ trimEnd (' ' :: c.text))

theorem trim_withComment {s : List Char} (hs : IsSolid s) (c : Option Comment) :
    trim (withComment s c) = s ++ tailOf c := by
  cases c with
  | none => simpa [withComment, tailOf] using hs.trim_eq
  | some c =>
    obtain ⟨x, r, rfl⟩ := List.exists_cons_of_ne_nil hs.ne_nil
    have hline : withComment (x :: r) (some c) =
        (x :: (r ++ [' ', '/'])) ++ '/' :: (' ' :: c.text) := by
      simp [withComment, commentMark]
    rw [hline, trim, strip_append_cons (by decide),
      List.dropWhile_cons_of_neg (by simp [hs.head x rfl])]
    simp [tailOf, commentMark, trimEnd]

theorem mem_tailOf_iff {x : Char} (hx : isBlank x = false) (hslash : x ≠ '/')
    {c : Option Comment} : x ∈ tailOf c ↔ ∃ k, c = some k ∧ x ∈ k.text := by
  cases c with
  | none => simp [tailOf]
  | some c =>
    have hblank : x ≠ ' ' := by
      rintro rfl
      exact absurd hx (by decide)
    have hend : x ∈ trimEnd (' ' :: c.text) ↔ x ∈ c.text := by
      constructor
      · intro h
        exact (List.mem_cons.mp (mem_of_mem_dropEndWhile h)).resolve_left hblank
      · intro h
        obtain ⟨a, b, hab⟩ := List.append_of_mem (List.mem_cons_of_mem ' ' h)
        rw [hab, trimEnd, dropEndWhile_append_cons hx]
        exact List.mem_append_right a List.mem_cons_self
    simp [tailOf, commentMark, hblank, hslash, hend]

/-- Something that stands apart from the word before it. -/
def IsApart (r : List Char) : Prop := r = [] ∨ ∃ t, r = ' ' :: t

theorem isApart_tailOf (c : Option Comment) : IsApart (tailOf c) := by
  cases c with
  | none => exact Or.inl rfl
  | some c => exact Or.inr ⟨_, rfl⟩

theorem IsApart.append {a b : List Char} (ha : IsApart a) (hb : IsApart b) : IsApart (a ++ b) := by
  rcases ha with rfl | ⟨t, rfl⟩
  · exact hb
  · exact Or.inr ⟨t ++ b, rfl⟩

theorem Row.isApart_rest (r : Row) : IsApart (r.rest.flatMap fun w => ' ' :: w.text) := by
  cases r.rest with
  | nil => exact Or.inl rfl
  | cons w ws => exact Or.inr ⟨w.text ++ ws.flatMap fun w => ' ' :: w.text, by simp⟩

/-! ## 3. First words -/

/-- No comment starts where a word does. -/
theorem not_commentMark_startsWith {w r : List Char} (hr : IsApart r) (hne : w ≠ [])
    (hplain : occursIn commentMark w = false) : ¬ commentMark <+: w ++ r := by
  obtain ⟨c, w, rfl⟩ := List.exists_cons_of_ne_nil hne
  rw [commentMark, List.cons_append, List.cons_prefix_cons]
  rintro ⟨rfl, hslash⟩
  cases w with
  | nil => rcases hr with rfl | ⟨t, rfl⟩ <;> simp at hslash
  | cons d w =>
    obtain rfl : '/' = d := by simpa using hslash
    simp [occursIn, commentMark] at hplain

section FirstWord

variable {w r : List Char} (hw : ∀ c ∈ w, isBlank c = false) (hr : IsApart r)

include hw hr

theorem takeWhile_append_apart : (w ++ r).takeWhile (fun c => !isBlank c) = w := by
  rw [List.takeWhile_append_of_pos (by simpa using hw)]
  rcases hr with rfl | ⟨t, rfl⟩
  · simp
  · rw [List.takeWhile_cons_of_neg (by decide), List.append_nil]

/-- A line starts with a keyword and a blank only if that is its first word. -/
theorem not_startsWith {k : List Char} (hk : ∀ c ∈ k, isBlank c = false) (hne : w ≠ k) :
    ¬ k ++ [' '] <+: w ++ r := by
  rintro ⟨t, ht⟩
  have hline : w ++ r = k ++ ' ' :: t := by rw [← ht]; simp
  have hword := takeWhile_append_apart hw hr
  rw [hline, takeWhile_append_apart hk (Or.inr ⟨t, rfl⟩)] at hword
  exact hne hword.symm

/-- What is cut off at a comment starts behind the first word. -/
theorem cutAround_append_apart (hplain : occursIn commentMark w = false) :
    ∃ r', IsApart r' ∧
      ((cutAround commentMark (w ++ r)).map (·.1)).getD (w ++ r) = w ++ r' := by
  induction w with
  | nil =>
    rcases hr with rfl | ⟨t, rfl⟩
    · exact ⟨[], Or.inl rfl, rfl⟩
    · have hno : after? commentMark (' ' :: t) = none := after?_eq_none_iff.mpr (by
        simp [commentMark])
      rw [List.nil_append, cutAround, hno]
      cases hcut : cutAround commentMark t with
      | none => exact ⟨_, Or.inr ⟨t, rfl⟩, by simp⟩
      | some ab => exact ⟨_, Or.inr ⟨ab.1, rfl⟩, by simp⟩
  | cons c w ih =>
    have htail : occursIn commentMark w = false := (Bool.or_eq_false_iff.mp hplain).2
    obtain ⟨r', hr', hcut⟩ := ih (fun d hd => hw d (List.mem_cons_of_mem c hd)) htail
    have hno := not_commentMark_startsWith hr (List.cons_ne_nil c w) hplain
    rw [List.cons_append] at hno ⊢
    rw [cutAround, after?_eq_none_iff.mpr hno]
    refine ⟨r', hr', ?_⟩
    cases hcut' : cutAround commentMark (w ++ r) with
    | none => simpa [hcut'] using hcut
    | some ab => simpa [hcut'] using hcut

/-- **A line requires its first word**, whatever follows it. -/
theorem requiredModule?_append (hne : w ≠ []) (hplain : occursIn commentMark w = false) :
    requiredModule? (w ++ r) = some (.ofList w) := by
  obtain ⟨r', hr', hcut⟩ := cutAround_append_apart hw hr hplain
  have hwords : ∃ ws, words (w ++ r') = w :: ws := by
    rw [words]
    rcases hr' with rfl | ⟨t, rfl⟩
    · rw [List.append_nil, pieces_of_forall hw]
      exact ⟨[], by simp [hne]⟩
    · rw [pieces_append_cons hw (by decide)]
      exact ⟨_, List.filter_cons_of_pos (by simpa using hne)⟩
  obtain ⟨ws, hwords⟩ := hwords
  simp only [requiredModule?, hcut, hwords, List.head?_cons, Option.map_some]

end FirstWord

/-! ## 4. Reading a line -/

section ReadLine

variable {d : ModuleDraft} {l rest : List Char}

theorem readLine_trim (d : ModuleDraft) (l : List Char) : d.readLine (trim l) = d.readLine l := by
  rw [ModuleDraft.readLine, ModuleDraft.readLine, trim_trim]

theorem readLine_nil (d : ModuleDraft) : d.readLine [] = d := rfl

/-- What is read of a line that says more than a comment. -/
theorem readLine_of_ne_nil (hne : trim l ≠ []) (hcomment : ¬ commentMark <+: trim l) :
    d.readLine l =
      match after? "module ".toList (trim l) with
      | some rest => { d with path := strip (·.toNat == 34) (trim rest) }
      | none =>
        if trim l = "require (".toList then { d with inBlock := true }
        else if trim l = [')'] then { d with inBlock := false }
        else match after? "require ".toList (trim l) with
          | some rest =>
            if '(' ∈ rest then d
            else { d with required := d.required ++ (requiredModule? rest).toList }
          | none =>
            if d.inBlock then
              { d with required := d.required ++ (requiredModule? (trim l)).toList }
            else d := by
  have hskip : ((trim l).isEmpty || commentMark.isPrefixOf (trim l)) = false := by
    rw [Bool.or_eq_false_iff, List.isEmpty_eq_false_iff, ← Bool.not_eq_true,
      List.isPrefixOf_iff_prefix]
    exact ⟨hne, hcomment⟩
  rw [ModuleDraft.readLine]
  simp only [hskip, Bool.false_eq_true, if_false, beq_iff_eq, List.contains_iff_mem]
  cases after? "module ".toList (trim l) <;> cases after? "require ".toList (trim l) <;> rfl

theorem readLine_comment (h : commentMark <+: trim l) : d.readLine l = d := by
  rw [ModuleDraft.readLine]
  simp [List.isPrefixOf_iff_prefix.mpr h]

theorem readLine_module (h : trim l = "module ".toList ++ rest) :
    d.readLine l = { d with path := strip (·.toNat == 34) (trim rest) } := by
  have hcomment : ¬ commentMark <+: trim l := by simp [h, commentMark]
  rw [readLine_of_ne_nil (by simp [h]) hcomment, after?_eq_some_iff.mpr h]

theorem after?_module_eq_none {k : List Char} (hk : k.take 7 ≠ "module ".toList) :
    after? "module ".toList k = none := by
  rw [after?_eq_none_iff]
  exact fun h => hk (List.prefix_iff_eq_take.mp h).symm

theorem readLine_opening (h : trim l = "require (".toList) :
    d.readLine l = { d with inBlock := true } := by
  rw [readLine_of_ne_nil (by simp [h]) (by rw [h]; decide), h,
    after?_module_eq_none (by decide), if_pos rfl]

theorem readLine_closing (h : trim l = [')']) : d.readLine l = { d with inBlock := false } := by
  rw [readLine_of_ne_nil (by simp [h]) (by rw [h]; decide), h,
    after?_module_eq_none (by decide), if_neg (by decide), if_pos rfl]

theorem readLine_require (h : trim l = "require ".toList ++ rest) (hrest : rest ≠ ['(']) :
    d.readLine l =
      if '(' ∈ rest then d
      else { d with required := d.required ++ (requiredModule? rest).toList } := by
  have hopening : trim l ≠ "require (".toList := by
    intro heq
    have hopen : "require ".toList ++ rest = "require ".toList ++ ['('] := h.symm.trans heq
    exact hrest (List.append_cancel_left hopen)
  have hclosing : trim l ≠ [')'] := by simp [h]
  rw [readLine_of_ne_nil (by simp [h]) (by simp [h, commentMark]),
    after?_module_eq_none (by simp [h]), if_neg hopening, if_neg hclosing,
    after?_eq_some_iff.mpr h]

/-- **A line that starts with no keyword of the reader counts in a block only**, and then it is the
first word that is required. -/
theorem readLine_word {w r : List Char} (h : trim l = w ++ r) (hne : w ≠ [])
    (hw : ∀ c ∈ w, isBlank c = false) (hplain : occursIn commentMark w = false)
    (hmodule : w ≠ "module".toList) (hrequire : w ≠ "require".toList) (hr : IsApart r)
    (hclosing : w ++ r ≠ [')']) :
    d.readLine l = if d.inBlock then { d with required := d.required ++ [.ofList w] } else d := by
  have hcomment : ¬ commentMark <+: trim l := h ▸ not_commentMark_startsWith hr hne hplain
  have hno {k k' : List Char} (hk : ∀ c ∈ k, isBlank c = false) (hwk : w ≠ k)
      (hk' : k' = k ++ [' ']) : after? k' (w ++ r) = none :=
    after?_eq_none_iff.mpr (hk' ▸ not_startsWith hw hr hk hwk)
  have hopening : w ++ r ≠ "require (".toList := fun heq =>
    not_startsWith hw hr (k := "require".toList) (by decide) hrequire (heq ▸ by decide)
  rw [readLine_of_ne_nil (by simp [h, hne]) hcomment, h,
    hno (by decide) hmodule (by decide), if_neg hopening, if_neg hclosing,
    hno (by decide) hrequire (by decide), requiredModule?_append hw hr hne hplain]
  rfl

end ReadLine

/-! ## 5. The forms of lines -/

section Forms

variable (d : ModuleDraft) (c : Option Comment)

/-- Whether a comment has an opening bracket in it. -/
def bracketed : Option Comment → Bool
  | none => false
  | some c => c.text.contains '('

theorem readLine_commentLine (c : Comment) : d.readLine c.line = d := by
  refine readLine_comment ⟨dropEndWhile isBlank c.text, ?_⟩
  have hline : c.line = ['/'] ++ '/' :: c.text := rfl
  rw [hline, trim, strip_append_cons (by decide)]
  rfl

theorem readLine_path (w : Word) : d.readLine (withComment ("module ".toList ++ w.text) c) =
    { d with path := strip (·.toNat == 34) (w.text ++ tailOf c) } := by
  have hkeyword : IsSolid "module".toList := isSolid_of_forall (by decide) (by decide)
  have hsolid : IsSolid ("module ".toList ++ w.text) := by
    simpa using hkeyword.append w.isSolid [' ']
  have hrest : trim (w.text ++ tailOf c) = w.text ++ tailOf c := by
    rw [← trim_withComment w.isSolid, trim_trim]
  have hline := trim_withComment hsolid c
  rw [List.append_assoc] at hline
  rw [readLine_module hline, hrest]

theorem readLine_words (w : Word) {x : List Char} (hx : IsApart x) (hs : IsSolid (w.text ++ x)) :
    d.readLine (withComment (w.text ++ x) c) =
      if d.inBlock then { d with required := d.required ++ [.ofList w.text] } else d := by
  have hline := trim_withComment hs c
  rw [List.append_assoc] at hline
  have hclosing : w.text ++ (x ++ tailOf c) ≠ [')'] := by
    obtain ⟨a, t, ht⟩ := List.exists_cons_of_ne_nil w.ne_nil
    have ha := (w.plain a (ht ▸ List.mem_cons_self)).2.2
    rw [ht]
    simp [ha]
  exact readLine_word hline w.ne_nil (fun a ha => (w.plain a ha).1) w.uncommented w.ne_module
    w.ne_require (hx.append (isApart_tailOf c)) hclosing

theorem readLine_row (r : Row) : d.readLine (withComment r.text c) =
    if d.inBlock then { d with required := d.required ++ [r.path] } else d :=
  readLine_words d c r.first r.isApart_rest r.isSolid

/-- A requirement on one line is read, unless there is an opening bracket in its comment. -/
theorem readLine_single_require (r : Row) :
    d.readLine (withComment (Keyword.require.text ++ ' ' :: r.text) c) =
      if bracketed c then d else { d with required := d.required ++ [r.path] } := by
  have hsolid : IsSolid (Keyword.require.text ++ ' ' :: r.text) := by
    simpa using Keyword.require.isSolid.append r.isSolid [' ']
  have hline : trim (withComment (Keyword.require.text ++ ' ' :: r.text) c) =
      "require ".toList ++ (r.text ++ tailOf c) := by
    rw [trim_withComment hsolid, ← text_require_append]
    simp
  have hplain : ∀ a ∈ r.text, a ≠ '(' := by
    have hword (w : Word) : ∀ a ∈ w.text, a ≠ '(' := fun a ha => (w.plain a ha).2.1
    simp only [Row.text, List.forall_mem_append, List.forall_mem_flatMap, List.forall_mem_cons]
    exact ⟨hword r.first, fun w _ => ⟨by decide, hword w⟩⟩
  have hbracket : '(' ∈ r.text ++ tailOf c ↔ bracketed c = true := by
    rw [List.mem_append, mem_tailOf_iff (by decide) (by decide),
      or_iff_right fun h => hplain _ h rfl]
    cases c <;> simp [bracketed]
  have hrest : r.text ++ tailOf c ≠ ['('] := by
    obtain ⟨a, t, ht⟩ := List.exists_cons_of_ne_nil r.isSolid.ne_nil
    have ha := hplain a (ht ▸ List.mem_cons_self)
    rw [ht]
    simp [ha]
  have happart : IsApart ((r.rest.flatMap fun w => ' ' :: w.text) ++ tailOf c) :=
    r.isApart_rest.append (isApart_tailOf c)
  have hpath : requiredModule? (r.text ++ tailOf c) = some r.path := by
    rw [Row.text, List.append_assoc]
    exact requiredModule?_append (fun a ha => (r.first.plain a ha).1) happart r.first.ne_nil
      r.first.uncommented
  rw [readLine_require hline hrest, hpath]
  simp only [hbracket, Option.toList_some]

theorem readLine_opening_require :
    d.readLine (withComment (Keyword.require.text ++ [' ', '(']) none) =
      { d with inBlock := true } :=
  readLine_opening (by decide)

/-- With a comment behind it, an opening bracket opens nothing. -/
theorem readLine_opening_require_comment (c : Comment) :
    d.readLine (withComment (Keyword.require.text ++ [' ', '(']) (some c)) = d := by
  have hline : trim (withComment (Keyword.require.text ++ [' ', '(']) (some c)) =
      "require ".toList ++ '(' :: tailOf (some c) := by
    rw [trim_withComment ⟨by decide, by decide, by decide⟩, ← text_require_append]
    simp
  rw [readLine_require hline (by simp [tailOf]), if_pos List.mem_cons_self]

theorem readLine_closing_bracket : d.readLine (withComment [')'] none) =
    { d with inBlock := false } :=
  readLine_closing (by decide)

/-- With a comment behind it, a closing bracket closes nothing, and is taken for a requirement. -/
theorem readLine_closing_comment (c : Comment) : d.readLine (withComment [')'] (some c)) =
    if d.inBlock then { d with required := d.required ++ [")"] } else d := by
  refine readLine_word (trim_withComment ⟨by decide, by decide, by decide⟩ _) (by decide)
    (by decide) (by decide) (by decide) (by decide) (isApart_tailOf _) ?_
  simp [tailOf]

end Forms

end Codemap.Manifests.GoModule
