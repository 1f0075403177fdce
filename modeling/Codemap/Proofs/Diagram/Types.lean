/-
# The lines of the diagram of types

The diagram is made of pieces, each meant to be one line: a header, then for each type that is drawn
its opening, its stereotype if it has one, a piece for each property and each method that is listed,
and its closing, and then the arrows.  Identifiers hold no character that ends lines, and types lose
theirs where they become labels.  Names of members and of parameters stand as they are in the
source, and there they may span lines: a pattern that takes a parameter apart is its name.

Main statement: `takesOneLineEach_iff`.  Each piece takes one line exactly if the names of all
members that are listed, and of their parameters, are on one line.  The counterexample is a method
with such a pattern (`not_takesOneLineEach_destructuring`).
-/
import Codemap.Diagram.Types
import Codemap.Facts.Analysis
import Codemap.Proofs.Diagram.Basic
import Codemap.Proofs.Order.Distinct

namespace Codemap.Diagram.Types

open Codemap.Text

/-! ## 1. Texts on one line -/

/-- Whether a character ends a line: a line feed does, and a carriage return if returns count. -/
def endsLine (returns : Bool) (c : Char) : Bool := c == '\n' || (returns && c == '\r')

/-- No character of a text ends a line. -/
def OnOneLine (returns : Bool) (s : String) : Prop := ∀ c ∈ s.toList, endsLine returns c = false

/-- The characters of the text are gone through, not all characters that there are. -/
instance (returns : Bool) (s : String) : Decidable (OnOneLine returns s) :=
  decidable_of_iff (s.toList.all fun c => !endsLine returns c) (by simp [OnOneLine])

variable {returns : Bool} {o : Options} {files : List FileFacts}

theorem endsLine_cases {c : Char} (h : endsLine returns c = true) : c = '\n' ∨ c = '\r' := by
  simp only [endsLine, Bool.or_eq_true, Bool.and_eq_true, beq_iff_eq] at h
  exact h.imp_right And.right

@[simp] theorem onOneLine_append {a b : String} :
    OnOneLine returns (a ++ b) ↔ OnOneLine returns a ∧ OnOneLine returns b := by
  rw [OnOneLine, String.toList_append, List.forall_mem_append]
  rfl

/-- A text without the two characters that may end lines is on one line. -/
theorem onOneLine_of_forall_ne {s : String} (h : ∀ c ∈ s.toList, c ≠ '\n' ∧ c ≠ '\r') :
    OnOneLine returns s := by
  intro c hc
  by_contra hends
  rcases endsLine_cases (Bool.eq_true_of_not_eq_false hends) with rfl | rfl
  · exact (h _ hc).1 rfl
  · exact (h _ hc).2 rfl

theorem onOneLine_of_all {s : String} (h : (s.toList.all fun c => c != '\n' && c != '\r') = true) :
    OnOneLine returns s :=
  onOneLine_of_forall_ne fun c hc => by simpa using List.all_eq_true.mp h c hc

/-- Texts are on one line together with what stands between them if each of them is. -/
theorem onOneLine_intercalate {sep : String} (hsep : OnOneLine returns sep) (xs : List String) :
    OnOneLine returns (sep.intercalate xs) ↔ ∀ x ∈ xs, OnOneLine returns x := by
  induction xs with
  | nil => simp [OnOneLine]
  | cons x xs ih =>
    cases xs with
    | nil => simp
    | cons y ys =>
      rw [String.intercalate_cons_cons, onOneLine_append, onOneLine_append, ih,
        List.forall_mem_cons (l := y :: ys), and_iff_left hsep]

/-! ## 2. What is always on one line -/

@[simp] theorem onOneLine_identifier (name : String) : OnOneLine returns (identifier name) := by
  refine onOneLine_of_forall_ne fun c hc => ?_
  have hchar := (isIdentifier_identifier name).2 c hc
  constructor <;> rintro rfl <;> exact absurd hchar (by decide)

/-- What becomes of a type holds neither of the characters that may end lines. -/
theorem not_mem_typeTextFrom (depth : Nat) (cs : List Char) :
    ∀ c ∈ typeTextFrom depth cs, c ≠ '\n' ∧ c ≠ '\r' := by
  fun_induction typeTextFrom depth cs with
  | case1 => exact fun c hc => absurd hc List.not_mem_nil
  | case2 depth c rest _ ih => exact List.forall_mem_cons.mpr ⟨by decide, ih⟩
  | case3 depth c rest _ _ ih => exact List.forall_mem_cons.mpr ⟨by decide, ih⟩
  | case4 depth c rest _ _ _ ih => exact List.forall_mem_cons.mpr ⟨by decide, ih⟩
  | case5 depth c rest _ _ _ _ ih => exact List.forall_mem_cons.mpr ⟨by decide, ih⟩
  | case6 depth c rest _ _ _ hbreak ih =>
    simp only [Bool.or_eq_true, beq_iff_eq, not_or] at hbreak
    exact List.forall_mem_cons.mpr ⟨hbreak.1, ih⟩

@[simp] theorem onOneLine_typeLabel (type : String) : OnOneLine returns (typeLabel type) := by
  refine onOneLine_of_forall_ne fun c hc => not_mem_typeTextFrom 0 (trim type.toList) c ?_
  rwa [typeLabel, String.toList_ofList, typeText] at hc

theorem onOneLine_typed {between : String} (hbetween : OnOneLine returns between)
    (type : Option String) : OnOneLine returns (typed between type) := by
  cases type with
  | none => exact onOneLine_of_all (by simp [typed])
  | some type => exact onOneLine_append.mpr ⟨hbetween, onOneLine_typeLabel type⟩

@[simp] theorem onOneLine_sign (v : Visibility) : OnOneLine returns (sign v) := by
  cases v <;> exact onOneLine_of_all (by decide)

@[simp] theorem onOneLine_indent : OnOneLine returns indent := onOneLine_of_all (by decide)

/-! ## 3. Members and pieces -/

theorem onOneLine_propertyText (p : Property) :
    OnOneLine returns (propertyText p) ↔ OnOneLine returns p.name := by
  have htype : OnOneLine returns (typed ": " p.type) :=
    onOneLine_typed (onOneLine_of_all (by decide)) p.type
  have hstatic : OnOneLine returns (if p.isStatic then "$" else "") := by
    split <;> exact onOneLine_of_all (by decide)
  simp only [propertyText, onOneLine_append, onOneLine_sign, htype, hstatic, true_and, and_true]

theorem onOneLine_parameterText (p : Parameter) :
    OnOneLine returns (parameterText p) ↔ OnOneLine returns p.name := by
  have htype : OnOneLine returns (typed ": " p.type) :=
    onOneLine_typed (onOneLine_of_all (by decide)) p.type
  have hoptional : OnOneLine returns (if p.isOptional then "?" else "") := by
    split <;> exact onOneLine_of_all (by decide)
  simp only [parameterText, onOneLine_append, htype, hoptional, and_true]

theorem onOneLine_methodText (m : Method) : OnOneLine returns (methodText m) ↔
    OnOneLine returns m.function.name ∧ ∀ p ∈ m.function.parameters, OnOneLine returns p.name := by
  have htype : OnOneLine returns (typed " " m.function.returnType) :=
    onOneLine_typed (onOneLine_of_all (by decide)) m.function.returnType
  have hmark :
      OnOneLine returns (if m.isStatic then "$" else if m.isAbstract then "*" else "") := by
    split
    · exact onOneLine_of_all (by decide)
    · split <;> exact onOneLine_of_all (by decide)
  have hparameters :
      OnOneLine returns (", ".intercalate (m.function.parameters.map parameterText)) ↔
        ∀ p ∈ m.function.parameters, OnOneLine returns p.name := by
    rw [onOneLine_intercalate (onOneLine_of_all (by decide)), List.forall_mem_map]
    exact forall₂_congr fun p _ => onOneLine_parameterText p
  have hopening : OnOneLine returns "(" := onOneLine_of_all (by decide)
  have hclosing : OnOneLine returns ")" := onOneLine_of_all (by decide)
  simp only [methodText, onOneLine_append, onOneLine_sign, hopening, hclosing, htype, hmark,
    hparameters, true_and, and_true]

/-- The names of the members of a type that are listed, and of their parameters, are on one
line. -/
def NamesOnOneLine (returns : Bool) (o : Options) (t : TypeDecl) : Prop :=
  (∀ p ∈ t.properties, o.lists p.visibility → OnOneLine returns p.name) ∧
    ∀ m ∈ t.methods, o.lists m.visibility →
      OnOneLine returns m.function.name ∧ ∀ p ∈ m.function.parameters, OnOneLine returns p.name

instance (returns : Bool) (o : Options) (t : TypeDecl) : Decidable (NamesOnOneLine returns o t) :=
  inferInstanceAs (Decidable (_ ∧ _))

theorem onOneLine_stereotype {t : TypeDecl} {s : String} (h : stereotype? t = some s) :
    OnOneLine returns s := by
  refine onOneLine_of_all ?_
  rw [stereotype?] at h
  split at h
  · obtain rfl := Option.some.inj h
    decide
  · obtain rfl := Option.some.inj h
    decide
  · obtain rfl := Option.some.inj h
    decide
  · split at h
    · obtain rfl := Option.some.inj h
      decide
    · exact absurd h.symm (Option.some_ne_none s)

/-- **The block of a type** is on as many lines as it has pieces exactly if the names in it are on
one line. -/
theorem onOneLine_block_iff (t : TypeDecl) :
    (∀ x ∈ block o t, OnOneLine returns x.text) ↔ NamesOnOneLine returns o t := by
  have hopening : OnOneLine returns (Piece.opening (identifier t.name)).text := by
    have hclass : OnOneLine returns "class " := onOneLine_of_all (by decide)
    have hbrace : OnOneLine returns " \x7b" := onOneLine_of_all (by decide)
    simp only [Piece.text, onOneLine_append, onOneLine_indent, onOneLine_identifier, hclass, hbrace,
      and_self]
  have hstereotype : ∀ x ∈ ((stereotype? t).map Piece.stereotype).toList,
      OnOneLine returns x.text := by
    intro x hx
    obtain ⟨s, hs, rfl⟩ := Option.map_eq_some_iff.mp (Option.mem_toList.mp hx)
    simp only [Piece.text, onOneLine_append, onOneLine_indent, onOneLine_stereotype hs, and_self]
  have hclosing : OnOneLine returns Piece.closing.text := onOneLine_of_all (by decide)
  have hmember : ∀ s, OnOneLine returns (Piece.member s).text ↔ OnOneLine returns s := by
    intro s
    simp only [Piece.text, onOneLine_append, onOneLine_indent, true_and]
  simp only [block, List.forall_mem_append, List.forall_mem_singleton, List.forall_mem_map,
    List.mem_filter, and_imp, hmember, onOneLine_propertyText, onOneLine_methodText, hopening,
    hclosing, true_and, and_true, and_iff_right hstereotype, NamesOnOneLine]

theorem onOneLine_of_mem_arrows {t : TypeDecl} {x : Piece} (hx : x ∈ arrows t) :
    OnOneLine returns x.text := by
  have harrow : ∀ parent arrow : String, OnOneLine returns arrow →
      OnOneLine returns (Piece.arrow (identifier parent) arrow (identifier t.name)).text := by
    intro parent arrow harrow
    have hblank : OnOneLine returns " " := onOneLine_of_all (by decide)
    simp only [Piece.text, onOneLine_append, onOneLine_indent, onOneLine_identifier, hblank, harrow,
      and_self]
  rcases List.mem_append.mp hx with hx | hx
  · obtain ⟨parent, -, rfl⟩ := List.mem_map.mp hx
    exact harrow _ _ (onOneLine_of_all (by decide))
  · obtain ⟨parent, -, rfl⟩ := List.mem_map.mp hx
    exact harrow _ _ (onOneLine_of_all (by decide))

theorem onOneLine_pieces_iff :
    (∀ x ∈ pieces o files, OnOneLine returns x.text) ↔
      ∀ t ∈ drawn files, NamesOnOneLine returns o t := by
  have hheader : OnOneLine returns Piece.header.text := onOneLine_of_all (by decide)
  have harrows : ∀ x ∈ Order.distinct (((drawn files).flatMap arrows).filter
      (o.draws ((drawn files).map fun t => identifier t.name))), OnOneLine returns x.text := by
    intro x hx
    obtain ⟨t, -, hx⟩ := List.mem_flatMap.mp (List.mem_filter.mp (Order.mem_distinct.mp hx)).1
    exact onOneLine_of_mem_arrows hx
  simp only [pieces, List.forall_mem_append, List.forall_mem_singleton, hheader, true_and,
    and_iff_left harrows, ← onOneLine_block_iff, List.forall_mem_flatMap]

/-! ## 4. The lines of the diagram -/

/-- Each piece of the diagram takes one line: cut at what ends lines, the text is the pieces, and
after the last line nothing. -/
def TakesOneLineEach (returns : Bool) (o : Options) (files : List FileFacts) : Prop :=
  Text.pieces (endsLine returns) (text o files).toList =
    (pieces o files).map (fun x => x.text.toList) ++ [[]]

theorem takesOneLineEach_iff_onOneLine :
    TakesOneLineEach returns o files ↔ ∀ x ∈ pieces o files, OnOneLine returns x.text := by
  have hmap : (pieces o files).map (fun x => x.text.toList) =
      ((pieces o files).map Piece.text).map String.toList := by
    rw [List.map_map]
    rfl
  rw [TakesOneLineEach, text, hmap, pieces_ofLines_iff (p := endsLine returns) rfl,
    List.forall_mem_map]
  rfl

/-- **Each piece of the diagram of types takes one line exactly if the names of all members that
are listed, and of their parameters, are on one line**, with either meaning of a line. -/
theorem takesOneLineEach_iff (returns : Bool) (o : Options) (files : List FileFacts) :
    TakesOneLineEach returns o files ↔ ∀ t ∈ drawn files, NamesOnOneLine returns o t :=
  takesOneLineEach_iff_onOneLine.trans onOneLine_pieces_iff

/-- A class with a method that takes its parameter apart, on several lines. -/
def destructuring : ParsedFile where
  path := "src/shop.ts"
  language := .typescript
  tree := parseSource .typescript
    "class Shop \x7b\n  open(\x7b\n    name,\n  \x7d: Person) \x7b\x7d\n\x7d"

/-- **A parameter that is taken apart on several lines splits the line of its method.** -/
theorem not_takesOneLineEach_destructuring :
    ¬ TakesOneLineEach false .default [FileFacts.ofTree destructuring] := by
  rw [takesOneLineEach_iff_onOneLine, onOneLine_pieces_iff]
  decide +kernel

end Codemap.Diagram.Types
