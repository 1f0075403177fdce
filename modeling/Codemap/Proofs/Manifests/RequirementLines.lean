/-
# Every line of a list of requirements stands for itself

What a line requires is told by the part before its first `#` (`lineRequirement?_eq_some_iff`):
blanks around that part do not matter, and so neither does the carriage return that a line may end
in.  A text is therefore read as the pieces between its line feeds (`filterMap_lines`), and what two
texts declare together is what they declare with a line feed between them.

Main statement: `readRequirements_linewise`.
-/
import Codemap.Proofs.Manifests.ListedItems
import Codemap.Proofs.Order.Ascending

namespace Codemap.Manifests

open Codemap.Text

variable {line s a b : List Char} {package : String}

/-! ## 1. Lines -/

/-- The part of a line before the first sign of a comment. -/
def uncommentedPart (line : List Char) : List Char := line.takeWhile (· != '#')

/-- A line requires a package: the part before the first `#` names it, and starts with no hyphen. -/
structure Requires (line : List Char) (package : String) : Prop where
  name : package = .ofList (requirementName (uncommentedPart line))
  name_ne : package ≠ ""
  /-- Blanks before the hyphen of an option do not hide it. -/
  not_option : (trim (uncommentedPart line)).head? ≠ some '-'
  /-- It makes no difference that the comment is cut off. -/
  line_not_option : (trim line).head? ≠ some '-'

/-- A line that starts with a hyphen starts with it before its comment. -/
theorem head?_trim_uncommentedPart (h : (trim line).head? = some '-') :
    (trim (uncommentedPart line)).head? = some '-' := by
  obtain ⟨blanks, behind, hline, hblanks, -, -, -⟩ := exists_eq_append_strip isBlank line
  obtain ⟨r, hr⟩ := List.head?_eq_some_iff.mp h
  rw [← trim, hr, List.append_assoc, List.cons_append] at hline
  have hpart : uncommentedPart line = blanks ++ '-' :: (r ++ behind).takeWhile (· != '#') := by
    have hplain : ∀ c ∈ blanks, (c != '#') = true := by
      intro c hc
      rw [bne_iff_ne]
      rintro rfl
      exact absurd (hblanks '#' hc) (by decide)
    rw [uncommentedPart, hline, List.takeWhile_append_of_pos hplain]
    rfl
  have hcut := strip_append_cons (p := isBlank) (c := '-') (by decide) []
    ((r ++ behind).takeWhile (· != '#'))
  rw [hpart, trim, strip_of_forall_append hblanks]
  exact congrArg List.head? hcut

theorem requirement?_eq_some_iff :
    requirement? s = some package ↔ package = .ofList (requirementName s) ∧ package ≠ "" := by
  rw [requirement?]
  by_cases h : requirementName s = []
  · simp [h]
  · simp only [List.isEmpty_iff, h, if_false, Option.some.injEq]
    constructor
    · rintro rfl
      exact ⟨rfl, by simpa using h⟩
    · rintro ⟨rfl, -⟩
      rfl

/-- **What a line requires.** -/
theorem lineRequirement?_eq_some_iff :
    lineRequirement? line = some package ↔ Requires line package := by
  rw [lineRequirement?, ← uncommentedPart]
  by_cases hoption : (trim (uncommentedPart line)).head? = some '-'
  · simp only [hoption, beq_self_eq_true, Bool.or_true, if_true]
    exact iff_of_false (by simp) fun h => h.not_option hoption
  have hline : (trim line).head? ≠ some '-' := fun h => hoption (head?_trim_uncommentedPart h)
  by_cases hnil : trim (uncommentedPart line) = []
  · -- no name is left of a line that is blank before its comment
    have hname : requirementName (uncommentedPart line) = [] := by
      rw [← Project.requirementName_trim, hnil]
      rfl
    simp only [hnil, List.isEmpty_nil, Bool.true_or, if_true]
    refine iff_of_false (by simp) fun h => h.name_ne ?_
    rw [h.name, hname]
  · have hspec : ((trim (uncommentedPart line)).isEmpty ||
        (trim (uncommentedPart line)).head? == some '-') = false := by simp [hnil, hoption]
    rw [if_neg (by simp [hspec]), requirement?_eq_some_iff, Project.requirementName_trim]
    exact ⟨fun ⟨hname, hne⟩ => ⟨hname, hne, hoption, hline⟩, fun h => ⟨h.name, h.name_ne⟩⟩

/-- The carriage return at the end of a line makes no difference. -/
theorem lineRequirement?_dropReturn (l : List Char) :
    lineRequirement? (dropReturn l) = lineRequirement? l := by
  rw [dropReturn]
  split
  next r hr =>
    obtain rfl : l = r.reverse ++ ['\r'] := by simpa using congrArg List.reverse hr
    have hpart : trim ((r.reverse ++ ['\r']).takeWhile (· != '#')) =
        trim (r.reverse.takeWhile (· != '#')) := by
      rw [List.takeWhile_append]
      split
      next hall =>
        rw [(List.takeWhile_prefix _).eq_of_length hall]
        exact strip_append_of_forall (List.forall_mem_singleton.mpr (by decide))
      next => rfl
    rw [lineRequirement?, lineRequirement?, hpart]
  next => rfl

/-! ## 2. Texts -/

/-- **A list of requirements is read as the pieces between line feeds.** -/
theorem filterMap_lines (s : List Char) :
    (lines s).filterMap lineRequirement? = (piecesAt '\n' s).filterMap lineRequirement? := by
  have hreturns (ls : List (List Char)) :
      (ls.map dropReturn).filterMap lineRequirement? = ls.filterMap lineRequirement? := by
    rw [List.filterMap_map]
    exact List.filterMap_congr fun l _ => lineRequirement?_dropReturn l
  rw [lines]
  rcases List.eq_nil_or_concat' (piecesAt '\n' s) with hnil | ⟨init, last, hps⟩
  · rw [hnil]
    rfl
  · rw [hps]
    simp only [List.getLast?_concat, List.dropLast_concat, List.filterMap_append, hreturns]
    cases last with
    | nil => rfl
    | cons c cs => rfl

theorem mem_dependencies_iff :
    package ∈ (readRequirements s).dependencies ↔ ∃ line ∈ lines s, Requires line package := by
  simp only [readRequirements, Order.mem_ascending, List.mem_filterMap,
    lineRequirement?_eq_some_iff]

/-- **A line feed between two texts joins what they declare.** -/
theorem mem_dependencies_append :
    package ∈ (readRequirements (a ++ '\n' :: b)).dependencies ↔
      package ∈ (readRequirements a).dependencies ∨
        package ∈ (readRequirements b).dependencies := by
  simp only [readRequirements, Order.mem_ascending, filterMap_lines, piecesAt]
  rw [pieces_append (by decide), List.filterMap_append, List.mem_append]

/-- Joined texts declare what any of them declares. -/
theorem mem_dependencies_join {parts : List (List Char)} :
    package ∈ (readRequirements (join ['\n'] parts)).dependencies ↔
      ∃ part ∈ parts, package ∈ (readRequirements part).dependencies := by
  induction parts with
  | nil =>
    refine iff_of_false ?_ (by simp)
    rw [mem_dependencies_iff]
    simp [join, lines, piecesAt, pieces]
  | cons part parts ih =>
    cases parts with
    | nil => simp [join]
    | cons next parts =>
      rw [join, List.intercalate_cons_cons, List.append_assoc, List.singleton_append,
        mem_dependencies_append, ← join, ih]
      simp

/-! ## 3. What is promised -/

/-- What is declared by a text is a set that each line contributes to on its own. -/
structure ReadsLinewise (declared : List Char → List String) : Prop where
  /-- Sets are written as strictly ascending lists. -/
  ascending : ∀ s, (declared s).Pairwise (· < ·)
  /-- Two texts with a line feed between them declare the union. -/
  mem_append : ∀ a b package,
    package ∈ declared (a ++ '\n' :: b) ↔ package ∈ declared a ∨ package ∈ declared b
  /-- Texts may be joined in any order, and as often as one likes. -/
  eq_of_parts : ∀ parts parts', (∀ part, part ∈ parts ↔ part ∈ parts') →
    declared (join ['\n'] parts) = declared (join ['\n'] parts')
  /-- Texts with the same lines declare the same. -/
  eq_of_lines : ∀ s t, (∀ line, line ∈ lines s ↔ line ∈ lines t) → declared s = declared t
  /-- What is declared is what some line requires. -/
  mem_iff : ∀ s package, package ∈ declared s ↔ ∃ line ∈ lines s, Requires line package

/-- **Every line of a list of requirements stands for itself.** -/
theorem readRequirements_linewise : ReadsLinewise fun s => (readRequirements s).dependencies where
  ascending _ := Order.pairwise_ascending _
  mem_append _ _ _ := mem_dependencies_append
  eq_of_parts parts parts' h := by
    have hmem (package : String) : package ∈ (readRequirements (join ['\n'] parts)).dependencies ↔
        package ∈ (readRequirements (join ['\n'] parts')).dependencies := by
      simp only [mem_dependencies_join, h]
    exact (Order.pairwise_ascending _).eq_of_mem_iff (Order.pairwise_ascending _) hmem
  eq_of_lines s t h := by
    refine Order.ascending_congr fun package => ?_
    simp only [List.mem_filterMap, h]
  mem_iff _ _ := mem_dependencies_iff

example :
    (readRequirements "fastapi>=0.100\r\nSQLAlchemy==2.0.1  # orm\n -r more.txt\nfastapi".toList
      ).dependencies = ["fastapi", "sqlalchemy"] := by decide +kernel

end Codemap.Manifests
