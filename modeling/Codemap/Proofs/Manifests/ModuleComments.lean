/-
# Comments in module files

A comment on a line of its own is passed over, and so is one behind a row between brackets, behind
a directive that requires nothing, and behind a requirement on one line if there is no opening
bracket in it.  In four places a comment is not told from what it follows:

* behind the path of the module it is taken for a part of the path;
* behind the opening bracket of a group of requirements it keeps the group from being opened;
* behind the closing bracket of such a group it keeps the group from being closed, and the bracket
  itself is required (`closingBracket_mem`);
* behind a requirement on one line an opening bracket in it makes the line be taken for a group.

Main statement: `commentsDoNotMatter_iff`.  A file is read as if it had no comments exactly if the
name comes out the same by chance, no group that has been opened has a comment behind its closing
bracket, and every path is required in some place where it is read.
-/
import Codemap.Proofs.Manifests.ModuleFile

namespace Codemap.Manifests.GoModule

open Codemap.Text

/-! ## 1. What is read is kept -/

theorem required_subset_readLine (d : ModuleDraft) (l : List Char) :
    d.required ⊆ (d.readLine l).required := by
  by_cases hnil : trim l = []
  · rw [← readLine_trim, hnil, readLine_nil]
    exact List.Subset.refl _
  · by_cases hcomment : commentMark <+: trim l
    · rw [readLine_comment hcomment]
      exact List.Subset.refl _
    · rw [readLine_of_ne_nil hnil hcomment]
      cases after? "module ".toList (trim l) with
      | some rest => exact List.Subset.refl _
      | none => cases after? "require ".toList (trim l) <;> dsimp only <;> split_ifs <;> simp

theorem mem_required_foldl {x : String} {d : ModuleDraft} (h : x ∈ d.required)
    (ls : List (List Char)) : x ∈ (ls.foldl ModuleDraft.readLine d).required := by
  induction ls generalizing d with
  | nil => exact h
  | cons l ls ih => exact ih (required_subset_readLine d l h)

/-- **A closing bracket with a comment behind it is required**, if the group has been opened. -/
theorem closingBracket_mem {dir : Directive} (hcloses : ¬ dir.closes) (d : ModuleDraft) :
    ")" ∈ (dir.lines.foldl ModuleDraft.readLine d).required := by
  obtain ⟨body, c, rfl⟩ : ∃ body c, dir = .group .require none body (some c) := by
    cases dir with
    | comment c => exact absurd rfl hcloses
    | single k r c => exact absurd rfl hcloses
    | group k opening body closing =>
      cases k <;> cases opening <;> cases closing <;>
        first | exact absurd rfl hcloses | exact ⟨_, _, rfl⟩
  simp only [Directive.lines, List.cons_append, List.foldl_cons, List.foldl_append, List.foldl_nil,
    foldl_body, readLine_opening_require, readLine_closing_comment]
  simp

theorem closingBracket_mem_directives {dirs : List Directive} {dir : Directive} (hdir : dir ∈ dirs)
    (hcloses : ¬ dir.closes) (d : ModuleDraft) :
    ")" ∈ ((dirs.flatMap Directive.lines).foldl ModuleDraft.readLine d).required := by
  obtain ⟨above, below, rfl⟩ := List.append_of_mem hdir
  rw [List.flatMap_append, List.flatMap_cons, List.foldl_append, List.foldl_append]
  exact mem_required_foldl (closingBracket_mem hcloses _) _

theorem closes_of_not_mem {f : File}
    (h : ")" ∉ (f.lines.foldl ModuleDraft.readLine ⟨[], false, []⟩).required) : f.Closes := by
  intro dir hdir
  by_contra hcloses
  rw [File.lines, List.foldl_append, List.foldl_cons] at h
  rcases List.mem_append.mp hdir with hdir | hdir
  · refine h (mem_required_foldl ?_ _)
    exact required_subset_readLine _ _ (closingBracket_mem_directives hdir hcloses _)
  · exact h (closingBracket_mem_directives hdir hcloses _)

/-! ## 2. Required and read paths -/

theorem exists_word_of_mem_pathsOf {body : List BodyLine} {path : String}
    (h : path ∈ pathsOf body) :
    ∃ w : Word, path = .ofList w.text := by
  obtain ⟨l, -, hl⟩ := List.mem_filterMap.mp h
  obtain ⟨r, -, rfl⟩ := Option.map_eq_some_iff.mp hl
  exact ⟨r.first, rfl⟩

theorem exists_word_of_mem_required {dir : Directive} {path : String} (h : path ∈ dir.required) :
    ∃ w : Word, path = .ofList w.text := by
  cases dir with
  | comment c => exact absurd h List.not_mem_nil
  | single k r c =>
    cases k with
    | require => exact ⟨r.first, List.mem_singleton.mp h⟩
    | other w => exact absurd h List.not_mem_nil
  | group k opening body closing =>
    cases k with
    | require => exact exists_word_of_mem_pathsOf h
    | other w => exact absurd h List.not_mem_nil

/-- No bracket is a path. -/
theorem closingBracket_not_mem_required (f : File) : ")" ∉ f.required := by
  intro h
  rw [File.required, ← List.flatMap_append] at h
  obtain ⟨dir, -, hdir⟩ := List.mem_flatMap.mp h
  obtain ⟨w, hw⟩ := exists_word_of_mem_required hdir
  have hmem : ')' ∈ w.text := by
    rw [← String.toList_ofList (l := w.text), ← hw]
    decide
  exact (w.plain _ hmem).2.2 rfl

theorem read_subset_required (dir : Directive) : dir.read ⊆ dir.required := by
  cases dir with
  | comment c => exact List.Subset.refl _
  | single k r c =>
    cases k with
    | require =>
      rw [Directive.read, Directive.required]
      split_ifs <;> simp
    | other w => exact List.Subset.refl _
  | group k opening body closing =>
    cases k with
    | require =>
      cases opening with
      | none => exact List.Subset.refl _
      | some c => exact List.nil_subset _
    | other w => exact List.Subset.refl _

theorem File.mem_required_of_mem_read {f : File} {path : String} (h : path ∈ f.read) :
    path ∈ f.required := by
  rw [File.read, ← List.flatMap_append] at h
  rw [File.required, ← List.flatMap_append]
  obtain ⟨dir, hdir, hpath⟩ := List.mem_flatMap.mp h
  exact List.mem_flatMap.mpr ⟨dir, hdir, read_subset_required dir hpath⟩

/-! ## 3. Names -/

/-- What follows the last slash of a comment, of which blanks and then quotation marks are taken off
the end. -/
def Comment.tailName (c : Comment) : List Char :=
  lastPart '/' (dropEndWhile (·.toNat == 34) (trimEnd (' ' :: c.text)))

theorem pathRead_eq {f : File} {c : Comment} (hc : f.comment = some c) :
    ∃ above, f.pathRead =
      above ++ '/' :: dropEndWhile (·.toNat == 34) (trimEnd (' ' :: c.text)) := by
  have hline : f.path.text ++ tailOf f.comment =
      (f.path.text ++ [' ', '/']) ++ '/' :: trimEnd (' ' :: c.text) := by
    simp [hc, tailOf, commentMark]
  rw [File.pathRead, hline, strip_append_cons (by decide)]
  exact ⟨_, rfl⟩

theorem lastPart_pathRead {f : File} {c : Comment} (hc : f.comment = some c) :
    lastPart '/' f.pathRead = c.tailName := by
  obtain ⟨above, habove⟩ := pathRead_eq hc
  rw [habove, lastPart_append, Comment.tailName]

theorem pathRead_of_none {f : File} (hc : f.comment = none) :
    f.pathRead = strip (·.toNat == 34) f.path.text := by
  rw [File.pathRead, hc, tailOf, List.append_nil]

theorem File.pathRead_ne_nil (f : File) : f.pathRead ≠ [] := by
  cases hc : f.comment with
  | none =>
    rw [pathRead_of_none hc]
    exact f.path_ne_nil
  | some c =>
    obtain ⟨above, habove⟩ := pathRead_eq hc
    simp [habove]

/-! ## 4. Comments that do not matter -/

/-- Comments do not matter for a file: in whatever way it is laid out with and without them, the
same is read. -/
def CommentsDoNotMatter (f : File) : Prop :=
  ∀ text text', IsLaidOut text f.lines → IsLaidOut text' f.uncommented.lines →
    readGoModule text = readGoModule text'

/-- The comments of a file stand where they are told from what they follow, or what they change
comes out the same. -/
structure KeepsMeaning (f : File) : Prop where
  /-- A comment on the line of the module ends in the name of the module. -/
  name : ∀ c, f.comment = some c → c.tailName = lastPart '/' (strip (·.toNat == 34) f.path.text)
  /-- No comment stands behind the closing bracket of a group that has been opened. -/
  closes : f.Closes
  /-- What is required is required in some place where it is read. -/
  read : ∀ path ∈ f.required, path ∈ f.read

theorem onOneLine_withComment {l : List Char} (h : '\n' ∉ l) (c : Option Comment) :
    '\n' ∉ withComment l c := by
  cases c with
  | none => exact h
  | some c => simp [withComment, commentMark, h, c.onOneLine]

theorem Word.onOneLine (w : Word) : '\n' ∉ w.text :=
  fun h => absurd (w.plain _ h).1 (by decide)

theorem Row.onOneLine (r : Row) : '\n' ∉ r.text := by
  simp [Row.text, Word.onOneLine]

theorem Keyword.onOneLine (k : Keyword) : '\n' ∉ k.text := by
  cases k with
  | require => decide
  | other w => exact w.onOneLine

theorem Comment.onOneLine_line (c : Comment) : '\n' ∉ c.line := by
  simp [Comment.line, commentMark, c.onOneLine]

theorem Directive.onOneLine (dir : Directive) : ∀ l ∈ dir.lines, '\n' ∉ l := by
  cases dir with
  | comment c => exact List.forall_mem_singleton.mpr c.onOneLine_line
  | single k r c =>
    refine List.forall_mem_singleton.mpr (onOneLine_withComment ?_ c)
    simp [k.onOneLine, r.onOneLine]
  | group k opening body closing =>
    have hbody : ∀ l ∈ body, '\n' ∉ l.line := by
      intro l _
      cases l with
      | comment c => exact c.onOneLine_line
      | row r c => exact onOneLine_withComment r.onOneLine c
    simp only [Directive.lines, List.cons_append, List.forall_mem_cons, List.forall_mem_append,
      List.forall_mem_map, List.not_mem_nil, IsEmpty.forall_iff, implies_true, and_true]
    exact ⟨onOneLine_withComment (by simp [k.onOneLine]) opening, hbody,
      onOneLine_withComment (by decide) closing⟩

/-- The lines of a file are lines. -/
theorem File.onOneLine (f : File) : ∀ l ∈ f.lines, '\n' ∉ l := by
  have hpath : '\n' ∉ "module ".toList ++ f.path.text := by
    rw [List.mem_append, not_or]
    exact ⟨by decide, f.path.onOneLine⟩
  simp only [File.lines, List.forall_mem_append, List.forall_mem_cons, List.forall_mem_flatMap]
  exact ⟨fun dir _ => dir.onOneLine, onOneLine_withComment hpath f.comment,
    fun dir _ => dir.onOneLine⟩

theorem dependencies_of_eq_ok {text : List Char} {ls : List (List Char)} {declared : Declarations}
    (htext : IsLaidOut text ls) (h : readGoModule text = .ok declared) :
    declared.dependencies =
      Order.ascending (ls.foldl ModuleDraft.readLine ⟨[], false, []⟩).required := by
  rw [readGoModule, foldl_readLine_of_isLaidOut htext] at h
  split at h
  · cases h
  · obtain rfl := Except.ok.inj h
    rfl

/-- **Comments do not matter for exactly the files whose comments keep their meaning.** -/
theorem commentsDoNotMatter_iff (f : File) : CommentsDoNotMatter f ↔ KeepsMeaning f := by
  constructor
  · intro h
    have htext := isLaidOut_join f.onOneLine
    have hplain := isLaidOut_join f.uncommented.onOneLine
    have hsame := h _ _ htext hplain
    rw [readGoModule_eq_ok hplain (foldl_uncommented f) f.path_ne_nil] at hsame
    have hcloses : f.Closes := by
      refine closes_of_not_mem fun hmem => closingBracket_not_mem_required f ?_
      have hdeps : Order.ascending f.required = _ := dependencies_of_eq_ok htext hsame
      rw [← Order.mem_ascending, hdeps, Order.mem_ascending]
      exact hmem
    rw [readGoModule_eq_ok htext (foldl_file hcloses) f.pathRead_ne_nil] at hsame
    obtain ⟨hname, hdeps, -⟩ := Declarations.mk.inj (Except.ok.inj hsame)
    refine ⟨fun c hc => ?_, hcloses, fun path hpath => ?_⟩
    · rw [← lastPart_pathRead hc]
      simpa using congrArg String.toList (Option.some.inj hname)
    · rw [← Order.mem_ascending, hdeps, Order.mem_ascending]
      exact hpath
  · intro h text text' htext hplain
    have hname : lastPart '/' f.pathRead = lastPart '/' (strip (·.toNat == 34) f.path.text) := by
      cases hc : f.comment with
      | none => rw [pathRead_of_none hc]
      | some c => rw [lastPart_pathRead hc, h.name c hc]
    have hdeps : Order.ascending f.read = Order.ascending f.required :=
      Order.ascending_congr fun path => ⟨File.mem_required_of_mem_read, h.read path⟩
    rw [readGoModule_eq_ok htext (foldl_file h.closes) f.pathRead_ne_nil,
      readGoModule_eq_ok hplain (foldl_uncommented f) f.path_ne_nil, hdeps, hname]

/-- A group of requirements with a comment behind its opening bracket. -/
def direct : File where
  before := []
  path := orders.path
  comment := none
  after := [.group .require (some { text := "direct".toList }) [.row gorm none] none]

/-- **A comment behind the opening bracket of a group hides what is required in it.** -/
theorem not_commentsDoNotMatter_direct : ¬ CommentsDoNotMatter direct := by
  intro h
  have hsame := h (join ['\n'] direct.lines) (join ['\n'] direct.uncommented.lines)
    (isLaidOut_join direct.onOneLine) (isLaidOut_join direct.uncommented.onOneLine)
  revert hsame
  decide +kernel

end Codemap.Manifests.GoModule
