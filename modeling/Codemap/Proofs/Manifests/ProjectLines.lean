/-
# The lines of project files

A project file is written in tables, and the table of the project lists what is required in an
array.  The array may be laid out in any way: in one line, with rows of items on the lines below,
and with the closing bracket behind the last row or on a line of its own.

The reader takes one line after the other.  Lines of other tables say nothing about requirements,
and no more do most lines of the table of the project.  While the array is open, each line is taken
for a row of items, and a closing bracket at its end closes the array (`readLine_rowText`).  But on
the line that opens the array one anywhere does, also one within a requirement (`readLine_opening`).
-/
import Codemap.Proofs.Manifests.ListedItems

namespace Codemap.Manifests.Project

open Codemap.Text

/-! ## 1. The language -/

/-- A row of requirements in quotes, with commas between them and, if `comma` says so, behind the
last one. -/
def rowText (comma : Bool) : List Requirement → List Char
  | [] => []
  | [r] => r.quoted ++ if comma then [','] else []
  | r :: s :: rs => r.quoted ++ ',' :: ' ' :: rowText comma (s :: rs)

/-- How an array is laid out: the row on the line that opens it, the rows on the lines below,
whether there is a comma behind the last requirement, and whether the closing bracket has a line of
its own. -/
structure Layout where
  first : List Requirement
  more : List (List Requirement)
  comma : Bool
  ownLine : Bool

namespace Layout

variable (l : Layout)

/-- What stands behind the last row on its line. -/
def closing : List Char := if l.ownLine then [] else [']']

/-- What stands below the last row. -/
def ending : List (List Char) := if l.ownLine then [[']']] else []

/-- The lines of an array from a row on, which `start` stands before. -/
def linesFrom (start : List Char) (row : List Requirement) :
    List (List Requirement) → List (List Char)
  | [] => (start ++ (rowText l.comma row ++ l.closing)) :: l.ending
  | next :: rows => (start ++ rowText true row) :: linesFrom [] next rows

/-- The lines of an array. -/
def lines : List (List Char) := l.linesFrom "dependencies = [".toList l.first l.more

/-- What an array requires. -/
def requirements : List Requirement := l.first ++ l.more.flatten

end Layout

/-- A line without its comment and the blanks at its ends. -/
def code (line : List Char) : List Char := trim (uncommented none line)

/-- A line that starts a table. -/
def IsHeading (line : List Char) : Prop := (code line).head? = some '['

instance (line : List Char) : Decidable (IsHeading line) := inferInstanceAs (Decidable (_ = _))

/-- The names of the tables in which requirements are read. -/
def declaring : List String :=
  ["project", "tool.poetry.dependencies", "tool.poetry.dev-dependencies"]

/-- The name of the table that a line starts. -/
def heading (line : List Char) : String :=
  .ofList (strip (fun c => c == '[' || c == ']') (code line))

/-- A line that starts no table in which requirements are read. -/
def IsForeign (line : List Char) : Prop := IsHeading line → heading line ∉ declaring

instance (line : List Char) : Decidable (IsForeign line) :=
  inferInstanceAs (Decidable (_ → _))

/-- A line that starts no table and gives the dependencies no value. -/
def IsQuiet (line : List Char) : Prop :=
  ¬ IsHeading line ∧ ∀ kv ∈ cutFirst '=' (code line), trim kv.1 ≠ "dependencies".toList

instance (line : List Char) : Decidable (IsQuiet line) := inferInstanceAs (Decidable (_ ∧ _))

/-- A project file: the table of the project with an array of requirements in it, and lines of other
tables before and after. -/
structure File where
  before : List (List Char)
  above : List (List Char)
  layout : Layout
  below : List (List Char)
  after : List (List Char)
  foreign : ∀ line ∈ before ++ after, IsForeign line := by decide
  opens : ∀ line ∈ after.head?, IsHeading line := by decide
  quiet : ∀ line ∈ above ++ below, IsQuiet line := by decide
  onOneLine : ∀ line ∈ before ++ above ++ below ++ after, '\n' ∉ line := by decide

/-- The lines of a file. -/
def File.lines (f : File) : List (List Char) :=
  f.before ++ ("[project]".toList :: (f.above ++ (f.layout.lines ++ (f.below ++ f.after))))

/-! ## 2. Comments -/

theorem uncommented_of_not_mem {s : List Char} (h : '#' ∉ s) (mark : Option Char) :
    uncommented mark s = s := by
  induction s generalizing mark with
  | nil => rfl
  | cons c s ih =>
    rw [List.mem_cons, not_or] at h
    cases mark with
    | none => rw [uncommented, if_neg (by simpa using Ne.symm h.1), ih h.2]
    | some q => rw [uncommented, ih h.2]

theorem not_mem_of_isBlank {b : List Char} (hb : ∀ c ∈ b, isBlank c = true) : '#' ∉ b :=
  fun h => absurd (hb '#' h) (by decide)

/-- Blanks before a line open no quotes. -/
theorem uncommented_blank_append {b : List Char} (hb : ∀ c ∈ b, isBlank c = true) (s : List Char) :
    uncommented none (b ++ s) = b ++ uncommented none s := by
  induction b with
  | nil => rfl
  | cons c b ih =>
    obtain ⟨hc, hb⟩ := List.forall_mem_cons.mp hb
    have hmark : isMark c = false := (Bool.or_eq_false_iff.mp (isWrapping_of_isBlank hc)).1
    have hcomment : (c == '#') = false := by
      rw [beq_eq_false_iff_ne]
      rintro rfl
      exact absurd hc (by decide)
    simp [uncommented, hmark, hcomment, ih hb]

/-- Of blanks behind a line blanks are left. -/
theorem exists_uncommented_append {b : List Char} (hb : ∀ c ∈ b, isBlank c = true) (s : List Char)
    (mark : Option Char) : ∃ b', uncommented mark (s ++ b) = uncommented mark s ++ b' ∧
      ∀ c ∈ b', isBlank c = true := by
  induction s generalizing mark with
  | nil => exact ⟨b, uncommented_of_not_mem (not_mem_of_isBlank hb) mark, hb⟩
  | cons c s ih =>
    cases mark with
    | none =>
      by_cases hc : c == '#'
      · exact ⟨[], by simp [uncommented, hc], by simp⟩
      · obtain ⟨b', h, hb'⟩ := ih (if isMark c then some c else none)
        exact ⟨b', by simp [uncommented, hc, h], hb'⟩
    | some q =>
      obtain ⟨b', h, hb'⟩ := ih (if c == q then none else some q)
      exact ⟨b', by rw [List.cons_append, uncommented, h, uncommented, List.cons_append], hb'⟩

/-- Blanks at the ends of a line make no difference. -/
theorem code_trim (line : List Char) : code (trim line) = code line := by
  obtain ⟨a, b, hline, ha, hb, -, -⟩ := exists_eq_append_strip isBlank line
  -- The blanks behind the line may be in a comment, and then none of them is left.
  obtain ⟨b', huncommented, hb'⟩ := exists_uncommented_append hb (a ++ trim line) none
  calc code (trim line)
      = trim (a ++ uncommented none (trim line) ++ b') :=
        ((strip_append_of_forall hb').trans (strip_of_forall_append ha)).symm
    _ = trim (uncommented none (a ++ trim line ++ b)) := by
        rw [huncommented, uncommented_blank_append ha]
    _ = code line := congrArg (fun s => trim (uncommented none s)) hline.symm

theorem code_of_not_mem {line : List Char} (h : '#' ∉ line) : code line = trim line := by
  rw [code, uncommented_of_not_mem h]

/-! ## 3. Lines outside the array -/

/-- The names read so far, before a line of a table in which no requirements are read. -/
structure Outside (names : List String) (d : ProjectDraft) : Prop where
  inList : d.inList = false
  dependencies : d.dependencies = names
  heading : String.ofList d.heading ∉ declaring

/-- The names read so far, before a line of the table of the project; `inList` says whether the
array is open. -/
structure Inside (inList : Bool) (names : List String) (d : ProjectDraft) : Prop where
  inList : d.inList = inList
  dependencies : d.dependencies = names
  heading : String.ofList d.heading = "project"

section Tables

variable {names : List String} {d : ProjectDraft} {line : List Char}

theorem readLine_eq (d : ProjectDraft) (line : List Char) : d.readLine line =
    if (code line).isEmpty then d
    else if d.inList then d.readItems (code line)
    else if (code line).head? == some '[' then
      { d with heading := strip (fun c => c == '[' || c == ']') (code line) }
    else
      match cutFirst '=' (code line) with
      | some (key, value) => d.readValue (trim key) (trim value)
      | none => d := rfl

theorem readLine_trim (d : ProjectDraft) (line : List Char) :
    d.readLine (trim line) = d.readLine line := by
  rw [readLine_eq, readLine_eq, code_trim]

theorem readLine_nil (d : ProjectDraft) : d.readLine [] = d := rfl

theorem readLine_of_isHeading (h : IsHeading line) (hd : d.inList = false) :
    d.readLine line = { d with heading := strip (fun c => c == '[' || c == ']') (code line) } := by
  have hne : (code line).isEmpty = false := by
    rw [List.isEmpty_eq_false_iff]
    intro hnil
    rw [IsHeading, hnil] at h
    exact absurd h (by simp)
  rw [readLine_eq, hne, hd, h]
  rfl

/-- A line of a table says something if it gives a key a value. -/
theorem readLine_of_not_isHeading (h : ¬ IsHeading line) (hd : d.inList = false) :
    d.readLine line = match cutFirst '=' (code line) with
      | some (key, value) => d.readValue (trim key) (trim value)
      | none => d := by
  rw [readLine_eq, hd, beq_eq_false_iff_ne.mpr h]
  split
  next hnil => rw [List.isEmpty_iff.mp hnil]; rfl
  next => rfl

theorem readValue_outside (hd : Outside names d) (key value : List Char) :
    Outside names (d.readValue key value) := by
  have hheading := hd.heading
  simp only [declaring, List.mem_cons, List.not_mem_nil, or_false, not_or] at hheading
  obtain ⟨hproject, hpoetry, hdevelopment⟩ := hheading
  simp only [ProjectDraft.readValue, beq_iff_eq, Bool.and_eq_true, Bool.or_eq_true, hproject,
    hpoetry, hdevelopment, false_or, or_false, false_and, if_false]
  split_ifs
  · exact ⟨hd.inList, hd.dependencies, hd.heading⟩
  · exact hd

/-- Lines of other tables make no difference. -/
theorem readLine_foreign (hline : IsForeign line) (hd : Outside names d) :
    Outside names (d.readLine line) := by
  by_cases h : IsHeading line
  · rw [readLine_of_isHeading h hd.inList]
    exact ⟨hd.inList, hd.dependencies, hline h⟩
  · rw [readLine_of_not_isHeading h hd.inList]
    split
    · exact readValue_outside hd _ _
    · exact hd

theorem readValue_inside (hd : Inside false names d) {key : List Char}
    (hkey : key ≠ "dependencies".toList) (value : List Char) :
    Inside false names (d.readValue key value) := by
  have hword : String.ofList key ≠ "dependencies" := by
    intro heq
    exact hkey (by rw [← heq, String.toList_ofList])
  simp only [ProjectDraft.readValue, beq_iff_eq, Bool.and_eq_true, Bool.or_eq_true, hd.heading,
    hword, and_false, if_false]
  split_ifs with h1 h2
  · exact ⟨hd.inList, hd.dependencies, hd.heading⟩
  · exact absurd h2 (by decide)
  · exact hd

/-- Quiet lines of the table of the project make no difference to what is required. -/
theorem readLine_quiet (hline : IsQuiet line) (hd : Inside false names d) :
    Inside false names (d.readLine line) := by
  rw [readLine_of_not_isHeading hline.1 hd.inList]
  split
  next key value hcut => exact readValue_inside hd (hline.2 (key, value) hcut) _
  next => exact hd

theorem foldl_foreign {ls : List (List Char)} (hls : ∀ line ∈ ls, IsForeign line)
    (hd : Outside names d) : Outside names (ls.foldl ProjectDraft.readLine d) := by
  induction ls generalizing d with
  | nil => exact hd
  | cons line ls ih =>
    obtain ⟨hline, hls⟩ := List.forall_mem_cons.mp hls
    exact ih hls (readLine_foreign hline hd)

theorem foldl_quiet {ls : List (List Char)} (hls : ∀ line ∈ ls, IsQuiet line)
    (hd : Inside false names d) : Inside false names (ls.foldl ProjectDraft.readLine d) := by
  induction ls generalizing d with
  | nil => exact hd
  | cons line ls ih =>
    obtain ⟨hline, hls⟩ := List.forall_mem_cons.mp hls
    exact ih hls (readLine_quiet hline hd)

theorem readLine_project (hd : Outside names d) :
    Inside false names (d.readLine "[project]".toList) := by
  have hheading : heading "[project]".toList = "project" := by decide
  rw [readLine_of_isHeading (by decide) hd.inList]
  exact ⟨hd.inList, hd.dependencies, hheading⟩

/-- The tables behind that of the project make no difference. -/
theorem foldl_after {ls : List (List Char)} (hopens : ∀ line ∈ ls.head?, IsHeading line)
    (hls : ∀ line ∈ ls, IsForeign line) (hd : Inside false names d) :
    (ls.foldl ProjectDraft.readLine d).dependencies = names := by
  cases ls with
  | nil => exact hd.dependencies
  | cons line ls =>
    obtain ⟨hline, hls⟩ := List.forall_mem_cons.mp hls
    have h := hopens line rfl
    have hout : Outside names (d.readLine line) := by
      rw [readLine_of_isHeading h hd.inList]
      exact ⟨hd.inList, hd.dependencies, hline h⟩
    exact (foldl_foreign hls hout).dependencies

end Tables

/-! ## 4. Rows -/

section Rows

variable {comma : Bool} {row : List Requirement} {t : List Char}

theorem mem_rowText_iff {c : Char} (hquote : c ≠ quote) (hcomma : c ≠ ',') (hblank : c ≠ ' ') :
    c ∈ rowText comma row ↔ ∃ r ∈ row, c ∈ r.text := by
  fun_induction rowText comma row with
  | case1 => simp
  | case2 r => cases comma <;> simp [Requirement.quoted, hquote, hcomma]
  | case3 r s rs ih => simp [Requirement.quoted, hquote, hcomma, hblank, ih]

theorem not_mem_rowText : '#' ∉ rowText comma row ∧ '\n' ∉ rowText comma row := by
  constructor
  · rw [mem_rowText_iff (by decide) (by decide) (by decide)]
    rintro ⟨r, -, hr⟩
    exact (r.plain _ hr).2.1 rfl
  · rw [mem_rowText_iff (by decide) (by decide) (by decide)]
    rintro ⟨r, -, hr⟩
    exact (r.plain _ hr).2.2 rfl

/-- A row starts and ends with a mark. -/
theorem isSolid_rowText (comma : Bool) (hne : row ≠ []) : IsSolid (rowText comma row) := by
  have hquote : IsSolid [quote] := isSolid_of_forall (by decide) (by decide)
  have hcomma : IsSolid [','] := isSolid_of_forall (by decide) (by decide)
  fun_induction rowText comma row with
  | case1 => exact absurd rfl hne
  | case2 r =>
    cases comma with
    | false => simpa [Requirement.quoted] using hquote.append hquote r.text
    | true => simpa [Requirement.quoted] using hquote.append hcomma (r.text ++ [quote])
  | case3 r s rs ih =>
    simpa [Requirement.quoted] using
      hquote.append (ih (List.cons_ne_nil s rs)) (r.text ++ [quote, ',', ' '])

theorem contains_rowText (comma : Bool) (row : List Requirement) :
    (rowText comma row).contains ']' = row.any (·.text.contains ']') := by
  rw [Bool.eq_iff_iff, List.contains_iff_mem,
    mem_rowText_iff (by decide) (by decide) (by decide), List.any_eq_true]
  simp only [List.contains_iff_mem]

theorem head?_rowText (comma : Bool) (hne : row ≠ []) : (rowText comma row).head? = some quote := by
  fun_cases rowText comma row with
  | case1 => exact absurd rfl hne
  | case2 r => rfl
  | case3 r s rs => rfl

theorem getLast?_rowText (comma : Bool) (hne : row ≠ []) :
    (rowText comma row).getLast? = some (if comma then ',' else quote) := by
  fun_induction rowText comma row with
  | case1 => exact absurd rfl hne
  | case2 r => cases comma <;> simp [Requirement.quoted, List.getLast?_append, List.getLast?_cons]
  | case3 r s rs ih =>
    have hrest := ih (List.cons_ne_nil s rs)
    simp [List.getLast?_append, List.getLast?_cons, hrest]

/-- **The names that are read of a row are those read of its requirements.** -/
theorem listedRequirements_rowText (comma : Bool) (row : List Requirement) (ht : IsEnd t) :
    listedRequirements (rowText comma row ++ t) = row.flatMap Requirement.read := by
  fun_induction rowText comma row with
  | case1 => exact listedRequirements_of_isEnd ht
  | case2 r =>
    rw [List.flatMap_singleton]
    cases comma with
    | false =>
      rcases ht with rfl | rfl
      · simp [Requirement.read]
      · simpa [Requirement.read, Requirement.quoted] using
          listedRequirements_append_end (quote :: r.text)
    | true =>
      rw [if_pos rfl, List.append_assoc, List.singleton_append, listedRequirements_append,
        listedRequirements_of_isEnd ht, List.append_nil, Requirement.read]
  | case3 r s rs ih =>
    rw [List.append_assoc, List.cons_append, List.cons_append, listedRequirements_append,
      listedRequirements_cons_blank, ih, ← Requirement.read, ← List.flatMap_cons]

theorem isSolid_rowText_append (hne : row ≠ []) (ht : IsEnd t) :
    IsSolid (rowText comma row ++ t) := by
  have hsolid := isSolid_rowText comma hne
  rcases ht with rfl | rfl
  · rwa [List.append_nil]
  · exact hsolid.append (isSolid_of_forall (by decide) (by decide)) []

theorem head?_rowText_append (hne : row ≠ []) :
    (rowText comma row ++ t).head? = some quote := by
  rw [List.head?_append, head?_rowText comma hne]
  rfl

theorem not_mem_rowText_append (ht : IsEnd t) : '#' ∉ rowText comma row ++ t := by
  rw [List.mem_append, not_or]
  exact ⟨not_mem_rowText.1, by rcases ht with rfl | rfl <;> decide⟩

end Rows

/-! ## 5. Lines of the array -/

section Array

variable {names : List String} {d : ProjectDraft} {s t : List Char}

theorem code_of_isSolid (hs : IsSolid s) (hcomment : '#' ∉ s) : code s = s := by
  rw [code_of_not_mem hcomment, hs.trim_eq]

theorem readValue_dependencies (hd : String.ofList d.heading = "project") (value : List Char) :
    d.readValue "dependencies".toList value =
      { d.require (listedRequirements (value.dropWhile (· == '['))) with
        inList := !value.contains ']' } := by
  have hkey : String.ofList "dependencies".toList = "dependencies" := String.ofList_toList
  have hname : ("dependencies" == "name") = false := by decide
  simp only [ProjectDraft.readValue, hd, hkey, hname, beq_self_eq_true, Bool.and_false,
    Bool.and_self, Bool.false_eq_true, if_false, if_true]

/-- The line that opens the array gives the dependencies a value. -/
theorem cutFirst_opening (hs : IsSolid ('[' :: s)) (hcomment : '#' ∉ s) :
    cutFirst '=' (code ("dependencies = [".toList ++ s)) =
      some ("dependencies ".toList, ' ' :: '[' :: s) := by
  have hline : IsSolid ("dependencies = [".toList ++ s) :=
    (isSolid_of_forall (s := "dependencies".toList) (by decide) (by decide)).append hs " = ".toList
  have hcode : code ("dependencies = [".toList ++ s) =
      "dependencies ".toList ++ '=' :: ' ' :: '[' :: s :=
    code_of_isSolid hline (List.mem_append.not.mpr (not_or.mpr ⟨by decide, hcomment⟩))
  rw [hcode, cutFirst_append_cons (by decide)]

/-- **A closing bracket anywhere on the line that opens the array closes it.** -/
theorem readLine_opening (hd : Inside false names d) (hs : s = [] ∨ IsSolid s)
    (hhead : s.head? ≠ some '[') (hcomment : '#' ∉ s) :
    Inside (!s.contains ']') (names ++ listedRequirements s)
      (d.readLine ("dependencies = [".toList ++ s)) := by
  have hbracket : IsSolid ['['] := isSolid_of_forall (by decide) (by decide)
  have hvalue : IsSolid ('[' :: s) := by
    rcases hs with rfl | hs
    · exact hbracket
    · exact hbracket.append hs []
  have hcut := cutFirst_opening hvalue hcomment
  have hquiet : ¬ IsHeading ("dependencies = [".toList ++ s) := by
    rw [IsHeading, eq_of_cutFirst hcut]
    simp
  have hkey : trim "dependencies ".toList = "dependencies".toList := by decide
  have htrim : trim (' ' :: '[' :: s) = '[' :: s :=
    (strip_of_forall_append (t := [' ']) (by decide)).trans hvalue.trim_eq
  have hdrop : ('[' :: s).dropWhile (· == '[') = s := by
    cases s with
    | nil => rfl
    | cons c s =>
      have hc : c ≠ '[' := fun h => hhead (by rw [h]; rfl)
      rw [List.dropWhile_cons_of_pos (by simp), List.dropWhile_cons_of_neg (by simpa using hc)]
  have hcontains : ('[' :: s).contains ']' = s.contains ']' := by simp
  rw [readLine_of_not_isHeading hquiet hd.inList, hcut]
  simp only [hkey, htrim]
  rw [readValue_dependencies hd.heading, hdrop, hcontains]
  exact ⟨rfl, congrArg (· ++ listedRequirements s) hd.dependencies, hd.heading⟩

/-- The line that opens the array, with the first row on it. -/
theorem readLine_first (comma : Bool) (row : List Requirement) (hd : Inside false names d)
    (ht : IsEnd t) :
    Inside (!(rowText comma row ++ t).contains ']') (names ++ row.flatMap Requirement.read)
      (d.readLine ("dependencies = [".toList ++ (rowText comma row ++ t))) := by
  rw [← listedRequirements_rowText comma row ht]
  by_cases hrow : row = []
  · subst hrow
    change Inside (!t.contains ']') (names ++ listedRequirements t)
      (d.readLine ("dependencies = [".toList ++ t))
    rcases ht with rfl | rfl
    · exact readLine_opening hd (Or.inl rfl) (by simp) (by simp)
    · exact readLine_opening hd (Or.inr (isSolid_of_forall (by decide) (by decide))) (by decide)
        (by decide)
  · refine readLine_opening hd (Or.inr (isSolid_rowText_append hrow ht)) ?_
      (not_mem_rowText_append ht)
    rw [head?_rowText_append hrow]
    decide

/-- A line of the array.  It closes the array if it ends with a closing bracket. -/
theorem readLine_row (hd : Inside true names d) (hs : IsSolid s) (hhead : s.head? ≠ some ']')
    (hcomment : '#' ∉ s) :
    Inside (s.getLast? != some ']') (names ++ listedRequirements s) (d.readLine s) := by
  have hne : s.isEmpty = false := List.isEmpty_eq_false_iff.mpr hs.ne_nil
  rw [readLine_eq, code_of_isSolid hs hcomment, hne, hd.inList, if_neg (by simp), if_pos rfl,
    ProjectDraft.readItems, if_neg (by simpa using hhead)]
  have hnames : d.dependencies ++ listedRequirements s = names ++ listedRequirements s :=
    congrArg (· ++ listedRequirements s) hd.dependencies
  by_cases hlast : s.getLast? = some ']'
  · simp only [hlast, beq_self_eq_true, if_true]
    exact ⟨by simp, hnames, hd.heading⟩
  · simp only [beq_eq_false_iff_ne.mpr hlast, Bool.false_eq_true, if_false]
    exact ⟨by simp [ProjectDraft.require, hd.inList, hlast], hnames, hd.heading⟩

/-- A row, and perhaps the closing bracket, on a line of the array. -/
theorem readLine_rowText (comma : Bool) (row : List Requirement) (hd : Inside true names d)
    (ht : IsEnd t) :
    Inside t.isEmpty (names ++ row.flatMap Requirement.read)
      (d.readLine (rowText comma row ++ t)) := by
  by_cases hrow : row = []
  · subst hrow
    rw [List.flatMap_nil, List.append_nil, rowText, List.nil_append]
    rcases ht with rfl | rfl
    · exact hd
    · have hcode : code [']'] = [']'] := by decide
      rw [readLine_eq, hcode, hd.inList]
      exact ⟨rfl, hd.dependencies, hd.heading⟩
  · have hhead : (rowText comma row ++ t).head? ≠ some ']' := by
      rw [head?_rowText_append hrow]
      decide
    have hlast : ((rowText comma row ++ t).getLast? != some ']') = t.isEmpty := by
      rcases ht with rfl | rfl
      · rw [List.append_nil, getLast?_rowText comma hrow]
        cases comma <;> decide
      · simp
    have h := readLine_row hd (isSolid_rowText_append hrow ht) hhead (not_mem_rowText_append ht)
    rwa [listedRequirements_rowText comma row ht, hlast] at h

/-- What is left of an array that was closed too early says nothing. -/
theorem isQuiet_rowText (comma : Bool) (row : List Requirement) (ht : IsEnd t) :
    IsQuiet (rowText comma row ++ t) := by
  by_cases hrow : row = []
  · subst hrow
    change IsQuiet t
    rcases ht with rfl | rfl <;> decide
  · have hcode : code (rowText comma row ++ t) = rowText comma row ++ t :=
      code_of_isSolid (isSolid_rowText_append hrow ht) (not_mem_rowText_append ht)
    have hhead : (rowText comma row ++ t).head? = some quote := head?_rowText_append hrow
    rw [IsQuiet, IsHeading, hcode, hhead]
    refine ⟨by decide, fun kv hkv => ?_⟩
    -- A key, if there is one, starts with the quotation mark that the row starts with.
    obtain ⟨key, value⟩ := kv
    have hcut := eq_of_cutFirst hkv
    rw [hcut] at hhead
    cases key with
    | nil => exact absurd (Option.some.inj hhead) (by decide)
    | cons c key =>
      obtain rfl : c = quote := Option.some.inj hhead
      have hkey : trim (quote :: key) = quote :: dropEndWhile isBlank key :=
        strip_append_cons (by decide) [] key
      rw [hkey]
      exact fun h => absurd (List.cons.inj h).1 (by decide)

end Array

end Codemap.Manifests.Project
