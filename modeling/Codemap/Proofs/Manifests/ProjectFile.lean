/-
# What is read of project files

If a closing bracket stands within a requirement on the line that opens the array, the rows below
are taken for lines of the table, which say nothing to the reader.  So what is read is what the
items of the kept rows give (`dependencies_eq`), and a file is read rightly exactly if that is what
is required (`readsDependencies_iff`).
-/
import Codemap.Proofs.Manifests.ProjectLines
import Codemap.Proofs.Order.Ascending

namespace Codemap.Manifests.Project

open Codemap.Text

/-! ## 1. What is kept -/

namespace Layout

variable (l : Layout)

/-- What is kept of an array: the first row only, if there is a closing bracket in it. -/
def kept : List Requirement :=
  if l.first.any (·.text.contains ']') then l.first else l.requirements

/-- The names that are read of what is kept are those that are required. -/
structure KeepsItems : Prop where
  required : ∀ r ∈ l.kept, ∀ name ∈ r.read, ∃ s ∈ l.requirements, s.name? = some name
  read : ∀ s ∈ l.requirements, ∀ name ∈ s.name?, ∃ r ∈ l.kept, name ∈ r.read

end Layout

/-- The names that some requirements have, in strictly ascending order. -/
structure ListsNames (rs : List Requirement) (names : List String) : Prop where
  ascending : names.Pairwise (· < ·)
  mem_iff : ∀ name, name ∈ names ↔ ∃ r ∈ rs, r.name? = some name

/-- Of each text that a file is laid out in the names of the requirements are read. -/
def File.ReadsDependencies (f : File) : Prop :=
  ∀ text, IsLaidOut text f.lines → ListsNames f.layout.requirements (readProject text).dependencies

/-! ## 2. The array -/

section Layout

variable {names : List String} {d : ProjectDraft} (l : Layout)

theorem Layout.isEnd_closing : IsEnd l.closing := by
  rw [Layout.closing]
  split
  · exact Or.inl rfl
  · exact Or.inr rfl

theorem Layout.eq_of_mem_ending {line : List Char} (h : line ∈ l.ending) : line = [']'] := by
  rw [Layout.ending] at h
  split at h
  · exact List.mem_singleton.mp h
  · exact absurd h List.not_mem_nil

theorem isQuiet_ending : ∀ line ∈ l.ending, IsQuiet line := by
  intro line hline
  obtain rfl := l.eq_of_mem_ending hline
  decide

/-- A closing bracket on a line of its own closes the array, if it is open still. -/
theorem foldl_ending {inList : Bool} (hd : Inside inList names d)
    (h : inList = true → l.ownLine = true) :
    Inside false names (l.ending.foldl ProjectDraft.readLine d) := by
  cases inList with
  | true =>
    have hclosed := readLine_rowText true [] (t := [']']) hd (Or.inr rfl)
    rw [List.flatMap_nil, List.append_nil] at hclosed
    rw [Layout.ending, h rfl]
    exact hclosed
  | false => exact foldl_quiet (isQuiet_ending l) hd

/-- **The rows below are read while the array is open.** -/
theorem foldl_linesFrom (row : List Requirement) (rows : List (List Requirement))
    (hd : Inside true names d) :
    Inside false (names ++ (row :: rows).flatten.flatMap Requirement.read)
      ((l.linesFrom [] row rows).foldl ProjectDraft.readLine d) := by
  induction rows generalizing row names d with
  | nil =>
    have h := readLine_rowText l.comma row hd l.isEnd_closing
    rw [Layout.linesFrom, List.nil_append, List.foldl_cons, List.flatten_singleton]
    exact foldl_ending l h (by simp [Layout.closing])
  | cons next rows ih =>
    have h := readLine_rowText true row hd (Or.inl rfl)
    rw [List.append_nil] at h
    rw [Layout.linesFrom, List.nil_append, List.foldl_cons, List.flatten_cons, List.flatMap_append,
      ← List.append_assoc]
    exact ih next h

/-- **The rows below are passed over when the array is closed.** -/
theorem isQuiet_linesFrom (row : List Requirement) (rows : List (List Requirement)) :
    ∀ line ∈ l.linesFrom [] row rows, IsQuiet line := by
  induction rows generalizing row with
  | nil =>
    exact List.forall_mem_cons.mpr ⟨isQuiet_rowText l.comma row l.isEnd_closing, isQuiet_ending l⟩
  | cons next rows ih =>
    refine List.forall_mem_cons.mpr ⟨?_, ih next⟩
    simpa using isQuiet_rowText true row (t := []) (Or.inl rfl)

/-- **What is read of the array is what is kept of it.** -/
theorem foldl_lines (hd : Inside false names d) :
    Inside false (names ++ l.kept.flatMap Requirement.read)
      (l.lines.foldl ProjectDraft.readLine d) := by
  rw [Layout.lines]
  cases hmore : l.more with
  | nil =>
    have hkept : l.kept = l.first := by simp [Layout.kept, Layout.requirements, hmore]
    have h := readLine_first l.comma l.first hd l.isEnd_closing
    rw [Layout.linesFrom, List.foldl_cons, hkept]
    -- The bracket stands on this line or on the next one.
    refine foldl_ending l h fun hopen => ?_
    by_contra hown
    simp [Layout.closing, hown] at hopen
  | cons next rows =>
    have h := readLine_first true l.first (t := []) hd (Or.inl rfl)
    rw [List.append_nil, contains_rowText] at h
    rw [Layout.linesFrom, List.foldl_cons, Layout.kept]
    cases hany : l.first.any (·.text.contains ']') with
    | true =>
      rw [hany] at h
      exact foldl_quiet (isQuiet_linesFrom l next rows) h
    | false =>
      rw [hany] at h
      rw [if_neg (by simp), Layout.requirements, hmore, List.flatMap_append, ← List.append_assoc]
      exact foldl_linesFrom l next rows h

end Layout

/-! ## 3. The file -/

section File

variable {f : File} {text : List Char}

/-- **What is read of a file is what is kept of its array.** -/
theorem dependencies_eq (h : IsLaidOut text f.lines) : (readProject text).dependencies =
    Order.ascending (f.layout.kept.flatMap Requirement.read) := by
  have hforeign := List.forall_mem_append.mp f.foreign
  have hquiet := List.forall_mem_append.mp f.quiet
  have hbefore := foldl_foreign hforeign.1 (d := ⟨none, [], [], false⟩)
    ⟨rfl, rfl, by decide⟩
  have habove := foldl_quiet hquiet.1 (readLine_project hbefore)
  have hbelow := foldl_quiet hquiet.2 (foldl_lines f.layout habove)
  have hafter := foldl_after f.opens hforeign.2 hbelow
  rw [List.nil_append] at hafter
  rw [readProject, foldl_of_isLaidOut readLine_trim readLine_nil h, File.lines]
  simp only [List.foldl_append, List.foldl_cons, hafter]

theorem onOneLine_linesFrom (l : Layout) (start : List Char) (hstart : '\n' ∉ start)
    (row : List Requirement) (rows : List (List Requirement)) :
    ∀ line ∈ l.linesFrom start row rows, '\n' ∉ line := by
  induction rows generalizing start row with
  | nil =>
    refine List.forall_mem_cons.mpr ⟨?_, fun line hline => ?_⟩
    · have hclosing : '\n' ∉ l.closing := by
        rcases l.isEnd_closing with h | h <;> rw [h] <;> decide
      simp only [List.mem_append, not_or]
      exact ⟨hstart, not_mem_rowText.2, hclosing⟩
    · obtain rfl := l.eq_of_mem_ending hline
      decide
  | cons next rows ih =>
    refine List.forall_mem_cons.mpr ⟨?_, ih [] List.not_mem_nil next⟩
    simpa using ⟨hstart, not_mem_rowText.2⟩

theorem File.onOneLine_lines (f : File) : ∀ line ∈ f.lines, '\n' ∉ line := by
  have hlayout := onOneLine_linesFrom f.layout "dependencies = [".toList (by decide)
    f.layout.first f.layout.more
  have hrest := f.onOneLine
  simp only [List.forall_mem_append] at hrest
  obtain ⟨⟨⟨hbefore, habove⟩, hbelow⟩, hafter⟩ := hrest
  simp only [File.lines, List.forall_mem_append, List.forall_mem_cons]
  exact ⟨hbefore, by decide, habove, hlayout, hbelow, hafter⟩

theorem listsNames_ascending_iff {rs : List Requirement} {names : List String} :
    ListsNames rs (Order.ascending names) ↔
      ∀ name, name ∈ names ↔ ∃ r ∈ rs, r.name? = some name := by
  constructor
  · exact fun h name => Order.mem_ascending.symm.trans (h.mem_iff name)
  · exact fun h => ⟨Order.pairwise_ascending names, fun name => Order.mem_ascending.trans (h name)⟩

theorem keepsItems_iff (l : Layout) : l.KeepsItems ↔ ∀ name,
    name ∈ l.kept.flatMap Requirement.read ↔ ∃ r ∈ l.requirements, r.name? = some name := by
  simp only [List.mem_flatMap]
  constructor
  · intro h name
    constructor
    · rintro ⟨r, hr, hname⟩
      exact h.required r hr name hname
    · rintro ⟨s, hs, hname⟩
      exact h.read s hs name hname
  · exact fun h => ⟨fun r hr name hname => (h name).mp ⟨r, hr, hname⟩,
      fun s hs name hname => (h name).mpr ⟨s, hs, hname⟩⟩

theorem readsDependencies_iff_keepsItems (f : File) :
    f.ReadsDependencies ↔ f.layout.KeepsItems := by
  rw [keepsItems_iff, ← listsNames_ascending_iff]
  constructor
  · intro h
    have htext := isLaidOut_join f.onOneLine_lines
    rw [← dependencies_eq htext]
    exact h _ htext
  · intro h text htext
    rwa [dependencies_eq htext]

/-- Simple requirements are read as they are, if none is cut off. -/
theorem keepsItems_of_isSimple {l : Layout} (hsimple : ∀ r ∈ l.requirements, r.IsSimple)
    (hopening : l.more ≠ [] → ∀ r ∈ l.first, ']' ∉ r.text) : l.KeepsItems := by
  have hkept : l.kept = l.requirements := by
    by_cases hmore : l.more = []
    · simp [Layout.kept, Layout.requirements, hmore]
    · rw [Layout.kept, if_neg]
      simpa using hopening hmore
  have hread : ∀ r ∈ l.requirements, ∀ name, name ∈ r.read ↔ r.name? = some name := by
    intro r hr name
    rw [read_of_isSimple (hsimple r hr), Option.mem_toList]
  constructor
  · intro r hr name hname
    rw [hkept] at hr
    exact ⟨r, hr, (hread r hr name).mp hname⟩
  · intro s hs name hname
    exact ⟨s, hkept ▸ hs, (hread s hs name).mpr hname⟩

/-- **A list of requirements is read alike in every layout, exactly if the names that are read of
what is kept are those that are required.**  It is so if all requirements are simple and, unless
the whole array is on one line, no closing bracket is in one on the line that opens it. -/
theorem readsDependencies_iff (f : File) :
    (f.ReadsDependencies ↔ f.layout.KeepsItems) ∧
      ((∀ r ∈ f.layout.requirements, r.IsSimple) →
        (f.layout.more ≠ [] → ∀ r ∈ f.layout.first, ']' ∉ r.text) → f.ReadsDependencies) := by
  have hiff := readsDependencies_iff_keepsItems f
  exact ⟨hiff, fun hsimple hopening => hiff.mpr (keepsItems_of_isSimple hsimple hopening)⟩

end File

/-- A file of a worker that requires two versions of one package and one of another, in rows. -/
def worker : File where
  before := []
  above := ["name = \"worker#1\" # display name".toList]
  layout := {
    first := [⟨"celery>=5.0,<6".toList, by decide⟩]
    more := [[⟨"pandas[sql] >= 1.3".toList, by decide⟩], []]
    comma := true
    ownLine := true }
  below := []
  after := ["[tool.ruff]".toList, "line-length = 100".toList]

theorem readsDependencies_worker :
    (∀ r ∈ worker.layout.requirements, r.IsSimple) ∧
      (worker.layout.more ≠ [] → ∀ r ∈ worker.layout.first, ']' ∉ r.text) ∧
      worker.ReadsDependencies ∧
      worker.layout.requirements.filterMap Requirement.name? = ["celery", "pandas"] := by
  have hsimple : ∀ r ∈ worker.layout.requirements, r.IsSimple := by
    decide +kernel
  have hopening : worker.layout.more ≠ [] → ∀ r ∈ worker.layout.first, ']' ∉ r.text := by
    decide
  exact ⟨hsimple, hopening, (readsDependencies_iff worker).2 hsimple hopening, by decide⟩

/-- A file that requires a package with two extras. -/
def extras : File where
  before := []
  above := ["name = \"worker\"".toList]
  layout := {
    first := [⟨"celery[redis,sqs]>=5".toList, by decide⟩]
    more := []
    comma := false
    ownLine := false }
  below := []
  after := []

/-- The text of the file. -/
def extrasText : List Char :=
  "[project]
name = \"worker\"
dependencies = [\"celery[redis,sqs]>=5\"]
".toList

/-- **Behind the comma of extras a name is read that is not required.** -/
theorem not_readsDependencies_extras : ¬ extras.ReadsDependencies := by
  intro h
  have htext : IsLaidOut extrasText extras.lines := by
    rw [IsLaidOut]
    decide +kernel
  have hread : "sqs]" ∈ (readProject extrasText).dependencies := by
    decide +kernel
  obtain ⟨r, hr, hname⟩ := ((h extrasText htext).mem_iff "sqs]").mp hread
  obtain rfl := List.mem_singleton.mp hr
  exact absurd hname (by decide +kernel)

end Codemap.Manifests.Project
