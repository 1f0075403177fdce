/-
# What a module file declares

A module file has one line for the module and directives before and after it.  Between directives
the reader is in no group.  A directive whose groups are opened and closed without comments leaves
it so, and all that it adds is what it requires (`foldl_lines`): the rows of other groups are passed
over, since no group of requirements is open there.

Whatever the text, the path of the module is that of the last line that gives one
(`path_eq_nil_iff`), and reading fails only for want of it.

Main statement: `readGoModule_declares`.
-/
import Codemap.Proofs.Manifests.ModuleLines
import Codemap.Proofs.Order.Ascending

namespace Codemap.Manifests.GoModule

open Codemap.Text

/-! ## 1. Files -/

/-- A file: the line of the module, and directives before and after it.  The path of the module is
not all quotation marks. -/
structure File where
  before : List Directive
  path : Word
  comment : Option Comment
  after : List Directive
  named : ∃ c ∈ path.text, c.toNat ≠ 34 := by decide

/-- The lines of a file. -/
def File.lines (f : File) : List (List Char) :=
  f.before.flatMap Directive.lines ++
    withComment ("module ".toList ++ f.path.text) f.comment :: f.after.flatMap Directive.lines

/-- A line between brackets without its comment, unless it is nothing else. -/
def BodyLine.uncommented? : BodyLine → Option BodyLine
  | comment _ => none
  | row r _ => some (row r none)

/-- A directive without comments, unless it is nothing else. -/
def Directive.uncommented? : Directive → Option Directive
  | comment _ => none
  | single k r _ => some (single k r none)
  | group k _ body _ => some (group k none (body.filterMap BodyLine.uncommented?) none)

/-- The file without its comments. -/
def File.uncommented (f : File) : File where
  before := f.before.filterMap Directive.uncommented?
  path := f.path
  comment := none
  after := f.after.filterMap Directive.uncommented?
  named := f.named

/-- The paths that are named between brackets. -/
def pathsOf (body : List BodyLine) : List String := body.filterMap fun l => l.row?.map Row.path

/-- The paths that a directive requires. -/
def Directive.required : Directive → List String
  | single .require r _ => [r.path]
  | group .require _ body _ => pathsOf body
  | _ => []

/-- The paths that a file requires, in any of its directives. -/
def File.required (f : File) : List String :=
  f.before.flatMap Directive.required ++ f.after.flatMap Directive.required

/-- The paths that are read as required.  There is no opening bracket in the comment of a line, and
no comment behind the opening bracket of a group. -/
def Directive.read : Directive → List String
  | single .require r c => if bracketed c then [] else [r.path]
  | group .require none body _ => pathsOf body
  | _ => []

/-- A group that has been opened is closed, since no comment follows its closing bracket. -/
def Directive.closes : Directive → Bool
  | group .require none _ closing => closing.isNone
  | _ => true

/-- The paths of a file that are read as required. -/
def File.read (f : File) : List String :=
  f.before.flatMap Directive.read ++ f.after.flatMap Directive.read

/-- The path that is read: the comment on the line of the module is taken for a part of it. -/
def File.pathRead (f : File) : List Char := strip (·.toNat == 34) (f.path.text ++ tailOf f.comment)

/-- All groups of a file that have been opened are closed. -/
def File.Closes (f : File) : Prop := ∀ dir ∈ f.before ++ f.after, dir.closes

/-! ## 2. Reading directives -/

/-- Of what stands between brackets each row is required, or none. -/
theorem foldl_body (d : ModuleDraft) (body : List BodyLine) :
    (body.map BodyLine.line).foldl ModuleDraft.readLine d =
      if d.inBlock then { d with required := d.required ++ pathsOf body } else d := by
  induction body generalizing d with
  | nil => simp [pathsOf]
  | cons l body ih =>
    rw [List.map_cons, List.foldl_cons]
    cases l with
    | comment c =>
      rw [BodyLine.line, readLine_commentLine, ih]
      rfl
    | row r c =>
      rw [BodyLine.line, readLine_row]
      cases h : d.inBlock <;> simp [ih, h, pathsOf, BodyLine.row?]

/-- **What a directive adds** when no group is open, if it leaves none open. -/
theorem foldl_lines {path : List Char} {required : List String} {dir : Directive}
    (hcloses : dir.closes) :
    dir.lines.foldl ModuleDraft.readLine ⟨path, false, required⟩ =
      ⟨path, false, required ++ dir.read⟩ := by
  cases dir with
  | comment c => simp [Directive.lines, Directive.read, readLine_commentLine]
  | single k r c =>
    rw [Directive.lines, List.foldl_cons, List.foldl_nil]
    cases k with
    | require =>
      rw [readLine_single_require, Directive.read]
      cases bracketed c <;> simp
    | other w =>
      have hsolid : IsSolid (w.text ++ ' ' :: r.text) := by
        simpa using w.isSolid.append r.isSolid [' ']
      rw [Keyword.text_other, readLine_words _ c w (Or.inr ⟨_, rfl⟩) hsolid]
      simp [Directive.read]
  | group k opening body closing =>
    simp only [Directive.lines, List.cons_append, List.foldl_cons, List.foldl_append,
      List.foldl_nil, foldl_body]
    cases k with
    | require =>
      cases opening with
      | none =>
        obtain rfl : closing = none := by simpa [Directive.closes] using hcloses
        rw [readLine_opening_require]
        simp [readLine_closing_bracket, Directive.read]
      | some c =>
        -- Nothing has been opened, so the rows and the closing bracket are passed over.
        rw [readLine_opening_require_comment]
        cases closing <;>
          simp [readLine_closing_bracket, readLine_closing_comment, Directive.read]
    | other w =>
      have hbracket : IsSolid ['('] := isSolid_of_forall (by decide) (by decide)
      have hsolid : IsSolid (w.text ++ [' ', '(']) := by
        simpa using w.isSolid.append hbracket [' ']
      rw [Keyword.text_other, readLine_words _ opening w (Or.inr ⟨_, rfl⟩) hsolid]
      cases closing <;> simp [readLine_closing_bracket, readLine_closing_comment, Directive.read]

/-- No group is open between directives that close theirs. -/
theorem foldl_directives {path : List Char} {required : List String} {dirs : List Directive}
    (hcloses : ∀ dir ∈ dirs, dir.closes) :
    (dirs.flatMap Directive.lines).foldl ModuleDraft.readLine ⟨path, false, required⟩ =
      ⟨path, false, required ++ dirs.flatMap Directive.read⟩ := by
  induction dirs generalizing required with
  | nil => simp
  | cons dir dirs ih =>
    obtain ⟨hdir, hdirs⟩ := List.forall_mem_cons.mp hcloses
    rw [List.flatMap_cons, List.foldl_append, foldl_lines hdir, ih hdirs, List.flatMap_cons,
      List.append_assoc]

/-- **What is read of a file** in which all groups are closed. -/
theorem foldl_file {f : File} (hcloses : f.Closes) :
    f.lines.foldl ModuleDraft.readLine ⟨[], false, []⟩ =
      ⟨f.pathRead, false, f.read⟩ := by
  obtain ⟨hbefore, hafter⟩ := List.forall_mem_append.mp hcloses
  rw [File.lines, List.foldl_append, foldl_directives hbefore, List.foldl_cons, readLine_path,
    foldl_directives hafter, File.pathRead, File.read, List.nil_append]

/-- What is laid out is read line by line. -/
theorem foldl_readLine_of_isLaidOut {text : List Char} {ls : List (List Char)}
    (h : IsLaidOut text ls) (d : ModuleDraft) :
    (lines text).foldl ModuleDraft.readLine d = ls.foldl ModuleDraft.readLine d :=
  foldl_of_isLaidOut readLine_trim readLine_nil h d

/-- What a text declares whose lines have been read. -/
theorem readGoModule_eq_ok {text path : List Char} {ls : List (List Char)} {inBlock : Bool}
    {required : List String} (htext : IsLaidOut text ls)
    (hread : ls.foldl ModuleDraft.readLine ⟨[], false, []⟩ = ⟨path, inBlock, required⟩)
    (hne : path ≠ []) : readGoModule text =
      .ok ⟨some (.ofList (lastPart '/' path)), Order.ascending required, []⟩ := by
  rw [readGoModule, foldl_readLine_of_isLaidOut htext, hread, if_neg (by simpa using hne)]

/-! ## 3. Without comments -/

theorem pathsOf_uncommented (body : List BodyLine) :
    pathsOf (body.filterMap BodyLine.uncommented?) = pathsOf body := by
  rw [pathsOf, pathsOf, List.filterMap_filterMap]
  refine List.filterMap_congr fun l _ => ?_
  cases l <;> rfl

theorem read_uncommented? {dir dir' : Directive} (h : dir.uncommented? = some dir') :
    dir'.closes ∧ dir'.read = dir.required := by
  cases dir with
  | comment c => exact absurd h.symm (Option.some_ne_none dir')
  | single k r c =>
    obtain rfl := Option.some.inj h
    cases k <;> exact ⟨rfl, rfl⟩
  | group k opening body closing =>
    obtain rfl := Option.some.inj h
    cases k with
    | require => exact ⟨rfl, pathsOf_uncommented body⟩
    | other w => exact ⟨rfl, rfl⟩

theorem flatMap_read_uncommented (dirs : List Directive) :
    (dirs.filterMap Directive.uncommented?).flatMap Directive.read =
      dirs.flatMap Directive.required := by
  induction dirs with
  | nil => rfl
  | cons dir dirs ih =>
    rw [List.filterMap_cons, List.flatMap_cons]
    cases h : dir.uncommented? with
    | none =>
      obtain ⟨c, rfl⟩ : ∃ c, dir = .comment c := by
        cases dir with
        | comment c => exact ⟨c, rfl⟩
        | single k r c => exact absurd h (Option.some_ne_none _)
        | group k opening body closing => exact absurd h (Option.some_ne_none _)
      exact ih
    | some dir' => rw [List.flatMap_cons, ih, (read_uncommented? h).2]

theorem closes_uncommented (f : File) : f.uncommented.Closes := by
  intro dir hdir
  rw [File.uncommented, ← List.filterMap_append] at hdir
  obtain ⟨_, -, h⟩ := List.mem_filterMap.mp hdir
  exact (read_uncommented? h).1

/-- **What is read of a file without comments.** -/
theorem foldl_uncommented (f : File) :
    f.uncommented.lines.foldl ModuleDraft.readLine ⟨[], false, []⟩ =
      ⟨strip (·.toNat == 34) f.path.text, false, f.required⟩ := by
  rw [foldl_file (closes_uncommented f)]
  simp only [File.uncommented, File.pathRead, File.read, File.required, flatMap_read_uncommented,
    tailOf, List.append_nil]

theorem File.path_ne_nil (f : File) : strip (·.toNat == 34) f.path.text ≠ [] := by
  obtain ⟨c, hc, hmark⟩ := f.named
  exact fun hnil => hmark (beq_iff_eq.mp (strip_eq_nil_iff.mp hnil c hc))

/-! ## 4. The path of the module -/

/-- A line that gives the path of the module. -/
def IsModuleLine (l : List Char) : Prop := "module ".toList <+: trim l

/-- No line gives a path, or the last one that does has nothing but quotation marks for it. -/
def NamesNoModule (ls : List (List Char)) : Prop :=
  (∀ l ∈ ls, ¬ IsModuleLine l) ∨
    ∃ above l below rest, ls = above ++ l :: below ∧ (∀ m ∈ below, ¬ IsModuleLine m) ∧
      trim l = "module ".toList ++ rest ∧ ∀ c ∈ trim rest, c.toNat = 34

theorem path_readLine_of_not {l : List Char} (h : ¬ IsModuleLine l) (d : ModuleDraft) :
    (d.readLine l).path = d.path := by
  by_cases hnil : trim l = []
  · rw [← readLine_trim, hnil, readLine_nil]
  · by_cases hcomment : commentMark <+: trim l
    · rw [readLine_comment hcomment]
    · rw [readLine_of_ne_nil hnil hcomment, after?_eq_none_iff.mpr h]
      cases after? "require ".toList (trim l) <;> dsimp only <;> split_ifs <;> rfl

theorem namesNoModule_concat_of_not {ls : List (List Char)} {l : List Char}
    (h : ¬ IsModuleLine l) : NamesNoModule (ls ++ [l]) ↔ NamesNoModule ls := by
  constructor
  · rintro (hall | ⟨above, m, below, rest, hls, hbelow, hm, hmarks⟩)
    · exact Or.inl fun m hm => hall m (List.mem_append_left _ hm)
    · rcases List.eq_nil_or_concat' below with rfl | ⟨below, last, rfl⟩
      · obtain ⟨-, hlast⟩ := List.append_inj' hls rfl
        obtain rfl := List.singleton_inj.mp hlast
        exact absurd ⟨rest, hm.symm⟩ h
      · rw [← List.cons_append, ← List.append_assoc] at hls
        obtain ⟨rfl, -⟩ := List.append_inj' hls rfl
        exact Or.inr ⟨above, m, below, rest, rfl,
          fun k hk => hbelow k (List.mem_append_left _ hk), hm, hmarks⟩
  · rintro (hall | ⟨above, m, below, rest, rfl, hbelow, hm, hmarks⟩)
    · exact Or.inl (List.forall_mem_append.mpr ⟨hall, List.forall_mem_singleton.mpr h⟩)
    · exact Or.inr ⟨above, m, below ++ [l], rest, by simp,
        List.forall_mem_append.mpr ⟨hbelow, List.forall_mem_singleton.mpr h⟩, hm, hmarks⟩

theorem namesNoModule_concat {ls : List (List Char)} {l rest : List Char}
    (h : trim l = "module ".toList ++ rest) :
    NamesNoModule (ls ++ [l]) ↔ ∀ c ∈ trim rest, c.toNat = 34 := by
  constructor
  · rintro (hall | ⟨above, m, below, rest', hls, hbelow, hm, hmarks⟩)
    · exact absurd ⟨rest, h.symm⟩ (hall l (List.mem_append_right _ List.mem_cons_self))
    · rcases List.eq_nil_or_concat' below with rfl | ⟨below, last, rfl⟩
      · obtain ⟨-, hlast⟩ := List.append_inj' hls rfl
        obtain rfl := List.singleton_inj.mp hlast
        rwa [List.append_cancel_left (h.symm.trans hm)]
      · rw [← List.cons_append, ← List.append_assoc] at hls
        obtain ⟨-, hlast⟩ := List.append_inj' hls rfl
        obtain rfl := List.singleton_inj.mp hlast
        exact absurd ⟨rest, h.symm⟩ (hbelow l (List.mem_append_right _ List.mem_cons_self))
  · exact fun hmarks => Or.inr ⟨ls, l, [], rest, rfl, by simp, h, hmarks⟩

/-- **The path of the module is that of the last line that gives one.** -/
theorem path_eq_nil_iff (ls : List (List Char)) :
    (ls.foldl ModuleDraft.readLine ⟨[], false, []⟩).path = [] ↔ NamesNoModule ls := by
  induction ls using List.reverseRecOn with
  | nil => exact iff_of_true rfl (Or.inl fun l hl => absurd hl List.not_mem_nil)
  | append_singleton ls l ih =>
    rw [List.foldl_concat]
    by_cases h : IsModuleLine l
    · obtain ⟨rest, hrest⟩ := h
      rw [readLine_module hrest.symm, namesNoModule_concat hrest.symm, strip_eq_nil_iff]
      simp only [beq_iff_eq]
    · rw [path_readLine_of_not h, ih, namesNoModule_concat_of_not h]

/-! ## 5. What is declared -/

/-- What follows the last slash of a path. -/
def IsLastSegment (path segment : List Char) : Prop :=
  '/' ∉ segment ∧ (path = segment ∨ ∃ above, path = above ++ '/' :: segment)

theorem isLastSegment_lastPart (path : List Char) : IsLastSegment path (lastPart '/' path) := by
  by_cases h : '/' ∈ path
  · obtain ⟨above, segment, rfl, hsegment⟩ := exists_append_cons_of_mem h
    rw [lastPart_append_cons hsegment]
    exact ⟨hsegment, Or.inr ⟨above, rfl⟩⟩
  · rw [lastPart_of_not_mem h]
    exact ⟨h, Or.inl rfl⟩

/-- What a file declares: a name, the last segment of the path of the module, and what its
directives require, however they are split into lines and groups. -/
structure Declares (f : File) (declared : Declarations) : Prop where
  name : ∃ segment, IsLastSegment f.path.text segment ∧ declared.name = some (.ofList segment)
  ascending : declared.dependencies.Pairwise (· < ·)
  mem_iff : ∀ path, path ∈ declared.dependencies ↔ path ∈ f.required
  workspaces : declared.workspaces = []

/-- **A module file declares its module and what its directives require.**  This is so for each file
without comments and each text that it is laid out in.  Of any text whatever, reading fails exactly
if it names no module. -/
theorem readGoModule_declares :
    (∀ (f : File) (text : List Char), (∀ c ∈ f.path.text, c.toNat ≠ 34) →
      IsLaidOut text f.uncommented.lines →
      ∃ declared, readGoModule text = .ok declared ∧ Declares f declared) ∧
    ∀ text, readGoModule text = .error .noModule ↔ NamesNoModule (lines text) := by
  constructor
  · intro f text hmarks htext
    have hpath : strip (·.toNat == 34) f.path.text = f.path.text := by
      have hkeep : ∀ c ∈ f.path.text, (c.toNat == 34) = false := fun c hc =>
        beq_eq_false_iff_ne.mpr (hmarks c hc)
      exact strip_eq_self (fun c hc => hkeep c (List.mem_of_mem_head? hc))
        fun c hc => hkeep c (List.mem_of_mem_getLast? hc)
    refine ⟨_, readGoModule_eq_ok htext (foldl_uncommented f) f.path_ne_nil, ?_⟩
    rw [hpath]
    exact ⟨⟨_, isLastSegment_lastPart _, rfl⟩, Order.pairwise_ascending _,
      fun _ => Order.mem_ascending, rfl⟩
  · intro text
    rw [← path_eq_nil_iff, readGoModule, ← List.isEmpty_iff]
    split <;> simp [*]

/-- A requirement. -/
def gorm : Row := ⟨{ text := "gorm.io/gorm".toList }, [{ text := "v1.25.5".toList }]⟩

/-- Another requirement. -/
def uuid : Row := ⟨{ text := "example.com/uuid".toList }, [{ text := "v1.6.0".toList }]⟩

/-- A file with a group that lists what is not required, before requirements in a group and on a
line. -/
def orders : File where
  before := []
  path := { text := "example.com/shop/orders".toList }
  comment := none
  after :=
    [.group (.other { text := "exclude".toList }) none [.row uuid none] none,
      .group .require none [.row gorm none] none,
      .single .require gorm none]

/-- The text of the file, with blank lines and indentation. -/
def ordersText : List Char :=
  "module example.com/shop/orders

exclude (
  example.com/uuid v1.6.0
)
require (
  gorm.io/gorm v1.25.5
)
require gorm.io/gorm v1.25.5
".toList

theorem readGoModule_declares_orders :
    (∀ c ∈ orders.path.text, c.toNat ≠ 34) ∧ IsLaidOut ordersText orders.uncommented.lines ∧
      (∃ declared, readGoModule ordersText = .ok declared ∧ Declares orders declared) ∧
      orders.required = ["gorm.io/gorm", "gorm.io/gorm"] := by
  have hmarks : ∀ c ∈ orders.path.text, c.toNat ≠ 34 := by decide
  have htext : IsLaidOut ordersText orders.uncommented.lines := by
    rw [IsLaidOut]
    decide +kernel
  exact ⟨hmarks, htext, readGoModule_declares.1 orders ordersText hmarks htext, by decide +kernel⟩

end Codemap.Manifests.GoModule
