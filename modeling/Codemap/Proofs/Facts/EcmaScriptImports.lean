/-
# ECMAScript: every import is one fact

Imports are found on two ways, by the statements and calls of `import` and by the calls of
`require`, and sorted together afterwards.  No node is found on both: a call calls either the
keyword or a name.  So each node of a tree gives one import if it imports something, and none
otherwise (`found_gives`).

Calls of `require` are matched by a pattern in which the string has to be the first named child of
the arguments.  Comments are named children, so the pattern matches a call whose first argument is a
string where no comment comes before it (`Requires.firstNamed`).

Main statement: `imports_complete`, about the calls that the pattern matches and, where it matches
all those whose first argument is a string, about these.
-/
import Codemap.Facts.Analysis
import Codemap.Proofs.Syntax.Walk
import Mathlib.Data.List.Perm.Basic

namespace Codemap.Facts.EcmaScript

open Codemap.Syntax

variable {n : Node} {c : Cursor} {path s : String} {i : Import} {first? : Node → Option Node}
  {tree : Node} {file : ParsedFile}

/-! ## 1. What imports -/

/-- The first named child of the arguments of a call, comments included. -/
def firstNamed? (arguments : Node) : Option Node := arguments.namedChildren.head?

/-- The first argument of a call. -/
def firstArgument? (arguments : Node) : Option Node :=
  arguments.namedChildren.find? (·.kind != "comment")

/-- A node is a call of the identifier `require` with the string `s` first. -/
inductive Requires (first? : Node → Option Node) (n : Node) : String → Prop
  | call {function arguments string : Node} (kind : n.kind = "call_expression")
      (function_eq : n.field? "function" = some function)
      (identifier : function.kind = "identifier") (require : function.text = "require")
      (arguments_eq : n.field? "arguments" = some arguments)
      (list : arguments.kind = "arguments") (first : first? arguments = some string)
      (isString : string.kind = "string") : Requires first? n string.text

/-- A node imports from the specifier `s`, as it is written. -/
inductive ImportsFrom (first? : Node → Option Node) (n : Node) : String → Prop
  /-- An import statement with a source of its own. -/
  | statement {s : String} (kind : n.kind = "import_statement")
      (source : n.fieldText? "source" = some s) : ImportsFrom first? n s
  /-- An import statement whose clause has the source. -/
  | clause {s : String} {clause : Node} (kind : n.kind = "import_statement")
      (own : n.fieldText? "source" = none)
      (clause_eq : n.childOfKind? "import_require_clause" = some clause)
      (source : clause.fieldText? "source" = some s) : ImportsFrom first? n s
  /-- A call of the keyword `import` with a string among its arguments. -/
  | keyword {function arguments string : Node} (kind : n.kind = "call_expression")
      (function_eq : n.field? "function" = some function) (keyword : function.kind = "import")
      (arguments_eq : n.field? "arguments" = some arguments)
      (first : arguments.namedChildren.find? (·.kind == "string") = some string) :
      ImportsFrom first? n string.text
  /-- A call of the identifier `require`. -/
  | require {s : String} (call : Requires first? n s) : ImportsFrom first? n s

/-- A string that is the first named child is the first argument. -/
theorem Requires.firstArgument (h : Requires firstNamed? n s) : Requires firstArgument? n s := by
  obtain ⟨hkind, hf, hidentifier, hrequire, ha, hlist, hfirst, hstring⟩ := h
  refine .call hkind hf hidentifier hrequire ha hlist ?_ hstring
  obtain ⟨rest, hrest⟩ := List.head?_eq_some_iff.mp hfirst
  rw [firstArgument?, hrest, List.find?_cons_of_pos (by simp [hstring])]

/-- The first argument is the first named child, unless that is a comment. -/
theorem Requires.firstNamed (h : Requires firstArgument? n s)
    (hcomment : ((n.field? "arguments").bind firstNamed?).all (·.kind != "comment")) :
    Requires firstNamed? n s := by
  obtain @⟨_, arguments, string, hkind, hf, hidentifier, hrequire, ha, hlist, hfirst, hstring⟩ := h
  refine .call hkind hf hidentifier hrequire ha hlist ?_ hstring
  rw [firstArgument?] at hfirst
  rw [ha, Option.bind_some, firstNamed?] at hcomment
  rw [firstNamed?]
  cases hchildren : arguments.namedChildren with
  | nil => simp [hchildren] at hfirst
  | cons b rest =>
    rw [hchildren, List.head?_cons, Option.all_some] at hcomment
    rw [hchildren, List.find?_cons, hcomment] at hfirst
    exact hfirst

theorem Requires.function_text (h : Requires first? n s) :
    (n.fieldText? "function") = some "require" := by
  obtain ⟨-, hf, -, hrequire, -⟩ := h
  rw [Node.fieldText?, hf, Option.map_some, hrequire]

/-! ## 2. What is found -/

/-- An import says where it stands and what it is from, without the quotes. -/
def Describes (path : String) (n : Node) (s : String) (i : Import) : Prop :=
  i.source = onString unquote s ∧ i.location = .ofSpan path n.span

theorem exists_statementImport? (path : String) (h : (n.fieldText? "source" <|>
      (n.childOfKind? "import_require_clause").bind (·.fieldText? "source")) = some s) :
    ∃ i, statementImport? path n = some i ∧ Describes path n s i := by
  rw [statementImport?, h]
  exact ⟨_, rfl, rfl, rfl⟩

theorem importsFrom_of_statementImport? (hkind : n.kind = "import_statement")
    (h : statementImport? path n = some i) : ∃ s, ImportsFrom first? n s := by
  obtain ⟨s, hs, -⟩ := Option.bind_eq_some_iff.mp h
  cases hown : n.fieldText? "source" with
  | some t => exact ⟨t, .statement hkind hown⟩
  | none =>
    rw [hown] at hs
    obtain ⟨clause, hclause, hs⟩ := Option.bind_eq_some_iff.mp hs
    exact ⟨s, .clause hkind hown hclause hs⟩

theorem exists_dynamicImport? (path : String) {function arguments string : Node}
    (hf : n.field? "function" = some function) (hkeyword : function.kind = "import")
    (ha : n.field? "arguments" = some arguments)
    (hs : arguments.namedChildren.find? (·.kind == "string") = some string) :
    ∃ i, dynamicImport? path n = some i ∧ Describes path n string.text i := by
  simp only [dynamicImport?, firstString?, hf, hkeyword, ha, hs, Option.bind_eq_bind,
    Option.bind_some]
  exact ⟨_, rfl, rfl, rfl⟩

theorem importsFrom_of_dynamicImport? (hkind : n.kind = "call_expression")
    (h : dynamicImport? path n = some i) : ∃ s, ImportsFrom first? n s := by
  obtain ⟨function, hf, h⟩ := Option.bind_eq_some_iff.mp h
  dsimp only at h
  split at h
  next => exact absurd h (by simp)
  next hkeyword =>
    obtain ⟨source, hsource, -⟩ := Option.bind_eq_some_iff.mp h
    obtain ⟨arguments, ha, hsource⟩ := Option.bind_eq_some_iff.mp hsource
    obtain ⟨string, hs, -⟩ := Option.bind_eq_some_iff.mp hsource
    exact ⟨_, .keyword hkind hf (by simpa using hkeyword) ha hs⟩

theorem exists_requireImport? (path : String) (h : Requires firstNamed? c.node s) :
    ∃ i, requireImport? path c = some i ∧ Describes path c.node s i := by
  obtain ⟨-, hf, hidentifier, hrequire, ha, hlist, hfirst, hstring⟩ := h
  rw [firstNamed?] at hfirst
  simp only [requireImport?, hf, hidentifier, hrequire, ha, hlist, hfirst, hstring,
    Option.bind_eq_bind, Option.bind_some]
  exact ⟨_, rfl, rfl, rfl⟩

theorem requires_of_requireImport? (hkind : c.kind = "call_expression")
    (h : requireImport? path c = some i) : ∃ s, Requires firstNamed? c.node s := by
  simp only [requireImport?, Option.bind_eq_bind] at h
  obtain ⟨function, hf, h⟩ := Option.bind_eq_some_iff.mp h
  split at h
  next => exact absurd h (by simp)
  next hname =>
    obtain ⟨arguments, ha, h⟩ := Option.bind_eq_some_iff.mp h
    split at h
    next => exact absurd h (by simp)
    next hlist =>
      obtain ⟨string, hs, h⟩ := Option.bind_eq_some_iff.mp h
      split at h
      next => exact absurd h (by simp)
      next hstring =>
        simp only [Bool.or_eq_true, bne_iff_ne, not_or, not_not] at hname hlist hstring
        exact ⟨_, .call hkind hf hname.1 hname.2 ha hlist hs hstring⟩

/-! ## 3. One import for each node -/

/-- What is found at a place on the first way. -/
def directImport? (path : String) (c : Cursor) : Option Import :=
  match c.kind with
  | "import_statement" => statementImport? path c.node
  | "call_expression" => dynamicImport? path c.node
  | _ => none

/-- What is found at a place on the second way. -/
def requiredImport? (path : String) (c : Cursor) : Option Import :=
  if c.kind == "call_expression" then requireImport? path c else none

/-- What is found at a place. -/
def found (path : String) (c : Cursor) : List Import :=
  (directImport? path c).toList ++ (requiredImport? path c).toList

/-- A node gives one import if it imports something, and none otherwise. -/
structure Gives (first? : Node → Option Node) (path : String) (n : Node) (given : List Import) :
    Prop where
  one : ∀ s, ImportsFrom first? n s → ∃ i, given = [i] ∧ Describes path n s i
  none : (∀ s, ¬ ImportsFrom first? n s) → given = []

theorem found_of_importsFrom (h : ImportsFrom firstNamed? c.node s) :
    ∃ i, found path c = [i] ∧ Describes path c.node s i := by
  have hstatement (hkind : c.node.kind = "import_statement")
      (hs : (c.node.fieldText? "source" <|> (c.node.childOfKind? "import_require_clause").bind
        (·.fieldText? "source")) = some s) :
      ∃ i, found path c = [i] ∧ Describes path c.node s i := by
    obtain ⟨i, hi, hdescribes⟩ := exists_statementImport? path hs
    exact ⟨i, by simp [found, directImport?, requiredImport?, Cursor.kind, hkind, hi], hdescribes⟩
  cases h with
  | statement hkind hs => exact hstatement hkind (by rw [hs]; rfl)
  | clause hkind hown hclause hs => exact hstatement hkind (by rw [hown, hclause]; exact hs)
  | keyword hkind hf hkeyword ha hs =>
    obtain ⟨i, hi, hdescribes⟩ := exists_dynamicImport? path hf hkeyword ha hs
    have hother : requireImport? path c = none := by
      simp [requireImport?, hf, hkeyword]
    exact ⟨i, by simp [found, directImport?, requiredImport?, Cursor.kind, hkind, hi, hother],
      hdescribes⟩
  | require h =>
    obtain ⟨i, hi, hdescribes⟩ := exists_requireImport? path h
    obtain ⟨hkind, hf, hidentifier, -⟩ := h
    have hother : dynamicImport? path c.node = none := by
      simp [dynamicImport?, hf, hidentifier]
    exact ⟨i, by simp [found, directImport?, requiredImport?, Cursor.kind, hkind, hi, hother],
      hdescribes⟩

theorem importsFrom_of_mem_found (h : i ∈ found path c) :
    ∃ s, ImportsFrom firstNamed? c.node s := by
  rcases List.mem_append.mp h with h | h
  · have h := Option.mem_toList.mp h
    rw [directImport?] at h
    split at h
    next hkind => exact importsFrom_of_statementImport? hkind h
    next hkind => exact importsFrom_of_dynamicImport? hkind h
    next => exact absurd h (by simp)
  · have h := Option.mem_toList.mp h
    rw [requiredImport?] at h
    split at h
    next hkind =>
      obtain ⟨s, hs⟩ := requires_of_requireImport? (eq_of_beq hkind) h
      exact ⟨s, .require hs⟩
    next => exact absurd h (by simp)

theorem found_gives (path : String) (c : Cursor) :
    Gives firstNamed? path c.node (found path c) where
  one _ h := found_of_importsFrom h
  none h := List.eq_nil_iff_forall_not_mem.mpr fun _ hi =>
    (importsFrom_of_mem_found hi).elim h

/-- What is found on both ways together is what is found at the places, one after the other. -/
theorem imports_perm (path : String) (tree : Node) :
    (((Cursor.top tree).walk.map (found path)).flatten).Perm (imports path tree) := by
  refine List.Perm.trans ?_ (List.mergeSort_perm _ importBefore).symm
  rw [List.filterMap_eq_flatMap_toList, List.filterMap_eq_flatMap_toList, ← List.flatMap_def]
  exact (List.flatMap_append_perm _ _ _).symm

/-! ## 4. Reading order -/

/-- An import does not start behind another one. -/
def StartsBefore (a b : Import) : Prop :=
  a.location.startLine < b.location.startLine ∨
    (a.location.startLine = b.location.startLine ∧
      a.location.startColumn ≤ b.location.startColumn)

theorem importBefore_iff {a b : Import} : importBefore a b ↔ StartsBefore a b := by
  simp [importBefore, StartsBefore]

theorem pairwise_imports (path : String) (tree : Node) :
    (imports path tree).Pairwise StartsBefore := by
  refine (List.pairwise_mergeSort ?_ ?_ _).imp importBefore_iff.mp
  · intro a b c
    simp only [importBefore_iff, StartsBefore]
    omega
  · intro a b
    rw [Bool.or_eq_true, importBefore_iff, importBefore_iff, StartsBefore, StartsBefore]
    omega

/-! ## 5. All imports of a tree -/

/-- Imports in reading order, one for each node of a tree that imports something. -/
structure IsComplete (first? : Node → Option Node) (file : ParsedFile) (imports : List Import) :
    Prop where
  ordered : imports.Pairwise StartsBefore
  given : ∃ given, List.Forall₂ (Gives first? file.path) file.tree.preorder given ∧
    given.flatten.Perm imports

/-- The pattern for calls of `require` matches all those whose first argument is a string. -/
def MatchesAll (tree : Node) : Prop :=
  ∀ n ∈ tree.preorder, ∀ s, Requires firstArgument? n s → Requires firstNamed? n s

/-- How the first argument is found makes a difference to the calls of `require` only. -/
theorem ImportsFrom.mono {other? : Node → Option Node}
    (hrequire : Requires first? n s → Requires other? n s) (h : ImportsFrom first? n s) :
    ImportsFrom other? n s := by
  cases h with
  | statement hkind hs => exact .statement hkind hs
  | clause hkind hown hclause hs => exact .clause hkind hown hclause hs
  | keyword hkind hf hkeyword ha hs => exact .keyword hkind hf hkeyword ha hs
  | require h => exact .require (hrequire h)

theorem importsFrom_iff (hn : n ∈ tree.preorder) (hall : MatchesAll tree) :
    ImportsFrom firstArgument? n s ↔ ImportsFrom firstNamed? n s :=
  ⟨.mono (hall n hn s), .mono Requires.firstArgument⟩

theorem isComplete_of_forall_gives
    (h : ∀ c ∈ (Cursor.top file.tree).walk, Gives first? file.path c.node (found file.path c)) :
    IsComplete first? file (imports file.path file.tree) where
  ordered := pairwise_imports file.path file.tree
  given := by
    refine ⟨_, ?_, imports_perm file.path file.tree⟩
    have hnodes : (Cursor.top file.tree).walk.map (·.node) = file.tree.preorder :=
      Cursor.map_node_walk (Cursor.top file.tree)
    rw [← hnodes, List.forall₂_map_left_iff, List.forall₂_map_right_iff, List.forall₂_same]
    exact h

theorem imports_ofTree (hl : file.language.isEcmaScript) :
    (FileFacts.ofTree file).imports = imports file.path file.tree := by
  obtain ⟨path, language, tree⟩ := file
  cases language <;> first | rfl | simp [Language.isEcmaScript] at hl

/-- **The imports of a file are, in reading order, one for each node that imports something**, with
the specifier that it imports from.  Of the calls of `require` these are the ones that the pattern
matches, so where it matches all whose first argument is a string, these are the ones. -/
theorem imports_complete (file : ParsedFile) (hl : file.language.isEcmaScript) :
    IsComplete firstNamed? file (FileFacts.ofTree file).imports ∧
      (MatchesAll file.tree → IsComplete firstArgument? file (FileFacts.ofTree file).imports) := by
  rw [imports_ofTree hl]
  refine ⟨isComplete_of_forall_gives fun c _ => found_gives file.path c, fun hall => ?_⟩
  refine isComplete_of_forall_gives fun c hc => ?_
  have hiff {s : String} := importsFrom_iff (s := s) (Cursor.node_mem_preorder hc) hall
  have hgives := found_gives file.path c
  exact ⟨fun s hs => hgives.one s (hiff.mp hs), fun hnone =>
    hgives.none fun s hs => hnone s (hiff.mpr hs)⟩

/-- An import with a clause, and two calls within a call. -/
def nested : ParsedFile where
  path := "src/app.ts"
  language := .typescript
  tree := parseSource .typescript "import x=require('x');f(require('a'),import(/**/'b'));"

/-- A comment hides nothing from the keyword, and no call of `require` has one. -/
theorem imports_complete_nested :
    nested.language.isEcmaScript ∧ MatchesAll nested.tree ∧
      ((FileFacts.ofTree nested).imports.map (·.source)).Perm ["x", "a", "b"] ∧
      IsComplete firstArgument? nested (FileFacts.ofTree nested).imports := by
  have hfile : (∀ n ∈ nested.tree.preorder, n.fieldText? "function" = some "require" →
      ((n.field? "arguments").bind firstNamed?).all (·.kind != "comment")) ∧
      ((Cursor.top nested.tree).walk.map (found nested.path)).flatten.map (·.source) =
        ["x", "a", "b"] := by
    decide +kernel
  obtain ⟨hcomment, hfound⟩ := hfile
  have hall : MatchesAll nested.tree := fun n hn _ h =>
    h.firstNamed (hcomment n hn h.function_text)
  refine ⟨rfl, hall, ?_, (imports_complete nested rfl).2 hall⟩
  rw [imports_ofTree rfl, ← hfound]
  exact ((imports_perm nested.path nested.tree).map _).symm

end Codemap.Facts.EcmaScript
