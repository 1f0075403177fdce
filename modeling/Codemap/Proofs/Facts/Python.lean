/-
# Python: every definition is one fact

Free functions are found from below, by asking for each definition which class it stands in, and
methods from above, by reading the statements of the body of each class.  Both take a definition
and its decorators as one, and so does the way up from a call to the function that makes it.  In a
well-formed tree the three agree on the class that holds a definition (`owningClass?_eq_some_iff`,
`mem_members_iff`).

Main statement: `definitions_emitted`.  Every definition of a function is one fact, and calls know
the functions that make them by the names of these facts.
-/
import Codemap.Proofs.Facts.Places
import Codemap.Proofs.Facts.Resolved
import Codemap.Proofs.Syntax.Walk

namespace Codemap.Facts.Python

open Codemap.Syntax

variable {c d f s stmt block : Cursor} {tree : Node} {path : String} {t : TypeDecl}
  {listed : Option (List String)} {file : ParsedFile}

/-! ## 1. Definitions and the classes that hold them -/

/-- The definitions of functions in a tree. -/
def definitions (tree : Node) : List Cursor :=
  (Cursor.top tree).walk.filter (·.kind == "function_definition")

/-- The definitions of classes in a tree. -/
def classes (tree : Node) : List Cursor :=
  (Cursor.top tree).walk.filter (·.kind == "class_definition")

/-- The body of a class holds a definition directly, with or without decorators. -/
def Holds (c f : Cursor) : Prop :=
  ∃ body, c.field? "body" = some body ∧
    (f ∈ body.children ∨ ∃ d ∈ body.children, d.kind = "decorated_definition" ∧ f ∈ d.children)

/-- A node is as the grammar has it where it defines something: a definition has a name, the block
of a class is its body, and decorators stand before one definition. -/
structure DefinesWell (n : Node) : Prop where
  name : n.kind = "class_definition" ∨ n.kind = "function_definition" →
    (n.fieldText? "name").isSome
  body : n.kind = "class_definition" →
    (∀ d ∈ n.children, d.kind = "block" ↔ d.field = some "body") ∧
      n.children.countP (·.field == some "body") ≤ 1
  named : n.kind = "function_definition" ∨ n.kind = "decorated_definition" → n.named
  decorated : n.kind = "decorated_definition" →
    (∀ d ∈ n.children, d.kind = "function_definition" → d.field = some "definition") ∧
      n.children.countP (·.field == some "definition") ≤ 1

instance (n : Node) : Decidable (DefinesWell n) :=
  decidable_of_iff ((_ → _) ∧ (_ → _) ∧ (_ → _) ∧ (_ → _))
    ⟨fun ⟨hname, hbody, hnamed, hdecorated⟩ => ⟨hname, hbody, hnamed, hdecorated⟩,
      fun ⟨hname, hbody, hnamed, hdecorated⟩ => ⟨hname, hbody, hnamed, hdecorated⟩⟩

/-- All nodes of a tree define well. -/
def WellFormed (tree : Node) : Prop := ∀ n ∈ tree.preorder, DefinesWell n

/-- The definition that a statement is. -/
def definitionIn? (stmt : Cursor) : Option Cursor :=
  if stmt.kind == "function_definition" then some stmt
  else if stmt.kind == "decorated_definition" then
    (stmt.field? "definition").filter (·.kind == "function_definition")
  else none

/-- The definitions in the body of a class. -/
def members (c : Cursor) : List Cursor :=
  match c.field? "body" with
  | some body => body.namedChildren.filterMap definitionIn?
  | none => []

/-- The definitions that stand in no class. -/
def free (tree : Node) : List Cursor := (definitions tree).filter fun f => (owningClass? f).isNone

theorem mem_definitions_iff :
    f ∈ definitions tree ↔ f ∈ (Cursor.top tree).walk ∧ f.kind = "function_definition" := by
  rw [definitions, List.mem_filter, beq_iff_eq]

theorem mem_classes_iff :
    c ∈ classes tree ↔ c ∈ (Cursor.top tree).walk ∧ c.kind = "class_definition" := by
  rw [classes, List.mem_filter, beq_iff_eq]

namespace WellFormed

variable (h : WellFormed tree)
include h

theorem name_of_mem_definitions (hf : f ∈ definitions tree) :
    (f.node.fieldText? "name").isSome := by
  obtain ⟨hwalk, hkind⟩ := mem_definitions_iff.mp hf
  exact (h _ (Cursor.node_mem_preorder hwalk)).name (Or.inr hkind)

theorem name_of_mem_classes (hc : c ∈ classes tree) : (c.node.fieldText? "name").isSome := by
  obtain ⟨hwalk, hkind⟩ := mem_classes_iff.mp hc
  exact (h _ (Cursor.node_mem_preorder hwalk)).name (Or.inl hkind)

theorem block_iff (hc : c ∈ classes tree) (hd : d ∈ c.children) :
    d.kind = "block" ↔ c.field? "body" = some d := by
  obtain ⟨hwalk, hkind⟩ := mem_classes_iff.mp hc
  obtain ⟨hblock, hone⟩ := (h _ (Cursor.node_mem_preorder hwalk)).body hkind
  rw [Cursor.field?_eq_some_iff hd hone]
  exact hblock _ (Cursor.node_mem_of_mem_children hd)

theorem named (hc : c ∈ (Cursor.top tree).walk)
    (hkind : c.kind = "function_definition" ∨ c.kind = "decorated_definition") : c.node.named :=
  (h _ (Cursor.node_mem_preorder hc)).named hkind

theorem decorated (hc : c ∈ (Cursor.top tree).walk) (hkind : c.kind = "decorated_definition")
    (hd : d ∈ c.children) (hfunction : d.kind = "function_definition") :
    c.field? "definition" = some d := by
  obtain ⟨hdefinition, hone⟩ := (h _ (Cursor.node_mem_preorder hc)).decorated hkind
  rw [Cursor.field?_eq_some_iff hd hone]
  exact hdefinition _ (Cursor.node_mem_of_mem_children hd) hfunction

end WellFormed

theorem outerDefinition_of_block (h : f.parent = some block) (hblock : block.kind = "block") :
    outerDefinition f = f := by
  simp [outerDefinition, h, hblock]

theorem outerDefinition_of_decorated (h : f.parent = some d)
    (hd : d.kind = "decorated_definition") : outerDefinition f = d := by
  simp [outerDefinition, h, hd]

/-- The definition with its decorators is the definition itself or the node around it. -/
theorem outerDefinition_cases (f : Cursor) :
    outerDefinition f = f ∨
      ∃ d, f.parent = some d ∧ d.kind = "decorated_definition" ∧ outerDefinition f = d := by
  cases hp : f.parent with
  | none => exact Or.inl (by rw [outerDefinition, hp])
  | some d =>
    by_cases hd : d.kind = "decorated_definition"
    · exact Or.inr ⟨d, rfl, hd, outerDefinition_of_decorated hp hd⟩
    · exact Or.inl (by simp [outerDefinition, hp, hd])

theorem owningClass?_eq_some :
    owningClass? f = some c ↔ ∃ block, (outerDefinition f).parent = some block ∧
      block.kind = "block" ∧ block.parent = some c ∧ c.kind = "class_definition" := by
  simp only [owningClass?, Option.bind_eq_bind, Option.bind_eq_some_iff]
  refine exists_congr fun block => and_congr_right fun _ => ?_
  by_cases hblock : block.kind = "block"
  · simp only [hblock, bne_self_eq_false, Bool.false_eq_true, if_false, Option.bind_eq_some_iff,
      Option.ite_none_right_eq_some, Option.some.injEq, beq_iff_eq, true_and]
    constructor
    · rintro ⟨owner, hparent, hkind, rfl⟩
      exact ⟨hparent, hkind⟩
    · rintro ⟨hparent, hkind⟩
      exact ⟨c, hparent, hkind, rfl⟩
  · simp [hblock]

/-- **Climbing from a definition finds the class whose body holds it.** -/
theorem owningClass?_eq_some_iff (h : WellFormed tree) (hf : f ∈ definitions tree) :
    owningClass? f = some c ↔ c ∈ classes tree ∧ Holds c f := by
  obtain ⟨hwalk, -⟩ := mem_definitions_iff.mp hf
  rw [owningClass?_eq_some]
  constructor
  · rintro ⟨block, hblock, hkind, hclass, hclassKind⟩
    -- the definition with its decorators is a child of the block, and the block one of the class
    have houter : outerDefinition f ∈ (Cursor.top tree).walk := by
      rcases outerDefinition_cases f with heq | ⟨d, hparent, -, heq⟩
      · rwa [heq]
      · rw [heq]
        refine Cursor.mem_walk_of_mem_ancestors hwalk ?_
        rw [Cursor.ancestors_of_parent hparent]
        exact List.mem_cons_self
    have hplaced := Cursor.placed_of_mem_walk houter
    have hchild : block ∈ c.children := (hplaced.parent hblock).mem_children hclass
    have hwalkClass : c ∈ (Cursor.top tree).walk := by
      refine Cursor.mem_walk_of_mem_ancestors houter ?_
      rw [Cursor.ancestors_of_parent hblock, Cursor.ancestors_of_parent hclass]
      exact List.mem_cons_of_mem _ List.mem_cons_self
    have hmem := mem_classes_iff.mpr ⟨hwalkClass, hclassKind⟩
    refine ⟨hmem, block, (h.block_iff hmem hchild).mp hkind, ?_⟩
    have hinner := hplaced.mem_children hblock
    rcases outerDefinition_cases f with heq | ⟨d, hparent, hd, heq⟩
    · exact Or.inl (heq ▸ hinner)
    · exact Or.inr ⟨d, heq ▸ hinner, hd, (Cursor.placed_of_mem_walk hwalk).mem_children hparent⟩
  · rintro ⟨hmem, body, hbody, hin⟩
    have hchild : body ∈ c.children := List.mem_of_find?_eq_some hbody
    have hkind : body.kind = "block" := (h.block_iff hmem hchild).mpr hbody
    have hclass := Cursor.parent_of_mem_children hchild
    refine ⟨body, ?_, hkind, hclass, (mem_classes_iff.mp hmem).2⟩
    rcases hin with hf | ⟨d, hd, hdecorated, hf⟩
    · have hparent := Cursor.parent_of_mem_children hf
      rw [outerDefinition_of_block hparent hkind, hparent]
    · rw [outerDefinition_of_decorated (Cursor.parent_of_mem_children hf) hdecorated,
        Cursor.parent_of_mem_children hd]

theorem definitionIn?_eq_some :
    definitionIn? stmt = some f ↔ f.kind = "function_definition" ∧
      (stmt = f ∨ stmt.kind = "decorated_definition" ∧ stmt.field? "definition" = some f) := by
  rw [definitionIn?]
  by_cases hfunction : stmt.kind = "function_definition"
  · rw [if_pos (beq_iff_eq.mpr hfunction), Option.some.injEq]
    constructor
    · rintro rfl
      exact ⟨hfunction, Or.inl rfl⟩
    · rintro ⟨-, rfl | ⟨hkind, -⟩⟩
      · rfl
      · exact absurd (hfunction.symm.trans hkind) (by decide)
  · rw [if_neg (mt beq_iff_eq.mp hfunction)]
    by_cases hdecorated : stmt.kind = "decorated_definition"
    · rw [if_pos (beq_iff_eq.mpr hdecorated), Option.filter_eq_some_iff, beq_iff_eq]
      constructor
      · rintro ⟨hfield, hkind⟩
        exact ⟨hkind, Or.inr ⟨hdecorated, hfield⟩⟩
      · rintro ⟨hkind, rfl | ⟨-, hfield⟩⟩
        · exact absurd hkind hfunction
        · exact ⟨hfield, hkind⟩
    · rw [if_neg (mt beq_iff_eq.mp hdecorated)]
      refine iff_of_false (fun h => absurd h.symm (Option.some_ne_none f)) ?_
      rintro ⟨hkind, rfl | ⟨hkind', -⟩⟩
      · exact hfunction hkind
      · exact hdecorated hkind'

/-- The statement of a body that a definition in it is, is the definition with its decorators. -/
theorem outerDefinition_of_definitionIn? (hstmt : stmt.parent = some block)
    (hblock : block.kind = "block") (h : definitionIn? stmt = some f) :
    outerDefinition f = stmt := by
  rcases (definitionIn?_eq_some.mp h).2 with rfl | ⟨hkind, hfield⟩
  · exact outerDefinition_of_block hstmt hblock
  · exact outerDefinition_of_decorated
      (Cursor.parent_of_mem_children (List.mem_of_find?_eq_some hfield)) hkind

/-- **Reading the body of a class finds the definitions that it holds.** -/
theorem mem_members_iff (h : WellFormed tree) (hc : c ∈ classes tree) :
    f ∈ members c ↔ f ∈ definitions tree ∧ Holds c f := by
  obtain ⟨hwalk, -⟩ := mem_classes_iff.mp hc
  cases hbody : c.field? "body" with
  | none => simp [members, Holds, hbody]
  | some body =>
    have hbodyWalk : body ∈ (Cursor.top tree).walk :=
      Cursor.mem_walk_of_field? hwalk hbody
    simp only [members, hbody, List.mem_filterMap, Holds, Option.some.injEq, exists_eq_left',
      definitionIn?_eq_some, mem_definitions_iff]
    constructor
    · rintro ⟨stmt, hstmt, hkind, rfl | ⟨hdecorated, hfield⟩⟩
      · have hchild := List.mem_of_mem_filter hstmt
        exact ⟨⟨Cursor.mem_walk_of_mem_children hbodyWalk hchild, hkind⟩, Or.inl hchild⟩
      · have hchild := List.mem_of_mem_filter hstmt
        have hinner : f ∈ stmt.children := List.mem_of_find?_eq_some hfield
        have hstmtWalk := Cursor.mem_walk_of_mem_children hbodyWalk hchild
        exact ⟨⟨Cursor.mem_walk_of_mem_children hstmtWalk hinner, hkind⟩,
          Or.inr ⟨stmt, hchild, hdecorated, hinner⟩⟩
    · rintro ⟨⟨hf, hkind⟩, hchild | ⟨d, hchild, hdecorated, hinner⟩⟩
      · exact ⟨f, List.mem_filter.mpr ⟨hchild, h.named hf (Or.inl hkind)⟩, hkind, Or.inl rfl⟩
      · have hd := Cursor.mem_walk_of_mem_children hbodyWalk hchild
        exact ⟨d, List.mem_filter.mpr ⟨hchild, h.named hd (Or.inr hdecorated)⟩, hkind,
          Or.inr ⟨hdecorated, h.decorated hd hdecorated hinner hkind⟩⟩

/-! ## 2. No definition is lost or doubled -/

theorem map_node_definitions (tree : Node) : (definitions tree).map (·.node) =
    tree.preorder.filter (·.kind == "function_definition") := by
  have h : (Cursor.top tree).walk.map (·.node) = tree.preorder := Cursor.map_node_walk _
  rw [← h, List.filter_map]
  rfl

theorem nodup_definitions (tree : Node) : (definitions tree).Nodup :=
  (Cursor.nodup_walk tree).filter _

theorem nodup_members (h : WellFormed tree) (hc : c ∈ classes tree) : (members c).Nodup := by
  rw [members]
  split
  next body hbody =>
    have hkind : body.kind = "block" :=
      (h.block_iff hc (List.mem_of_find?_eq_some hbody)).mpr hbody
    have hparent : ∀ {stmt}, stmt ∈ body.namedChildren → stmt.parent = some body :=
      fun hstmt => Cursor.parent_of_mem_children (List.mem_of_mem_filter hstmt)
    refine List.pairwise_filterMap.mpr ?_
    refine ((Cursor.nodup_children body).filter _).imp_of_mem ?_
    rintro a b ha hb hne f hf _ hg rfl
    -- the statement is known from the definition
    have ha := outerDefinition_of_definitionIn? (hparent ha) hkind hf
    exact hne (ha.symm.trans (outerDefinition_of_definitionIn? (hparent hb) hkind hg))
  next => exact List.nodup_nil

/-- The definitions are those that stand in no class and those that classes hold. -/
theorem free_append_members_perm (h : WellFormed tree) :
    (free tree ++ (classes tree).flatMap members).Perm (definitions tree) := by
  refine filter_isNone_append_flatMap_perm (nodup_definitions tree)
    ((Cursor.nodup_walk tree).filter _) (fun c hc => nodup_members h hc) (fun c hc f => ?_)
    fun f hf c hclass => ((owningClass?_eq_some_iff h hf).mp hclass).1
  rw [mem_members_iff h hc]
  refine and_congr_right fun hf => ?_
  rw [owningClass?_eq_some_iff h hf]
  exact (and_iff_right hc).symm

/-! ## 3. The facts about definitions -/

/-- What tells the fact about a free function apart. -/
def freeStamp (path : String) (f : Cursor) : Stamp :=
  ⟨nameOf f.node, nameOf f.node, .ofSpan path (outerDefinition f).node.span⟩

/-- What tells the fact about a method of the class `owner` apart. -/
def memberStamp (path owner : String) (f : Cursor) : Stamp :=
  ⟨nameOf f.node, memberName owner (nameOf f.node), .ofSpan path (outerDefinition f).node.span⟩

theorem fieldText?_name_eq (h : (c.node.fieldText? "name").isSome) :
    c.node.fieldText? "name" = some (nameOf c.node) := by
  rw [nameOf, Option.eq_some_iff_get_eq]
  exact ⟨h, (Option.get_eq_getD _ ).trans rfl⟩

/-- **The free functions are the definitions that stand in no class.** -/
theorem map_stamp_functions (h : WellFormed tree) :
    (functions path tree).map stamp = (free tree).map (freeStamp path) := by
  rw [functions, free, definitions, List.filter_filter]
  refine map_filterMap_eq_map_filter fun c hc => ?_
  by_cases hkind : c.kind = "function_definition"
  · have hname := fieldText?_name_eq
      (h.name_of_mem_definitions (mem_definitions_iff.mpr ⟨hc, hkind⟩))
    cases howner : owningClass? c with
    | none => simp [freeFunction?, hkind, howner, hname, function, stamp, freeStamp]
    | some owner => simp [freeFunction?, hkind, howner]
  · simp [freeFunction?, hkind]

/-- A method is added under the name of its class. -/
theorem addMethod_spec (path : String) (t : TypeDecl) (f : Cursor) :
    (addMethod path t f).name = t.name ∧
      methodStamps (addMethod path t f) = methodStamps t ++ [memberStamp path t.name f] := by
  have hadd := foldl_addProperty (instanceProperties path f.node)
  simp only [addMethod]
  split
  · exact ⟨(hadd _).1, by simp [methodStamps, (hadd _).2, method, function, stamp, memberStamp]⟩
  · exact ⟨rfl, by simp [methodStamps, method, function, stamp, memberStamp]⟩

/-- A statement adds the definition that it is. -/
theorem addStatement_spec (path : String) (t : TypeDecl) (stmt : Cursor) :
    (addStatement path t stmt).name = t.name ∧
      methodStamps (addStatement path t stmt) =
        methodStamps t ++ (definitionIn? stmt).toList.map (memberStamp path t.name) := by
  rw [addStatement, definitionIn?]
  split
  next hkind => simpa [hkind] using addMethod_spec path t stmt
  next hkind =>
    cases hfield : stmt.field? "definition" with
    | none => simp [hkind]
    | some d =>
      by_cases hd : d.kind = "function_definition"
      · simpa [hkind, hd, Option.filter_some] using addMethod_spec path t d
      · simp [hkind, hd, Option.filter_some]
  next hkind =>
    split
    next p _ =>
      obtain ⟨hname, hmethods⟩ := foldl_addProperty [p] t
      have hname : (addProperty t p).name = t.name := hname
      have hmethods : (addProperty t p).methods = t.methods := hmethods
      simp [hkind, hname, methodStamps, hmethods]
    next => simp [hkind]
  next hfunction hdecorated _ =>
    rw [if_neg (mt beq_iff_eq.mp hfunction), if_neg (mt beq_iff_eq.mp hdecorated)]
    exact ⟨rfl, (List.append_nil _).symm⟩

theorem foldl_addStatement_spec (path : String) (stmts : List Cursor) (t : TypeDecl) :
    (stmts.foldl (addStatement path) t).name = t.name ∧
      methodStamps (stmts.foldl (addStatement path) t) =
        methodStamps t ++ (stmts.filterMap definitionIn?).map (memberStamp path t.name) := by
  induction stmts generalizing t with
  | nil => exact ⟨rfl, by simp⟩
  | cons stmt stmts ih =>
    obtain ⟨hname, hstamps⟩ := addStatement_spec path t stmt
    obtain ⟨hname', hstamps'⟩ := ih (addStatement path t stmt)
    refine ⟨hname'.trans hname, ?_⟩
    rw [List.foldl_cons, hstamps', hstamps, hname, List.append_assoc, List.filterMap_cons]
    cases definitionIn? stmt <;> simp

theorem foldl_addBase_keeps (arguments : List Node) (t : TypeDecl) :
    (arguments.foldl addBase t).name = t.name ∧
      (arguments.foldl addBase t).methods = t.methods := by
  induction arguments generalizing t with
  | nil => exact ⟨rfl, rfl⟩
  | cons a arguments ih =>
    obtain ⟨hname, hmethods, -⟩ := addBase_keeps t a
    exact ⟨(ih _).1.trans hname, (ih _).2.trans hmethods⟩

/-- The type at the place of a class has its name, and the definitions in its body as methods. -/
theorem classType?_spec (path : String) (listed : Option (List String))
    (hkind : c.kind = "class_definition") (hname : (c.node.fieldText? "name").isSome) :
    (classType? path listed c).map (fun t => (t.name, methodStamps t)) =
      some (nameOf c.node, (members c).map (memberStamp path (nameOf c.node))) := by
  have hbody : ∀ t : TypeDecl, t.name = nameOf c.node → methodStamps t = [] →
      (fun t : TypeDecl => (t.name, methodStamps t))
        (match c.field? "body" with
          | some body => body.namedChildren.foldl (addStatement path) t
          | none => t) =
        (nameOf c.node, (members c).map (memberStamp path (nameOf c.node))) := by
    intro t ht hnone
    rw [members]
    split
    next body _ =>
      obtain ⟨hname, hstamps⟩ := foldl_addStatement_spec path body.namedChildren t
      simp only [hname, hstamps, ht, hnone, List.nil_append]
    next => simp only [ht, hnone, List.map_nil]
  simp only [classType?, hkind, fieldText?_name_eq hname]
  refine congrArg some ?_
  cases c.node.field? "superclasses" with
  | none => exact hbody _ rfl rfl
  | some arguments =>
    obtain ⟨hname, hmethods⟩ := foldl_addBase_keeps arguments.namedChildren _
    exact hbody _ hname (congrArg (List.map _) hmethods)

/-- **The types are the classes, with the definitions in their bodies as methods.** -/
theorem map_stamps_types (h : WellFormed tree) :
    (types path tree).map (fun t => (t.name, methodStamps t)) =
      (classes tree).map fun c =>
        (nameOf c.node, (members c).map (memberStamp path (nameOf c.node))) := by
  rw [types, classes]
  refine map_filterMap_eq_map_filter fun c hc => ?_
  by_cases hkind : c.kind = "class_definition"
  · have hname := h.name_of_mem_classes (mem_classes_iff.mpr ⟨hc, hkind⟩)
    rw [classType?_spec path _ hkind hname, if_pos (beq_iff_eq.mpr hkind)]
  · simp [classType?, hkind]

/-! ## 4. Callers -/

theorem callSite?_caller {site : CallSite} (h : callSite? path s = some site) :
    site.caller = (enclosingScope s).1 := by
  simp only [callSite?, Option.bind_eq_bind] at h
  split at h
  · exact absurd h (by simp)
  · obtain ⟨-, -, h⟩ := Option.bind_eq_some_iff.mp h
    obtain ⟨function, -, h⟩ := Option.bind_eq_some_iff.mp h
    obtain ⟨⟨callee, receiver⟩, -, h⟩ := Option.bind_eq_some_iff.mp h
    obtain rfl := Option.some.inj h
    rfl

/-- What the facts about a file say of the definitions in its tree. -/
structure Emitted (file : ParsedFile) : Prop where
  /-- The definitions are all nodes of their kind. -/
  definitions_eq : (definitions file.tree).map (·.node) =
    file.tree.preorder.filter (·.kind == "function_definition")
  /-- Each of them stands in no class, or is held by one. -/
  once : (free file.tree ++ (classes file.tree).flatMap members).Perm (definitions file.tree)
  mem_free : ∀ f, f ∈ free file.tree ↔
    f ∈ definitions file.tree ∧ ∀ c ∈ classes file.tree, ¬ Holds c f
  mem_members : ∀ c ∈ classes file.tree, ∀ f, f ∈ members c ↔
    f ∈ definitions file.tree ∧ Holds c f
  /-- There is one fact about each definition that stands in no class. -/
  functions : (FileFacts.ofTree file).functions.map stamp =
    (free file.tree).map (freeStamp file.path)
  /-- There is one fact about each class, with one about each definition that it holds. -/
  types : (FileFacts.ofTree file).types.map (fun t => (t.name, methodStamps t)) =
    (classes file.tree).map fun c =>
      (nameOf c.node, (members c).map (memberStamp file.path (nameOf c.node)))

theorem mem_free_iff (h : WellFormed tree) :
    f ∈ free tree ↔ f ∈ definitions tree ∧ ∀ c ∈ classes tree, ¬ Holds c f := by
  rw [free, List.mem_filter, Option.isNone_iff_eq_none, Option.eq_none_iff_forall_ne_some]
  refine and_congr_right fun hf => forall_congr' fun c => ?_
  rw [Ne, owningClass?_eq_some_iff h hf, not_and]

/-- **Every definition of a function is one fact**: a method of the class whose body holds it, and a
free function if there is none. -/
theorem emitted (hl : file.language = .python) (h : WellFormed file.tree) : Emitted file := by
  obtain ⟨path, language, tree⟩ := file
  obtain rfl : language = .python := hl
  exact {
    definitions_eq := map_node_definitions tree
    once := free_append_members_perm h
    mem_free := fun f => mem_free_iff h
    mem_members := fun c hc f => mem_members_iff h hc
    functions := map_stamp_functions h
    types := map_stamps_types h }

theorem Emitted.declares_free (he : Emitted file) (hf : f ∈ free file.tree) :
    (FileFacts.ofTree file).Declares (nameOf f.node) := by
  have hmem : freeStamp file.path f ∈ (FileFacts.ofTree file).functions.map stamp := by
    rw [he.functions]
    exact List.mem_map_of_mem hf
  exact declares_of_stamp_mem_functions hmem

theorem Emitted.declares_member (he : Emitted file) (hc : c ∈ classes file.tree)
    (hf : f ∈ members c) :
    (FileFacts.ofTree file).Declares (memberName (nameOf c.node) (nameOf f.node)) := by
  have hmem : (nameOf c.node, (members c).map (memberStamp file.path (nameOf c.node))) ∈
      (FileFacts.ofTree file).types.map fun t => (t.name, methodStamps t) := by
    rw [he.types]
    exact List.mem_map_of_mem hc
  obtain ⟨t, ht, hstamps⟩ := List.mem_map.mp hmem
  have hstamp : memberStamp file.path (nameOf c.node) f ∈ methodStamps t := by
    rw [(Prod.mk.inj hstamps).2]
    exact List.mem_map_of_mem hf
  exact declares_of_mem_methodStamps ht hstamp

/-- The function that makes a call is known by the name of its fact. -/
theorem Emitted.declares_caller (he : Emitted file) (hl : file.language = .python)
    (h : WellFormed file.tree) {x : Call} (hx : x ∈ (FileFacts.ofTree file).calls) :
    x.caller = moduleScope ∨ (FileFacts.ofTree file).Declares x.caller := by
  obtain ⟨s, hs, site, hsite, hcaller⟩ := mem_callers_iff.mp ⟨x, hx, rfl⟩
  rw [hl] at hsite
  rw [← hcaller, callSite?_caller hsite, enclosingScope]
  cases hancestor : s.ancestor? ["function_definition"] with
  | none => exact Or.inl rfl
  | some f =>
    refine Or.inr ?_
    obtain ⟨hwalk, hkind⟩ := Cursor.mem_walk_of_ancestor? hs hancestor
    have hf : f ∈ definitions file.tree :=
      mem_definitions_iff.mpr ⟨hwalk, List.mem_singleton.mp hkind⟩
    dsimp only
    cases howner : owningClass? f with
    | none => exact he.declares_free (List.mem_filter.mpr ⟨hf, by rw [howner]; rfl⟩)
    | some c =>
      obtain ⟨hc, hholds⟩ := (owningClass?_eq_some_iff h hf).mp howner
      rw [Option.bind_some, fieldText?_name_eq (h.name_of_mem_classes hc)]
      exact he.declares_member hc ((he.mem_members c hc f).mpr ⟨hf, hholds⟩)

/-- **Every definition of a function in a well-formed tree is one fact**, a method of the class
whose body holds it and a free function if there is none; and the caller of every call is the
module, or the qualified name of one of these facts. -/
theorem definitions_emitted (file : ParsedFile) (hl : file.language = .python)
    (h : WellFormed file.tree) :
    Emitted file ∧ ∀ x ∈ (FileFacts.ofTree file).calls,
      x.caller = moduleScope ∨ (FileFacts.ofTree file).Declares x.caller :=
  ⟨emitted hl h, fun _ hx => (emitted hl h).declares_caller hl h hx⟩

/-- A method with a decorator, and a function under a condition in the body of the class. -/
def conditional : ParsedFile where
  path := "app/job.py"
  language := .python
  tree := parseSource .python
    "class A:\n @b\n def f(self):\n  g()\n if x:\n  def g(): pass\n"

/-- The decorated definition is a method, and the one under the condition is a free function. -/
theorem definitions_emitted_conditional :
    conditional.language = .python ∧ WellFormed conditional.tree ∧
      (FileFacts.ofTree conditional).functions.map (·.qualifiedName) = ["g"] ∧
      (FileFacts.ofTree conditional).types.map (fun t => t.methods.map (·.function.qualifiedName)) =
        [["A.f"]] ∧
      (FileFacts.ofTree conditional).calls.map (·.caller) = ["A.f"] ∧
      Emitted conditional := by
  have hfile : (∀ n ∈ conditional.tree.preorder, DefinesWell n) ∧
      (FileFacts.ofTree conditional).functions.map (·.qualifiedName) = ["g"] ∧
      (FileFacts.ofTree conditional).types.map (fun t => t.methods.map (·.function.qualifiedName)) =
        [["A.f"]] ∧
      (FileFacts.ofTree conditional).calls.map (·.caller) = ["A.f"] := by
    decide +kernel
  obtain ⟨hwell, hfunctions, htypes, hcalls⟩ := hfile
  exact ⟨rfl, hwell, hfunctions, htypes, hcalls, (definitions_emitted conditional rfl hwell).1⟩

end Codemap.Facts.Python
