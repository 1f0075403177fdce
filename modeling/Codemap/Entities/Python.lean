/-
# Entities in Python files

A class is an entity through its bases, through a table named in the class or in its inner class
`Meta`, and through the columns that are assigned in its body.  A column is the call of a known
function or of one whose name ends in `Field`, or an annotation that says `Mapped`.
-/
import Codemap.Entities.Basic
import Codemap.Entities.Naming
import Codemap.Facts.Wording
import Codemap.Syntax.Node

namespace Codemap.Entities.Python

open Codemap.Facts Codemap.Syntax Codemap.Text

/-! ## 1. Words -/

/-- Bases that map a class to a table. -/
def mappingBases : List String := ["Base", "Model"]

/-- Bases of the roots of class hierarchies, which have no tables themselves. -/
def rootBases : List String := ["DeclarativeBase", "DeclarativeBaseNoMeta", "AsyncAttrs"]

/-- Bases that check values. -/
def checkingBases : List String := ["BaseModel", "Schema", "BaseSettings"]

/-- Kinds of fields that are primary keys. -/
def keyFields : List String := ["AutoField", "BigAutoField", "SmallAutoField", "PrimaryKeyField"]

/-- Ways in which annotations of collections start. -/
def collectionMarks : List String := ["List[", "list[", "Set[", "set[", "Sequence["]

/-- The part of a dotted name after its last dot. -/
def memberPart (name : String) : String := onString (lastPart '.') name

/-- Whether a text occurs in another. -/
def occurs (part s : String) : Bool := occursIn part.toList s.toList

/-! ## 2. Types -/

/-- What stands within the innermost of the brackets that enclose each other. -/
def innermost (type : List Char) : List Char :=
  match _h : between? '[' ']' (trim type) with
  | some inner => innermost inner
  | none => trim type
termination_by type.length
decreasing_by
  have := length_of_between? _h
  have := length_trim_le type
  omega

/-- The name of the type that an annotation is about: the first of the innermost arguments,
without quotation marks and without the module before it. -/
def innermostType (type : List Char) : List Char :=
  lastPart '.' (unquote ((innermost type).takeWhile (· != ',')))

/-! ## 3. Calls and assignments -/

/-- A call: what is called, and its arguments by position and by keyword. -/
structure Invocation where
  name : String
  positional : List Node
  keywords : List (String × Node)

namespace Invocation

/-- The keyword argument that a node describes. -/
def keyword? (n : Node) : Option (String × Node) := do
  let name ← n.field? "name"
  let value ← n.field? "value"
  return (name.text, value)

/-- The call that a node describes. -/
def ofNode? (n : Node) : Option Invocation := do
  if n.kind != "call" then none
  let function ← n.field? "function"
  let arguments : List Node := match n.field? "arguments" with
    | some list => list.namedChildren.filter fun a => a.kind != "comment"
    | none => []
  return {
    name := function.text
    positional := arguments.filter fun a => a.kind != "keyword_argument"
    keywords := (arguments.filter fun a => a.kind == "keyword_argument").filterMap keyword? }

/-- The called name without the module before it. -/
def callee (i : Invocation) : String := memberPart i.name

/-- The argument given under a keyword. -/
def argument? (i : Invocation) (key : String) : Option Node :=
  (i.keywords.find? fun k => k.1 == key).map (·.2)

/-- Whether the argument under a keyword has a given text. -/
def hasArgument (i : Invocation) (key value : String) : Bool :=
  (i.argument? key).map (·.text) == some value

/-- Whether a keyword is set. -/
def isSet (i : Invocation) (key : String) : Bool := i.hasArgument key "True"

end Invocation

/-- An assignment in the body of a class. -/
structure Assigned where
  name : String
  annotated : Option String
  value : Option Node

/-- The assignment that a statement makes. -/
def assigned? (statement : Node) : Option Assigned := do
  if statement.kind != "expression_statement" then none
  let assignment ← statement.namedChildren.head?
  if assignment.kind != "assignment" then none
  let left ← assignment.field? "left"
  if left.kind != "identifier" then none
  return ⟨left.text, assignment.fieldText? "type", assignment.field? "right"⟩

/-- The assignments in the body of a class. -/
def assignments (body : Node) : List Assigned := body.namedChildren.filterMap assigned?

/-- A literal without its quotation marks, if a node is a text. -/
def string? (n : Node) : Option String :=
  if n.kind == "string" then some (onString unquote n.text) else none

/-- The table that the inner class `Meta` names. -/
def metaTable? (body : Node) : Option String := do
  let inner ← body.namedChildren.find? fun n =>
    n.kind == "class_definition" && n.fieldText? "name" == some "Meta"
  let innerBody ← inner.field? "body"
  let assigned ← (assignments innerBody).find? fun a =>
    a.name == "db_table" || a.name == "table_name"
  string? (← assigned.value)

/-! ## 4. Relationships -/

/-- The table that a call refers to through a foreign key among its arguments. -/
def foreignTable? (i : Invocation) : Option String := do
  let key ← i.positional.findSome? fun a =>
    (Invocation.ofNode? a).filter fun inner => inner.callee == "ForeignKey"
  let target ← string? (← key.positional.head?)
  return onString (fun s => s.takeWhile (· != '.')) target

/-- The entity that the first argument names; `self` names the owner. -/
def target? (i : Invocation) (owner : String) : Option String := do
  let first ← i.positional.head?
  let name ← match first.kind with
    | "string" => string? first
    | "identifier" | "attribute" => some first.text
    | _ => none
  let target := memberPart name
  return if target == "self" then owner else target

/-- Whether two texts agree but for the case of the letters of the Latin alphabet. -/
def agree (a b : String) : Bool := a.toList.map Char.toLower == b.toList.map Char.toLower

/-- The kind of relationship that a call of `relationship` declares. -/
def relationshipKind (i : Invocation) (annotated : Option String) (target : String)
    (foreignTables : List String) : RelationshipKind :=
  if (i.argument? "secondary").isSome || (i.argument? "link_model").isSome then .manyToMany
  else if i.hasArgument "uselist" "False" then .manyToOne
  else if annotated.any fun a => collectionMarks.any fun m => occurs m a then .oneToMany
  else if foreignTables.any fun t => t == onString tableName target || agree t target then
    .manyToOne
  else if annotated.isSome then .manyToOne
  else .oneToMany

/-! ## 5. Columns -/

/-- Whether an annotation allows null. -/
def allowsNull (annotated : Option String) : Bool := annotated.any (occurs "Optional[")

/-- The type of a column: the first argument that names one, else the annotation. -/
def columnType (i : Invocation) (annotated : Option String) : String :=
  let named := i.positional.find? fun a =>
    match Invocation.ofNode? a with
    | some inner => inner.callee != "ForeignKey"
    | none => a.kind == "identifier" || a.kind == "attribute"
  let stated := named.map fun a => memberPart (onString (fun s => s.takeWhile (· != '(')) a.text)
  (stated <|> annotated.map (onString innermostType)).getD "unknown"

/-- A draft with what an assignment without a call adds. -/
def addBare (draft : EntityDraft) (a : Assigned) : EntityDraft :=
  match a.annotated with
  | none => draft
  | some annotated =>
    let mapped := "Mapped[".toList.isPrefixOf annotated.toList
    if mapped || draft.framework == some .sqlmodel then
      (draft.markIf mapped .columnMarkers).addField
        { EntityField.plain a.name (onString innermostType annotated) with
          isNullable := occurs "Optional[" annotated }
    else draft

/-- The relationship that a kind of field stands for. -/
def fieldRelationship? : String → Option RelationshipKind
  | "ForeignKey" | "ForeignKeyField" | "OneToOneField" => some .manyToOne
  | "ManyToManyField" => some .manyToMany
  | _ => none

/-- A draft with what the assignment of a field adds. -/
def addFieldCall (draft : EntityDraft) (a : Assigned) (i : Invocation) : EntityDraft :=
  let marked := draft.mark .columnMarkers
  match fieldRelationship? i.callee with
  | some kind =>
    match target? i draft.name with
    | some target => marked.addRelationship ⟨kind, target, a.name⟩
    | none => marked
  | none => marked.addField
      { name := a.name
        type := i.callee
        isPrimaryKey := i.isSet "primary_key" || keyFields.contains i.callee
        isUnique := i.isSet "unique"
        isNullable := i.isSet "null" }

/-- A draft with what the assignment of a call adds. -/
def addCall (foreignTables : List String) (draft : EntityDraft) (a : Assigned)
    (i : Invocation) : EntityDraft :=
  match i.callee with
  | "relationship" | "Relationship" =>
    match target? i draft.name <|> a.annotated.map (onString innermostType) with
    | some target =>
      let kind := relationshipKind i a.annotated target foreignTables
      draft.addRelationship ⟨kind, target, a.name⟩
    | none => draft
  | "Column" | "mapped_column" | "Field" =>
    (draft.mark .columnMarkers).addField
      { name := a.name
        type := columnType i a.annotated
        isPrimaryKey := i.isSet "primary_key"
        isUnique := i.isSet "unique"
        isNullable := i.isSet "nullable" || allowsNull a.annotated }
  | callee =>
    if callee == "ForeignKey" || "Field".toList.isSuffixOf callee.toList then
      addFieldCall draft a i
    else draft

/-- A draft with what an assignment adds. -/
def addAssigned (foreignTables : List String) (draft : EntityDraft) (a : Assigned) :
    EntityDraft :=
  if a.name == "__tablename__" then
    match a.value.bind string? with
    | some table => draft.withTable table
    | none => draft
  else if "__".toList.isPrefixOf a.name.toList then draft
  else
    match a.value.bind Invocation.ofNode? with
    | some i => addCall foreignTables draft a i
    | none => addBare draft a

/-! ## 6. Classes -/

/-- What the bases of a class say about it. -/
structure Bases where
  framework : Option Framework
  maps : Bool
  isRoot : Bool
  checks : Bool

/-- What one base adds; `table` tells whether the class is declared to have a table. -/
def Bases.add (table : Bool) (b : Bases) (base : Node) : Bases :=
  if base.kind != "identifier" && base.kind != "attribute" then b
  else
    let name := memberPart base.text
    if base.text == "models.Model" then { b with framework := some .django, maps := true }
    else if name == "SQLModel" then
      if table then { b with framework := some .sqlmodel, maps := true }
      else { b with checks := true }
    else if rootBases.contains name then { b with isRoot := true }
    else if mappingBases.contains name then { b with maps := true }
    else if checkingBases.contains name then { b with checks := true }
    else b

/-- What the bases of a class say about it. -/
def basesOf (n : Node) : Bases :=
  match n.field? "superclasses" with
  | none => ⟨none, false, false, false⟩
  | some list =>
    let table := list.namedChildren.any fun a =>
      a.kind == "keyword_argument" && a.fieldText? "name" == some "table"
        && a.fieldText? "value" == some "True"
    list.namedChildren.foldl (Bases.add table) ⟨none, false, false, false⟩

/-- The draft that a class makes; roots of hierarchies and abstract classes make none. -/
def classDraft? (path : String) (n : Node) : Option EntityDraft := do
  let name ← n.fieldText? "name"
  let body ← n.field? "body"
  let bases := basesOf n
  let members := assignments body
  let isAbstract := members.any fun a =>
    a.name == "__abstract__" && a.value.map (·.text) == some "True"
  if bases.isRoot || isAbstract then none
  let shell := { EntityDraft.bare name (.ofSpan path n.span) with framework := bases.framework }
  let based := (shell.markIf bases.maps .ormBaseClass).markIf bases.checks .validationBase
  let named := match metaTable? body with
    | some table => based.withTable table
    | none => based
  let foreignTables := members.filterMap fun a =>
    (a.value.bind Invocation.ofNode?).bind foreignTable?
  return members.foldl (addAssigned foreignTables) named

/-- The draft with the key `id` that some frameworks add by themselves. -/
def withImplicitKey (draft : EntityDraft) : EntityDraft :=
  let implied := draft.framework == some .django || draft.framework == some .peewee ||
    (draft.evidence.contains .ormBaseClass &&
      draft.fields.any fun f => "Field".toList.isSuffixOf f.type.toList)
  if implied && !draft.fields.any (·.isPrimaryKey) && !draft.hasField "id" then
    { draft with
      fields := { EntityField.plain "id" "AutoField" with isPrimaryKey := true } :: draft.fields }
  else draft

/-- The drafts that a tree makes. -/
def drafts (path : String) (tree : Node) : List EntityDraft :=
  let classes := tree.preorder.filter fun n =>
    n.kind == "class_definition" && n.fieldText? "name" != some "Meta"
  (classes.filterMap (classDraft? path)).map withImplicitKey

end Codemap.Entities.Python
