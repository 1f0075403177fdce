/-
# Entities in Java files

A class is an entity when it is annotated as one or when its fields are annotated as columns.
Fields that are static or transient are not kept.
-/
import Codemap.Entities.Basic
import Codemap.Facts.Wording
import Codemap.Syntax.Node

namespace Codemap.Entities.Java

open Codemap.Facts Codemap.Syntax Codemap.Text

/-! ## 1. Words -/

/-- The names of annotations that mark a field as a column. -/
def columnMarkers : List String :=
  ["Column", "Id", "EmbeddedId", "GeneratedValue", "JoinColumn", "Lob", "Enumerated", "Temporal"]

/-- The relationship that an annotated field stands for. -/
def relationship? : String → Option RelationshipKind
  | "OneToMany" => some .oneToMany
  | "ManyToOne" | "OneToOne" => some .manyToOne
  | "ManyToMany" => some .manyToMany
  | _ => none

/-- The type of the elements of a declared type: the last argument, or the type without the
brackets of an array. -/
def elementType (type : List Char) : List Char :=
  match between? '<' '>' (trim type) with
  | some inner => trim (lastPart ',' inner)
  | none => dropCopiesEnd ['[', ']'] (trim type)

/-! ## 2. Annotations -/

/-- An annotated name with its arguments; one without a key has the key `value`. -/
structure Mark where
  name : String
  arguments : List (String × Node)

namespace Mark

/-- The argument that a node describes. -/
def argumentOf? (n : Node) : Option (String × Node) :=
  if n.kind == "element_value_pair" then do
    let key ← n.field? "key"
    let value ← n.field? "value"
    return (key.text, value)
  else if n.kind == "comment" then none
  else some ("value", n)

/-- The annotation that a node describes. -/
def ofNode? (n : Node) : Option Mark := do
  if n.kind != "annotation" && n.kind != "marker_annotation" then none
  let name ← n.field? "name"
  let arguments := match n.field? "arguments" with
    | some list => list.namedChildren.filterMap argumentOf?
    | none => []
  return ⟨onString (lastPart '.') name.text, arguments⟩

/-- The argument under a key. -/
def argument? (m : Mark) (key : String) : Option Node :=
  (m.arguments.find? fun a => a.1 == key).map (·.2)

/-- Whether a key is set. -/
def isSet (m : Mark) (key : String) : Bool := (m.argument? key).map (·.text) == some "true"

/-- The text under a key. -/
def string? (m : Mark) (key : String) : Option String := do
  let value ← m.argument? key
  if value.kind == "string_literal" then some (onString unquote value.text) else none

end Mark

/-- The annotations among the modifiers of a declaration. -/
def marks (n : Node) : List Mark :=
  match n.childOfKind? "modifiers" with
  | some modifiers => modifiers.namedChildren.filterMap Mark.ofNode?
  | none => []

/-! ## 3. Classes -/

/-- Whether the values of a field are not kept. -/
def isUnkept (n : Node) (ms : List Mark) : Bool :=
  let modifiers := ((n.childOfKind? "modifiers").map (·.text)).getD ""
  ((words modifiers.toList).any fun w => w == "static".toList || w == "transient".toList) ||
    ms.any fun m => m.name == "Transient"

/-- The column that a field declares. -/
def column (name type : String) (ms : List Mark) : EntityField :=
  let marked := ms.find? fun m => m.name == "Column"
  { name
    type
    isPrimaryKey := ms.any fun m => m.name == "Id" || m.name == "EmbeddedId"
    isUnique := marked.any (·.isSet "unique")
    isNullable := marked.any (·.isSet "nullable") }

/-- A draft with what a member of the class adds; outside of annotated classes, only annotated
fields count. -/
def addMember (isEntity : Bool) (draft : EntityDraft) (n : Node) : EntityDraft :=
  let ms := marks n
  if n.kind != "field_declaration" || isUnkept n ms then draft
  else
    let type := (n.fieldText? "type").getD "Object"
    let names := (n.children.filter fun d => d.field == some "declarator").filterMap fun d =>
      d.fieldText? "name"
    match ms.findSome? fun m => (relationship? m.name).map (m, ·) with
    | some (m, kind) =>
      let target := match m.argument? "targetEntity" with
        | some v => onString (dropCopiesEnd ".class".toList) v.text
        | none => onString elementType type
      names.foldl (fun d name => d.addRelationship ⟨kind, target, name⟩) draft
    | none =>
      let marked := ms.any fun m => columnMarkers.contains m.name
      if marked || isEntity then
        names.foldl (fun d name => d.addField (column name type ms))
          (draft.markIf marked .columnMarkers)
      else draft

/-- A draft with the table that an annotated class is given. -/
def addTable (draft : EntityDraft) (m : Mark) : EntityDraft :=
  let table := match m.name with
    | "Table" => m.string? "name"
    | "Entity" => if draft.table.isNone then m.string? "name" else none
    | _ => none
  match table with
  | some t => draft.withTable t
  | none => draft

/-- The draft that a class makes; classes that only lend their columns to others make none. -/
def classDraft? (path : String) (n : Node) : Option EntityDraft := do
  let name ← n.fieldText? "name"
  let ms := marks n
  if ms.any fun m => m.name == "MappedSuperclass" || m.name == "Embeddable" then none
  let body ← n.field? "body"
  let isEntity := ms.any fun m => m.name == "Entity"
  let shell := { EntityDraft.bare name (.ofSpan path n.span) with framework := some .jpa }
  let marked := ms.foldl addTable (shell.markIf isEntity .entityMarker)
  return body.namedChildren.foldl (addMember isEntity) marked

/-- The drafts that a tree makes. -/
def drafts (path : String) (tree : Node) : List EntityDraft :=
  (tree.preorder.filter fun n => n.kind == "class_declaration").filterMap (classDraft? path)

end Codemap.Entities.Java
