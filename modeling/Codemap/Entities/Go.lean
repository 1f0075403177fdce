/-
# Entities in Go files

Every structure is looked at.  Settings in the tags of its fields mark columns and relationships;
an embedded `gorm.Model` brings fields of its own; a method `TableName` names the table.
-/
import Codemap.Entities.Basic
import Codemap.Facts.Wording
import Codemap.Syntax.Node

namespace Codemap.Entities.Go

open Codemap.Facts Codemap.Syntax Codemap.Text

/-! ## 1. Tags -/

/-- The settings in the tag of a field, in the order in which they are written; nothing if the tag
has none. -/
abbrev Settings := Option (List (String × String))

/-- The part of a tag that holds the settings: between quotation marks, after the mark. -/
def settingsText? (tag : List Char) : Option (List Char) := do
  let quote := Char.ofNat 34
  let (_, rest) ← cutAround ("gorm:".toList ++ [quote]) tag
  if rest.contains quote then some (rest.takeWhile (· != quote)) else none

/-- One setting: a key in lower case, and what follows the colon. -/
def setting? (part : List Char) : Option (String × String) :=
  let p := trim part
  if p.isEmpty then none
  else
    let (key, value) := (cutFirst ':' p).getD (p, [])
    some (.ofList (lower (trim key)), .ofList (trim value))

/-- The settings in a tag. -/
def settingsOf (tag : Option String) : Settings := do
  let text ← settingsText? (← tag).toList
  return (piecesAt ';' text).filterMap setting?

/-- Whether a key is set. -/
def has (s : Settings) (key : String) : Bool := s.any fun items => items.any fun i => i.1 == key

/-- The value of a key; the last one counts. -/
def value? (s : Settings) (key : String) : Option String := do
  let item ← (← s).reverse.find? fun i => i.1 == key
  return item.2

/-! ## 2. Types -/

/-- Types that are built in. -/
def builtInTypes : List String :=
  ["string", "bool", "byte", "rune", "int", "int8", "int16", "int32", "int64", "uint", "uint8",
    "uint16", "uint32", "uint64", "float32", "float64", "complex64", "complex128", "error", "any"]

/-- The fields that an embedded model brings: name, type, whether it is the key, and whether it
may be null. -/
def modelFields : List EntityField :=
  [{ EntityField.plain "ID" "uint" with isPrimaryKey := true },
    .plain "CreatedAt" "time.Time", .plain "UpdatedAt" "time.Time",
    { EntityField.plain "DeletedAt" "gorm.DeletedAt" with isNullable := true }]

/-- Whether a name starts with an upper-case letter. -/
def isExported (name : List Char) : Bool := (name.head?.map isUpper).getD false

/-- The type that a slice or a pointer refers to, and whether it is a slice. -/
def referenced (type : List Char) : List Char × Bool :=
  let t := trim type
  ((dropCopiesStart ['[', ']'] t).dropWhile (· == '*'), ['[', ']'].isPrefixOf t)

/-- Whether a type may be a model: it is a structure of the file, or an exported name of its own
package. -/
def mayBeModel (structures : List String) (type : List Char) : Bool :=
  let name : String := .ofList type
  structures.contains name ||
    (!type.contains '.' && !builtInTypes.contains name && isExported type)

/-! ## 3. Structures -/

/-- The relationship that a field stands for, if it stands for one. -/
def relationship? (structures : List String) (s : Settings) (type : List Char) :
    Option (RelationshipKind × String) :=
  let (target, isSlice) := referenced type
  let isRelation := has s "many2many" || has s "foreignkey" ||
    (isSlice && mayBeModel structures target) ||
    (!isSlice && structures.contains (.ofList target))
  if !isRelation then none
  else if has s "many2many" then some (.manyToMany, .ofList target)
  else if isSlice then some (.oneToMany, .ofList target)
  else some (.manyToOne, .ofList target)

/-- The column that a field declares. -/
def column (s : Settings) (name type : String) : EntityField where
  name := ((value? s "column").filter (!·.isEmpty)).getD name
  type
  isPrimaryKey := has s "primarykey" || has s "primary_key"
  isUnique := has s "unique" || has s "uniqueindex"
  isNullable := type.toList.head? == some '*' && !has s "not null"

/-- A draft with what an embedded type adds. -/
def addEmbedded (draft : EntityDraft) (type : String) : EntityDraft :=
  if type.toList.dropWhile (· == '*') == "gorm.Model".toList then
    modelFields.foldl EntityDraft.addField (draft.mark .ormBaseClass)
  else draft

/-- A draft with what a field of the structure adds. -/
def addField (structures : List String) (draft : EntityDraft) (n : Node) : EntityDraft :=
  if n.kind != "field_declaration" then draft
  else
    match n.fieldText? "type" with
    | none => draft
    | some type =>
      let s := settingsOf (n.fieldText? "tag")
      if has s "-" then draft
      else
        let marked := draft.markIf s.isSome .columnMarkers
        let names := (n.children.filter fun c => c.field == some "name").map (·.text)
        if names.isEmpty then addEmbedded marked type
        else
          match relationship? structures s type.toList with
          | some (kind, target) =>
            names.foldl (fun d name => d.addRelationship ⟨kind, target, name⟩) marked
          | none =>
            (names.filter fun name => isExported name.toList).foldl
              (fun d name => d.addField (column s name type)) marked

/-- The fields, where the first one called `ID` is made the key if there is none. -/
def keyed (fields : List EntityField) : List EntityField :=
  if fields.any (·.isPrimaryKey) then fields else makeKey fields
where
  /-- The first field called `ID` becomes the key. -/
  makeKey : List EntityField → List EntityField
    | [] => []
    | f :: fs => if f.name == "ID" then { f with isPrimaryKey := true } :: fs else f :: makeKey fs

/-- The draft that a specification of a structure makes. -/
def structureDraft? (path : String) (structures : List String) (spec : Node) :
    Option EntityDraft := do
  let name ← spec.fieldText? "name"
  let list ← (← spec.field? "type").namedChildren.find? fun c =>
    c.kind == "field_declaration_list"
  let shell := { EntityDraft.bare name (.ofSpan path spec.span) with framework := some .gorm }
  let filled := list.namedChildren.foldl (addField structures) shell
  return { filled with fields := keyed filled.fields }

/-! ## 4. Tables -/

/-- The kinds of string literals. -/
def stringKinds : List String := ["interpreted_string_literal", "raw_string_literal"]

/-- The receiver and the table that a method `TableName` names. -/
def tableMethod? (n : Node) : Option (String × String) := do
  if n.kind != "method_declaration" || n.fieldText? "name" != some "TableName" then none
  let parameter ← (← n.field? "receiver").namedChildren.head?
  let type ← parameter.fieldText? "type"
  let body ← n.field? "body"
  let literal ← body.preorder.find? fun m => stringKinds.contains m.kind
  return (onString (fun s => s.dropWhile (· == '*')) type, onString unquote literal.text)

/-- The drafts that a tree makes. -/
def drafts (path : String) (tree : Node) : List EntityDraft :=
  let nodes := tree.preorder
  let specs := nodes.filter fun n =>
    n.kind == "type_spec" && (n.field? "type").any fun t => t.kind == "struct_type"
  let structures := specs.filterMap fun n => n.fieldText? "name"
  let tables := (nodes.filterMap tableMethod?).reverse
  (specs.filterMap (structureDraft? path structures)).map fun draft =>
    match tables.find? fun t => t.1 == draft.name with
    | some (_, table) => draft.withTable table
    | none => draft

end Codemap.Entities.Go
