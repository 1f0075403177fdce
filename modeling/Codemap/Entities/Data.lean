/-
# Entities as data values

Entities are written with the members of the interchange format.  How floating point numbers are
written is left to the caller, `number`: a report has them as numbers.
-/
import Codemap.Entities.Basic
import Codemap.Facts.Data

namespace Codemap

open Json

/-! ## 1. Signals -/

/-- A signal as a data value. -/
def Signal.toData (number : Float → Json) (s : Signal) : Json := object
  [("name", string s.name), ("weight", number s.weight)]

/-- The signal that a data value describes. -/
def Signal.ofData? (j : Json) : Option Signal := do
  let name ← j.required "name" string?
  let weight ← j.required "weight" float?
  return ⟨name, weight⟩

/-! ## 2. Fields and relationships -/

/-- A framework as a data value. -/
def Framework.toData (f : Framework) : Json := string f.name

/-- The framework that a data value describes. -/
def Framework.ofData? (j : Json) : Option Framework := do ofName? (← j.string?)

/-- A field as a data value. -/
def EntityField.toData (f : EntityField) : Json := object
  [("name", string f.name), ("type", string f.type), ("isPrimaryKey", bool f.isPrimaryKey),
    ("isUnique", bool f.isUnique), ("isNullable", bool f.isNullable)]

/-- The field that a data value describes. -/
def EntityField.ofData? (j : Json) : Option EntityField := do
  let name ← j.required "name" string?
  let type ← j.required "type" string?
  let isPrimaryKey ← j.required "isPrimaryKey" bool?
  let isUnique ← j.required "isUnique" bool?
  let isNullable ← j.defaulted "isNullable" bool? false
  return ⟨name, type, isPrimaryKey, isUnique, isNullable⟩

/-- A kind of relationship as a data value. -/
def RelationshipKind.toData (k : RelationshipKind) : Json := string k.word

/-- The kind of relationship that a data value describes. -/
def RelationshipKind.ofData? (j : Json) : Option RelationshipKind := do ofWord? (← j.string?)

/-- A relationship as a data value. -/
def Relationship.toData (r : Relationship) : Json := object
  [("kind", r.kind.toData), ("target", string r.target), ("field", string r.field)]

/-- The relationship that a data value describes. -/
def Relationship.ofData? (j : Json) : Option Relationship := do
  let kind ← j.required "kind" RelationshipKind.ofData?
  let target ← j.required "target" string?
  let field ← j.required "field" string?
  return ⟨kind, target, field⟩

/-! ## 3. Entities -/

/-- An entity as a data value. -/
def Entity.toData (number : Float → Json) (e : Entity) : Json := object <|
  [("name", string e.name)] ++ omitted "service" string e.service
    ++ [("tableName", string e.table), ("framework", e.framework.toData),
      ("fields", array (e.fields.map EntityField.toData)),
      ("relationships", array (e.relationships.map Relationship.toData)),
      ("confidence", number e.confidence),
      ("detectionSignals", array (e.signals.map (Signal.toData number))),
      ("filePath", string e.file), ("location", e.location.toData)]

/-- The entity that a data value describes. -/
def Entity.ofData? (j : Json) : Option Entity := do
  let name ← j.required "name" string?
  let service ← j.optional "service" string?
  let table ← j.required "tableName" string?
  let framework ← j.required "framework" Framework.ofData?
  let fields ← j.required "fields" (listOf EntityField.ofData?)
  let relationships ← j.required "relationships" (listOf Relationship.ofData?)
  let confidence ← j.required "confidence" float?
  let signals ← j.required "detectionSignals" (listOf Signal.ofData?)
  let file ← j.required "filePath" string?
  let location ← j.required "location" Location.ofData?
  return ⟨name, service, table, framework, fields, relationships, confidence, signals, file,
    location⟩

end Codemap
