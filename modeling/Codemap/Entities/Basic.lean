/-
# Entities

An entity is a type whose objects are kept in a table.  It has fields, relationships to other
entities, and the signals that speak for it; each signal has a weight, and the confidence in the
entity is their sum, kept between zero and one.
-/
import Codemap.Facts.Basic
import Codemap.Packages.Known

namespace Codemap

/-! ## 1. Signals -/

/-- A named piece of evidence with its weight. -/
structure Signal where
  name : String
  weight : Float
deriving Repr, Inhabited

/-- A number, or the nearest end of the interval from zero to one. -/
def clampUnit (x : Float) : Float := if x < 0.0 then 0.0 else if x > 1.0 then 1.0 else x

/-- The confidence that signals give: their sum from left to right, kept between zero and one.
The sum of no signals is the negative zero. -/
def confidence (signals : List Signal) : Float :=
  clampUnit (signals.foldl (fun sum s => sum + s.weight) (-0.0))

/-- The kinds of evidence. -/
inductive Evidence where
  | ormImport
  | entityMarker
  | ormBaseClass
  | tableName
  | columnMarkers
  | primaryKey
  | relationships
  | namingConvention
  | validationBase
deriving Repr, DecidableEq, Inhabited

namespace Evidence

/-- The name of a kind of evidence. -/
def name : Evidence → String
  | ormImport => "orm-import"
  | entityMarker => "entity-marker"
  | ormBaseClass => "orm-base-class"
  | tableName => "table-name"
  | columnMarkers => "column-markers"
  | primaryKey => "primary-key"
  | relationships => "relationships"
  | namingConvention => "naming-convention"
  | validationBase => "validation-base"

/-- The weight of a kind of evidence; a base that only checks values speaks against a table. -/
def weight : Evidence → Float
  | ormImport => 0.3
  | entityMarker => 0.4
  | ormBaseClass => 0.4
  | tableName => 0.2
  | columnMarkers => 0.3
  | primaryKey => 0.1
  | relationships => 0.1
  | namingConvention => 0.1
  | validationBase => -0.4

/-- The signal that a kind of evidence gives. -/
def signal (e : Evidence) : Signal := ⟨e.name, e.weight⟩

/-- Whether a kind of evidence shows by itself that a type is mapped to a table. -/
def isStructural : Evidence → Bool
  | entityMarker | ormBaseClass | tableName | columnMarkers => true
  | _ => false

end Evidence

/-! ## 2. Entities -/

/-- A column of a table. -/
structure EntityField where
  name : String
  type : String
  isPrimaryKey : Bool
  isUnique : Bool
  isNullable : Bool
deriving Repr, DecidableEq, Inhabited

/-- A column that is no key and may not be null. -/
def EntityField.plain (name type : String) : EntityField := ⟨name, type, false, false, false⟩

/-- How many objects stand on either side of a relationship. -/
inductive RelationshipKind where
  | oneToMany
  | manyToOne
  | manyToMany
deriving Repr, DecidableEq, Inhabited

namespace RelationshipKind

/-- The word for a kind of relationship. -/
def word : RelationshipKind → String
  | oneToMany => "oneToMany"
  | manyToOne => "manyToOne"
  | manyToMany => "manyToMany"

/-- The kind of relationship with a word. -/
def ofWord? (s : String) : Option RelationshipKind :=
  [oneToMany, manyToOne, manyToMany].find? fun k => k.word == s

end RelationshipKind

/-- A relationship to another entity, which a field of the owning one carries. -/
structure Relationship where
  kind : RelationshipKind
  target : String
  field : String
deriving Repr, DecidableEq, Inhabited

/-- A type whose objects are kept in a table.  The service that owns it is known once the
services are. -/
structure Entity where
  name : String
  service : Option String
  table : String
  framework : Framework
  fields : List EntityField
  relationships : List Relationship
  confidence : Float
  signals : List Signal
  file : String
  location : Location
deriving Repr, Inhabited

/-- The columns that identify an object. -/
def Entity.primaryKeys (e : Entity) : List EntityField := e.fields.filter (·.isPrimaryKey)

/-! ## 3. Drafts -/

/-- An entity as the declaration of its type shows it, before it is weighed. -/
structure EntityDraft where
  name : String
  framework : Option Framework
  table : Option String
  fields : List EntityField
  relationships : List Relationship
  evidence : List Evidence
  location : Location
deriving Repr, Inhabited

namespace EntityDraft

/-- A draft of which only the name and the place are known. -/
def bare (name : String) (location : Location) : EntityDraft :=
  ⟨name, none, none, [], [], [], location⟩

/-- The draft with a kind of evidence, which counts once. -/
def mark (d : EntityDraft) (e : Evidence) : EntityDraft :=
  if d.evidence.contains e then d else { d with evidence := d.evidence ++ [e] }

/-- The draft with a kind of evidence, if it was found. -/
def markIf (d : EntityDraft) (found : Bool) (e : Evidence) : EntityDraft :=
  if found then d.mark e else d

/-- The draft with a name for its table, unless that is empty. -/
def withTable (d : EntityDraft) (table : String) : EntityDraft :=
  if table.isEmpty then d else { d with table := some table }.mark .tableName

/-- The draft with another field. -/
def addField (d : EntityDraft) (f : EntityField) : EntityDraft :=
  { d with fields := d.fields ++ [f] }

/-- The draft with another relationship. -/
def addRelationship (d : EntityDraft) (r : Relationship) : EntityDraft :=
  { d with relationships := d.relationships ++ [r] }

/-- Whether a field has a given name. -/
def hasField (d : EntityDraft) (name : String) : Bool := d.fields.any fun f => f.name == name

/-- Whether some evidence shows that the type is mapped to a table. -/
def isStructural (d : EntityDraft) : Bool := d.evidence.any (·.isStructural)

end EntityDraft

end Codemap
