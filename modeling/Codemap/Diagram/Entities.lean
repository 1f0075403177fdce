/-
# The diagram of entities

Each entity is a block that lists its fields, and each relationship is a line between two
entities.  Entities whose names give the same identifier are drawn once, as the first of them.
-/
import Codemap.Diagram.Basic
import Codemap.Entities.Basic
import Codemap.Order.Distinct

namespace Codemap.Diagram.Entities

open Codemap.Text

/-! ## 1. What is drawn -/

/-- The entities that are drawn. -/
def drawn (entities : List Entity) : List Entity :=
  Order.distinctBy (fun e => identifier e.name) entities

/-! ## 2. Lines -/

/-- The word for the type of a field: its identifier without underscores around it. -/
def typeWord (type : String) : String :=
  let word := strip (· == '_') (identifierChars (trim type.toList))
  if word.isEmpty then "unknown" else .ofList word

/-- The mark of a key: primary keys are unique without saying so. -/
def keyMark (f : EntityField) : String :=
  if f.isPrimaryKey then " PK" else if f.isUnique then " UK" else ""

/-- The line of a field. -/
def fieldLine (f : EntityField) : String :=
  indent ++ indent ++ typeWord f.type ++ " " ++ identifier f.name ++ keyMark f

/-- The lines of an entity. -/
def blockLines (e : Entity) : List String :=
  let name := indent ++ identifier e.name
  if e.fields.isEmpty then [name]
  else (name ++ " \x7b") :: e.fields.map fieldLine ++ [indent ++ "\x7d"]

/-- The sign between two entities. -/
def sign : RelationshipKind → String
  | .oneToMany => "||--o\x7b"
  | .manyToOne => "\x7do--||"
  | .manyToMany => "\x7do--o\x7b"

/-- The line of a relationship. -/
def relationshipLine (e : Entity) (r : Relationship) : String :=
  indent ++ identifier e.name ++ " " ++ sign r.kind ++ " " ++ identifier r.target ++ " : " ++
    quotedLabel r.field

/-- The lines of the diagram. -/
def lines (entities : List Entity) : List String :=
  let drawn := drawn entities
  "erDiagram" :: drawn.flatMap blockLines ++
    drawn.flatMap fun e => e.relationships.map (relationshipLine e)

/-- The text of the diagram. -/
def text (entities : List Entity) : String := ofLines (lines entities)

end Codemap.Diagram.Entities
