/-
# Entities in ECMAScript files

Three ways of declaring entities are known: classes with decorators on themselves and on their
fields, models that are given an object of attributes (`init`, `define` and the calls that
associate models), and schemas that are constructed from an object and registered under a name.
-/
import Codemap.Entities.Basic
import Codemap.Facts.Wording
import Codemap.Syntax.Cursor

namespace Codemap.Entities.EcmaScript

open Codemap.Facts Codemap.Syntax Codemap.Text

/-! ## 1. Words -/

/-- Decorators that mark a class as an entity. -/
def entityMarkers : List String := ["Entity", "Table"]

/-- Decorators that mark a field as a column. -/
def columnMarkers : List String :=
  ["Column", "PrimaryColumn", "PrimaryGeneratedColumn", "CreateDateColumn", "UpdateDateColumn",
    "DeleteDateColumn", "VersionColumn", "ObjectIdColumn", "Property", "PrimaryKey",
    "SerializedPrimaryKey", "Enum", "Formula", "AutoIncrement", "Unique", "AllowNull",
    "CreatedAt", "UpdatedAt", "DeletedAt", "ForeignKey", "Default"]

/-- Decorators that mark a column as a primary key. -/
def keyMarkers : List String :=
  ["PrimaryColumn", "PrimaryGeneratedColumn", "ObjectIdColumn", "PrimaryKey",
    "SerializedPrimaryKey"]

/-- Types whose argument is the type that is meant. -/
def containerTypes : List String :=
  ["Array", "Collection", "Set", "Promise", "Ref", "Reference", "Relation"]

/-- The relationship that a decorator declares. -/
def decoratedRelationship? : String → Option RelationshipKind
  | "OneToMany" | "HasMany" => some .oneToMany
  | "ManyToOne" | "BelongsTo" | "OneToOne" | "HasOne" => some .manyToOne
  | "ManyToMany" | "BelongsToMany" => some .manyToMany
  | _ => none

/-- The relationship that a method of models declares. -/
def associated? : String → Option RelationshipKind
  | "hasMany" => some .oneToMany
  | "belongsTo" | "hasOne" => some .manyToOne
  | "belongsToMany" => some .manyToMany
  | _ => none

/-- The part of a dotted name after its last dot. -/
def memberPart (name : String) : String := onString (lastPart '.') name

/-! ## 2. Types -/

/-- The first alternative of a type, without the brackets of an array. -/
def singleType (type : List Char) : List Char :=
  let first := trim (type.takeWhile (· != '|'))
  match before? ['[', ']'] first with
  | some s => trim s
  | none => first

/-- The first alternative of a type is no longer than the type. -/
theorem length_singleType_le (type : List Char) : (singleType type).length ≤ type.length := by
  have h1 := length_trim_le (type.takeWhile (· != '|'))
  have h2 := (List.takeWhile_prefix (p := (· != '|')) (l := type)).length_le
  have h3 := length_getD_before?_le ['[', ']'] (trim (type.takeWhile (· != '|')))
  unfold singleType
  dsimp only
  split
  next s hs =>
    rw [hs] at h3
    have h4 := length_trim_le s
    simp only [Option.getD_some] at h3
    omega
  next => omega

/-- The type of the elements of a declared type: that of `T[]`, `Collection<T>` and `T | null` is
`T`. -/
def elementType (type : List Char) : List Char :=
  let base := baseType (singleType type)
  if containerTypes.contains (.ofList base) then
    match _h : between? '<' '>' (singleType type) with
    | some inner => elementType inner
    | none => base
  else base
termination_by type.length
decreasing_by
  have := length_of_between? _h
  have := length_singleType_le type
  omega

/-! ## 3. Decorators -/

/-- A decorator: its name and the arguments given to it. -/
structure Decorator where
  name : String
  arguments : List Node
deriving Inhabited

/-- The arguments of a call, less comments. -/
def argumentsOf (call : Node) : List Node :=
  match call.field? "arguments" with
  | some arguments => arguments.namedChildren.filter fun a => a.kind != "comment"
  | none => []

/-- The decorator that a node describes. -/
def decorator? (n : Node) : Option Decorator := do
  let inner ← n.namedChildren.head?
  if inner.kind == "call_expression" then
    let function ← inner.field? "function"
    return ⟨memberPart function.text, argumentsOf inner⟩
  else return ⟨memberPart inner.text, []⟩

/-- The decorators among the children of a node. -/
def ownDecorators (n : Node) : List Decorator :=
  (n.namedChildren.filter fun c => c.kind == "decorator").filterMap decorator?

/-- The first object among the arguments of a decorator. -/
def Decorator.options? (d : Decorator) : Option Node :=
  d.arguments.find? fun a => a.kind == "object"

/-- The decorators of a class: its own, then those of the statement that exports it. -/
def classDecorators (c : Cursor) : List Decorator :=
  let ofExport := match c.parent with
    | some p => if p.kind == "export_statement" then ownDecorators p.node else []
    | none => []
  ownDecorators c.node ++ ofExport

/-- The members in a row of children of a class body, each with the decorators before it, of
which those in `pending` have been passed, and its own. -/
def membersAfter (pending : List Decorator) : List Node → List (Node × List Decorator)
  | [] => []
  | c :: rest =>
    if c.kind == "decorator" then membersAfter (pending ++ (decorator? c).toList) rest
    else if c.kind == "comment" then membersAfter pending rest
    else (c, pending ++ ownDecorators c) :: membersAfter [] rest

/-- The members of a class body with the decorators that apply to each. -/
def decoratedMembers (body : Node) : List (Node × List Decorator) :=
  membersAfter [] body.namedChildren

/-! ## 4. Object literals -/

/-- A literal without its quotation marks. -/
def bare (n : Node) : String := onString unquote n.text

/-- The members of an object literal that have a key and a value. -/
def pairs (object : Node) : List (String × Node) :=
  object.namedChildren.filterMap fun p =>
    if p.kind == "pair" then do
      let key ← p.field? "key"
      let value ← p.field? "value"
      return (bare key, value)
    else none

/-- The value under a key: that of the first member with the key. -/
def valueOf? (object : Node) (key : String) : Option Node := do
  let pair ← object.namedChildren.find? fun p =>
    p.kind == "pair" && (p.field? "key").map bare == some key
  pair.field? "value"

/-- Whether one of the keys is set to `true`. -/
def isSet (object : Option Node) (keys : List String) : Bool :=
  match object with
  | some o => keys.any fun key => (valueOf? o key).map (·.text) == some "true"
  | none => false

/-- The first text among the values of the keys. -/
def textOf? (object : Option Node) (keys : List String) : Option String := do
  let o ← object
  keys.findSome? fun key => do
    let v ← valueOf? o key
    if v.kind == "string" || v.kind == "template_string" then some (bare v) else none

/-- The entity that an argument names: by itself, by a function that returns it, as a text, or as
the first element of an array. -/
def targetWithin : Nat → Node → Option String
  | 0, _ => none
  | depth + 1, n =>
    match n.kind with
    | "arrow_function" | "function_expression" => do
      let body ← n.field? "body"
      if body.kind == "statement_block" then none else targetWithin depth body
    | "identifier" | "member_expression" => some (memberPart n.text)
    | "string" | "template_string" => some (bare n)
    | "array" => n.namedChildren.head?.bind (targetWithin depth)
    | _ => none

/-- The entity that an argument names. -/
def target? (n : Node) : Option String := targetWithin n.size n

/-! ## 5. Classes -/

/-- The kinds of class declarations and expressions. -/
def classKinds : List String := ["class_declaration", "abstract_class_declaration", "class"]

/-- Whether a class extends something that is called `Model`. -/
def extendsModel (n : Node) : Bool :=
  match n.childOfKind? "class_heritage" with
  | some heritage => heritage.preorder.any fun m =>
      (m.kind == "identifier" || m.kind == "type_identifier") && m.text == "Model"
  | none => false

/-- The name of a member. -/
def memberName? (n : Node) : Option String := (n.field? "name" <|> n.field? "property").map bare

/-- The type that a member states. -/
def memberType? (n : Node) : Option String := do
  let type := onString annotatedType (← n.field? "type").text
  if type.isEmpty then none else some type

/-- The type of a column that the first argument of a decorator or its options state. -/
def decoratorType? (d : Decorator) : Option String :=
  textOf? d.options? ["type"] <|> do
    let first ← d.arguments.head?
    match first.kind with
    | "string" => some (bare first)
    | "member_expression" | "identifier" => some (memberPart first.text)
    | _ => none

/-- The type of a column. -/
def columnType (member : Node) (ds : List Decorator) : String :=
  (memberType? member <|> ds.findSome? decoratorType?).getD "unknown"

/-- The column that a member declares. -/
def column (member : Node) (name : String) (ds : List Decorator) : EntityField where
  name
  type := columnType member ds
  isPrimaryKey := ds.any fun d =>
    keyMarkers.contains d.name || isSet d.options? ["primary", "primaryKey"]
  isUnique := ds.any fun d => d.name == "Unique" || isSet d.options? ["unique"]
  isNullable :=
    (ds.any fun d => d.name == "AllowNull" || isSet d.options? ["nullable", "allowNull"]) ||
      member.hasToken "?"

/-- The relationship that a member declares, if one of its decorators says so; the inner value is
missing if its target cannot be told. -/
def memberRelationship? (member : Node) (name : String) (ds : List Decorator) :
    Option (Option Relationship) := do
  let (d, kind) ← ds.findSome? fun d => (decoratedRelationship? d.name).map (d, ·)
  let target := d.arguments.head?.bind target? <|>
    (memberType? member).map (onString elementType)
  return target.map fun t => ⟨kind, t, name⟩

/-- A draft with what a member of the class adds. -/
def addMember (draft : EntityDraft) (m : Node × List Decorator) : EntityDraft :=
  let (member, ds) := m
  if member.kind == "public_field_definition" || member.kind == "field_definition" then
    match memberName? member with
    | none => draft
    | some name =>
      match memberRelationship? member name ds with
      | some (some r) => draft.addRelationship r
      | some none => draft
      | none =>
        if ds.any fun d => columnMarkers.contains d.name then
          (draft.mark .columnMarkers).addField (column member name ds)
        else draft
  else draft

/-- A draft with what a decorator of the class adds. -/
def addMarker (draft : EntityDraft) (d : Decorator) : EntityDraft :=
  if entityMarkers.contains d.name then
    let marked := draft.mark .entityMarker
    let framed :=
      if d.name == "Table" then { marked with framework := some .sequelizeTypescript } else marked
    let table :=
      (d.arguments.head?.bind fun a => if a.kind == "string" then some (bare a) else none)
        <|> textOf? d.options? ["tableName", "name", "collection"]
    match table with
    | some t => framed.withTable t
    | none => framed
  else draft

/-- The draft that a class makes. -/
def classDraft? (path : String) (c : Cursor) : Option EntityDraft :=
  (c.node.fieldText? "name").map fun name =>
    let shell := EntityDraft.bare name (.ofSpan path c.node.span)
    let marked := (classDecorators c).foldl addMarker shell
    let based := marked.markIf (extendsModel c.node) .ormBaseClass
    match c.node.field? "body" with
    | some body => (decoratedMembers body).foldl addMember based
    | none => based

/-! ## 6. Models with attributes -/

/-- The column that an attribute declares. -/
def modelColumn (name : String) (value : Node) : EntityField :=
  if value.kind == "object" then
    let type := ((valueOf? value "type").map fun t => memberPart t.text).getD "unknown"
    { name
      type := onString baseType type
      isPrimaryKey := isSet value ["primaryKey"]
      isUnique := isSet value ["unique"]
      isNullable := isSet value ["allowNull"] }
  else .plain name (onString baseType (memberPart value.text))

/-- A draft with the attributes and the options that a model is given. -/
def withAttributes (draft : EntityDraft) (arguments : List Node) : EntityDraft :=
  let objects := arguments.filter fun a => a.kind == "object"
  let framed := { draft with framework := draft.framework <|> some Framework.sequelize }
  let columns := match objects.head? with
    | some attributes => (pairs attributes).map fun (name, value) => modelColumn name value
    | none => []
  let filled := columns.foldl
    (fun d f => if d.hasField f.name then d else d.addField f)
    (framed.markIf (!columns.isEmpty) .columnMarkers)
  match textOf? objects[1]? ["tableName"] with
  | some table => filled.withTable table
  | none => filled

/-- The first draft of a given name is changed. -/
def change (name : String) (f : EntityDraft → EntityDraft) : List EntityDraft → List EntityDraft
  | [] => []
  | d :: ds => if d.name == name then f d :: ds else d :: change name f ds

/-- The drafts after a call of a member; nothing if the method is not known. -/
def afterMemberCall? (path : String) (drafts : List EntityDraft) (call function : Node)
    (method : String) : Option (List EntityDraft) :=
  let arguments := argumentsOf call
  let receiver := (function.fieldText? "object").getD ""
  match method with
  | "init" => some (change receiver (withAttributes · arguments) drafts)
  | "define" =>
    match arguments.head? with
    | some name =>
      if name.kind == "string" then
        let shell := EntityDraft.bare (bare name) (.ofSpan path call.span)
        some (drafts ++ [withAttributes (shell.mark .entityMarker) arguments])
      else some drafts
    | none => some drafts
  | _ =>
    (associated? method).map fun kind =>
      match arguments.head?.bind target? with
      | some target =>
        let field := (textOf? arguments[1]? ["as", "foreignKey"]).getD (lowered target)
        change receiver (·.addRelationship ⟨kind, target, field⟩) drafts
      | none => drafts

/-- The drafts so far, and the names under which schemas were registered. -/
structure Progress where
  drafts : List EntityDraft
  registered : List (String × String)

/-- What a call adds. -/
def afterCall (path : String) (s : Progress) (call : Node) : Progress :=
  match call.field? "function" with
  | none => s
  | some function =>
    let method := memberPart function.text
    let changed :=
      if function.kind == "member_expression" then
        afterMemberCall? path s.drafts call function method
      else none
    match changed with
    | some drafts => { s with drafts }
    | none =>
      match method, argumentsOf call with
      | "model", name :: schema :: _ =>
        if name.kind == "string" && schema.kind == "identifier" then
          { s with registered := s.registered ++ [(bare name, schema.text)] }
        else s
      | _, _ => s

/-! ## 7. Schemas -/

/-- A name whose first letter is in upper case. -/
def capitalized (name : List Char) : List Char :=
  match name with
  | c :: rest => upperChar c ++ rest
  | [] => []

/-- The model that a variable holding a schema stands for. -/
def schemaModel (name : List Char) : List Char :=
  let stem := before? ['S', 'c', 'h', 'e', 'm', 'a'] name <|>
    before? ['_', 's', 'c', 'h', 'e', 'm', 'a'] name
  match stem with
  | some (c :: rest) => capitalized (c :: rest)
  | _ => capitalized name

/-- A draft with what a member of a schema adds. -/
def addSchemaMember (draft : EntityDraft) (member : String × Node) : EntityDraft :=
  let (name, value) := member
  match value.kind with
  | "object" =>
    match textOf? value ["ref"] with
    | some target => draft.addRelationship ⟨.manyToOne, target, name⟩
    | none =>
      draft.addField
        { name
          type := ((valueOf? value "type").map fun t => memberPart t.text).getD "Object"
          isPrimaryKey := false
          isUnique := isSet value ["unique"]
          isNullable := !isSet value ["required"] }
  | "array" =>
    match value.namedChildren.head? with
    | some element =>
      match if element.kind == "object" then textOf? element ["ref"] else none with
      | some target => draft.addRelationship ⟨.oneToMany, target, name⟩
      | none => draft.addField (.plain name (memberPart element.text ++ "[]"))
    | none => draft.addField (.plain name "Array")
  | _ => draft.addField { EntityField.plain name (memberPart value.text) with isNullable := true }

/-- The variable and the construction of a schema, where a node declares one. -/
def schema? (n : Node) : Option (String × Node) := do
  if n.kind != "variable_declarator" then none
  let name ← n.field? "name"
  let value ← n.field? "value"
  if value.kind != "new_expression" then none
  let constructor ← value.field? "constructor"
  if memberPart constructor.text == "Schema" then some (name.text, value) else none

/-- The draft that a schema makes. -/
def schemaDraft (path : String) (registered : List (String × String)) (name : String)
    (construction : Node) : EntityDraft :=
  let model := (registered.find? fun r => r.2 == name).map (·.1)
  let shell :=
    { EntityDraft.bare (model.getD (onString schemaModel name)) (.ofSpan path construction.span)
      with framework := some .mongoose }
  let marked := shell.markIf model.isSome .entityMarker
  match (argumentsOf construction).find? fun a => a.kind == "object" with
  | some definition =>
    let id : EntityField := { EntityField.plain "_id" "ObjectId" with isPrimaryKey := true }
    let filled := (pairs definition).foldl addSchemaMember (marked.addField id)
    filled.markIf (filled.fields.length > 1 || !filled.relationships.isEmpty) .columnMarkers
  | none => marked

/-! ## 8. Files -/

/-- The drafts that a tree makes: classes and models first, then schemas. -/
def drafts (path : String) (tree : Node) : List EntityDraft :=
  let classes := (Cursor.top tree).walk.filterMap fun c =>
    if classKinds.contains c.kind then classDraft? path c else none
  let nodes := tree.preorder
  let after := (nodes.filter fun n => n.kind == "call_expression").foldl (afterCall path)
    ⟨classes, []⟩
  after.drafts ++ (nodes.filterMap schema?).map fun (name, construction) =>
    schemaDraft path after.registered name construction

end Codemap.Entities.EcmaScript
