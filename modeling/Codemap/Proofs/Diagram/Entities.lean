/-
# The grammar of the diagram of entities

Behind its header the diagram is blocks, and behind these it is links.  A block is a name alone, or
a name and rows between braces; a row is a type, a name and at most one mark of a key; a link is a
sign between two names, and a label in quotation marks.  The words of the grammar are identifiers,
whatever the source has for names and types (`isIdentifier_typeWord`), and the values below carry
the proofs of it, so that lines of any other form cannot be written down.

A label is the name of a field as the source has it, less its quotation marks.  It is the one word
that may hold a line break, and then its line falls apart.

Main statement: `text_follows_grammar`.  If the fields of relationships are named on one line, the
lines of the diagram are those of the grammar, with a block for each identifier, a row for each
field of the first entity with this identifier, and a link for each of its relationships.
-/
import Codemap.Proofs.Diagram.Names
import Codemap.Proofs.Diagram.Types

namespace Codemap.Diagram.Entities

open Codemap.Text
open Codemap.Diagram.Types (endsLine OnOneLine onOneLine_append onOneLine_indent onOneLine_of_all
  onOneLine_of_forall_ne)

/-! ## 1. The grammar -/

/-- The mark of a column that tells objects apart. -/
inductive KeyMark where
  | primary
  | unique
deriving DecidableEq

/-- The word for a mark. -/
def KeyMark.word : KeyMark → String
  | primary => "PK"
  | unique => "UK"

/-- A row of a block. -/
structure Row where
  type : String
  name : String
  key : Option KeyMark
  isIdentifier_type : IsIdentifier type
  isIdentifier_name : IsIdentifier name

/-- The line of a row. -/
def Row.line (r : Row) : String :=
  indent ++ indent ++ r.type ++ " " ++ r.name ++ r.key.elim "" fun k => " " ++ k.word

/-- A block: a name, and rows if there are any. -/
structure Block where
  name : String
  rows : List Row
  isIdentifier_name : IsIdentifier name

/-- The lines of a block. -/
def Block.lines (b : Block) : List String :=
  if b.rows.isEmpty then [indent ++ b.name]
  else (indent ++ b.name ++ " \x7b") :: b.rows.map Row.line ++ [indent ++ "\x7d"]

/-- The signs that may stand in a link. -/
def signs : List String := ["||--o\x7b", "\x7do--||", "\x7do--o\x7b"]

/-- A link between two names. -/
structure Link where
  source : String
  sign : String
  target : String
  label : String
  isIdentifier_source : IsIdentifier source
  sign_mem : sign ∈ signs
  isIdentifier_target : IsIdentifier target
  unquoted : quotationMark ∉ label.toList

/-- The line of a link. -/
def Link.line (l : Link) : String :=
  indent ++ l.source ++ " " ++ l.sign ++ " " ++ l.target ++ " : " ++
    .ofList (quotationMark :: l.label.toList ++ [quotationMark])

/-- The lines of blocks and links behind the header. -/
def document (blocks : List Block) (links : List Link) : List String :=
  "erDiagram" :: blocks.flatMap Block.lines ++ links.map Link.line

/-! ## 2. What is on one line -/

section Lines

variable {returns : Bool}

theorem onOneLine_of_isIdentifier {s : String} (h : IsIdentifier s) : OnOneLine returns s := by
  refine onOneLine_of_forall_ne fun c hc => ?_
  have hchar := h.2 c hc
  constructor <;> rintro rfl <;> exact absurd hchar (by decide)

theorem onOneLine_row (r : Row) : OnOneLine returns r.line := by
  have hblank : OnOneLine returns " " := onOneLine_of_all (by decide)
  have hkey : OnOneLine returns (r.key.elim "" fun k => " " ++ k.word) := by
    cases r.key with
    | none => exact onOneLine_of_all (by decide)
    | some k => cases k <;> exact onOneLine_of_all (by decide)
  simp only [Row.line, onOneLine_append, onOneLine_indent, hblank, hkey,
    onOneLine_of_isIdentifier r.isIdentifier_type, onOneLine_of_isIdentifier r.isIdentifier_name,
    and_self]

theorem onOneLine_block (b : Block) : ∀ l ∈ b.lines, OnOneLine returns l := by
  have hname : OnOneLine returns b.name := onOneLine_of_isIdentifier b.isIdentifier_name
  have hopening : OnOneLine returns " \x7b" := onOneLine_of_all (by decide)
  have hclosing : OnOneLine returns "\x7d" := onOneLine_of_all (by decide)
  unfold Block.lines
  split <;> simp only [List.cons_append, List.forall_mem_cons, List.forall_mem_append,
    List.forall_mem_map, List.not_mem_nil, IsEmpty.forall_iff, onOneLine_append, onOneLine_indent,
    hname, hopening, hclosing, onOneLine_row, and_self, implies_true]

/-- Signs are marks that stand for themselves. -/
theorem onOneLine_of_mem_signs {s : String} (h : s ∈ signs) : OnOneLine returns s := by
  have hall : ∀ s ∈ signs, (s.toList.all fun c => c != '\n' && c != '\r') = true := by decide
  exact onOneLine_of_all (hall s h)

/-- A link is on one line if its label is. -/
theorem onOneLine_link {l : Link} (h : OnOneLine returns l.label) : OnOneLine returns l.line := by
  have hblank : OnOneLine returns " " := onOneLine_of_all (by decide)
  have hcolon : OnOneLine returns " : " := onOneLine_of_all (by decide)
  have hmark : endsLine returns quotationMark = false := by cases returns <;> decide
  have hlabel : OnOneLine returns
      (.ofList (quotationMark :: l.label.toList ++ [quotationMark])) := by
    intro c hc
    rw [String.toList_ofList, List.mem_append, List.mem_cons, List.mem_singleton] at hc
    rcases hc with (rfl | hc) | rfl
    · exact hmark
    · exact h c hc
    · exact hmark
  simp only [Link.line, onOneLine_append, onOneLine_indent, hblank, hcolon, hlabel,
    onOneLine_of_isIdentifier l.isIdentifier_source, onOneLine_of_mem_signs l.sign_mem,
    onOneLine_of_isIdentifier l.isIdentifier_target, and_self]

/-- **The lines of a document can be read off its text**, if its labels are on one line. -/
theorem pieces_document (blocks : List Block) {links : List Link}
    (h : ∀ l ∈ links, OnOneLine returns l.label) :
    pieces (endsLine returns) (ofLines (document blocks links)).toList =
      (document blocks links).map String.toList ++ [[]] := by
  refine (pieces_ofLines_iff (p := endsLine returns) rfl).mpr ?_
  have hheader : OnOneLine returns "erDiagram" := onOneLine_of_all (by decide)
  simp only [document, List.cons_append, List.forall_mem_cons, List.forall_mem_append,
    List.forall_mem_flatMap, List.forall_mem_map]
  exact ⟨hheader, fun b _ => onOneLine_block b, fun l hl => onOneLine_link (h l hl)⟩

end Lines

/-! ## 3. What is drawn -/

/-- The word for a type is what its identifier is between underscores, or `unknown` if that is
nothing. -/
def IsTypeWord (type word : String) : Prop :=
  ∃ m bare n, identifierChars (trim type.toList) =
      List.replicate m '_' ++ bare ++ List.replicate n '_' ∧
    bare.head? ≠ some '_' ∧ bare.getLast? ≠ some '_' ∧
    word = if bare.isEmpty then "unknown" else .ofList bare

/-- A row shows a field.  Of a column that is a primary key the row does not say that it is unique
as well. -/
structure Row.Shows (f : EntityField) (r : Row) : Prop where
  type : IsTypeWord f.type r.type
  name_eq : r.name = identifier f.name
  primary_iff : r.key = some .primary ↔ f.isPrimaryKey
  unique_iff : r.key = some .unique ↔ f.isUnique ∧ ¬ f.isPrimaryKey

/-- A block shows an entity, all its fields in order. -/
structure Block.Shows (e : Entity) (b : Block) : Prop where
  name_eq : b.name = identifier e.name
  rows : List.Forall₂ Row.Shows e.fields b.rows

/-- A link shows a relationship of an entity. -/
structure Link.Shows (r : Entity × Relationship) (l : Link) : Prop where
  source_eq : l.source = identifier r.1.name
  sign_eq : l.sign = Entities.sign r.2.kind
  target_eq : l.target = identifier r.2.target
  label_eq : l.label = .ofList (replaceChar (· == quotationMark) (Char.ofNat 39) r.2.field.toList)

/-- Blocks and links draw entities: of those with the same identifier the first, with all its fields
and all its relationships. -/
structure Draws (entities : List Entity) (blocks : List Block) (links : List Link) : Prop where
  nodup_names : (blocks.map (·.name)).Nodup
  exists_block : ∀ e ∈ entities, ∃ b ∈ blocks, b.name = identifier e.name
  shown : ∃ drawn : List Entity, drawn.Sublist entities ∧
    (∀ e ∈ drawn, entities.find? (fun d => identifier d.name == identifier e.name) = some e) ∧
    List.Forall₂ Block.Shows drawn blocks ∧
    List.Forall₂ Link.Shows (drawn.flatMap fun e => e.relationships.map (e, ·)) links

/-- What is left between the underscores is part of an identifier, and `unknown` is one. -/
theorem isIdentifier_typeWord (type : String) : IsIdentifier (typeWord type) := by
  rw [typeWord]
  split
  · exact ⟨by decide, List.all_eq_true.mp (by decide)⟩
  next h =>
    constructor
    · intro hempty
      rw [← String.toList_eq_nil_iff, String.toList_ofList] at hempty
      exact h (List.isEmpty_iff.mpr hempty)
    · intro c hc
      rw [String.toList_ofList] at hc
      exact isIdentifierChar_of_mem_identifierChars (mem_of_mem_strip hc)

theorem isTypeWord_typeWord (type : String) : IsTypeWord type (typeWord type) := by
  obtain ⟨m, n, hall, hhead, hlast⟩ :=
    exists_replicate_append_strip '_' (identifierChars (trim type.toList))
  exact ⟨m, _, n, hall, hhead, hlast, rfl⟩

theorem sign_mem_signs (k : RelationshipKind) : sign k ∈ signs := by cases k <;> decide

/-- The row of a field. -/
def rowOf (f : EntityField) : Row where
  type := typeWord f.type
  name := identifier f.name
  key := if f.isPrimaryKey then some .primary else if f.isUnique then some .unique else none
  isIdentifier_type := isIdentifier_typeWord f.type
  isIdentifier_name := isIdentifier_identifier f.name

/-- The block of an entity. -/
def blockOf (e : Entity) : Block where
  name := identifier e.name
  rows := e.fields.map rowOf
  isIdentifier_name := isIdentifier_identifier e.name

/-- The link of a relationship. -/
def linkOf (r : Entity × Relationship) : Link where
  source := identifier r.1.name
  sign := sign r.2.kind
  target := identifier r.2.target
  label := .ofList (replaceChar (· == quotationMark) (Char.ofNat 39) r.2.field.toList)
  isIdentifier_source := isIdentifier_identifier r.1.name
  sign_mem := sign_mem_signs r.2.kind
  isIdentifier_target := isIdentifier_identifier r.2.target
  unquoted := by
    rw [String.toList_ofList, replaceChar, List.mem_map]
    rintro ⟨c, -, hc⟩
    split at hc
    · exact absurd hc (by decide)
    next hne => exact hne (beq_iff_eq.mpr hc)

theorem shows_rowOf (f : EntityField) : Row.Shows f (rowOf f) where
  type := by simpa only [rowOf] using isTypeWord_typeWord f.type
  name_eq := by rw [rowOf]
  primary_iff := by cases hp : f.isPrimaryKey <;> cases hu : f.isUnique <;> simp [rowOf, hp, hu]
  unique_iff := by cases hp : f.isPrimaryKey <;> cases hu : f.isUnique <;> simp [rowOf, hp, hu]

theorem shows_blockOf (e : Entity) : Block.Shows e (blockOf e) :=
  ⟨rfl, List.forall₂_map_right_iff.mpr (List.forall₂_same.mpr fun f _ => shows_rowOf f)⟩

theorem shows_linkOf (r : Entity × Relationship) : Link.Shows r (linkOf r) := ⟨rfl, rfl, rfl, rfl⟩

/-! ## 4. The lines of the diagram -/

theorem line_rowOf (f : EntityField) : (rowOf f).line = fieldLine f := by
  have hkey : (rowOf f).key.elim "" (fun k => " " ++ k.word) = keyMark f := by
    cases hp : f.isPrimaryKey <;> cases hu : f.isUnique <;>
      simp [rowOf, keyMark, hp, hu, KeyMark.word]
  rw [Row.line, hkey, rowOf, fieldLine]

theorem lines_blockOf (e : Entity) : (blockOf e).lines = blockLines e := by
  have hlines : (e.fields.map rowOf).map Row.line = e.fields.map fieldLine := by
    rw [List.map_map]
    exact List.map_congr_left fun f _ => line_rowOf f
  simp only [Block.lines, blockLines, blockOf, hlines, List.isEmpty_map]

theorem line_linkOf (e : Entity) (r : Relationship) :
    (linkOf (e, r)).line = relationshipLine e r := by
  simp [Link.line, linkOf, relationshipLine, quotedLabel, quotationMark]

/-- The diagram is the document of the blocks and links of what is drawn. -/
theorem lines_eq_document (entities : List Entity) :
    lines entities = document ((drawn entities).map blockOf)
      (((drawn entities).flatMap fun e => e.relationships.map (e, ·)).map linkOf) := by
  have hblocks : ((drawn entities).map blockOf).flatMap Block.lines =
      (drawn entities).flatMap blockLines := by
    rw [List.flatMap_map]
    exact List.flatMap_congr fun e _ => lines_blockOf e
  have hlinks : (((drawn entities).flatMap fun e => e.relationships.map (e, ·)).map linkOf).map
      Link.line = (drawn entities).flatMap fun e => e.relationships.map (relationshipLine e) := by
    simp only [List.map_flatMap, List.map_map]
    exact List.flatMap_congr fun e _ => List.map_congr_left fun r _ => line_linkOf e r
  rw [lines, document, hblocks, hlinks]

/-- What is drawn is drawn by its blocks and links. -/
theorem draws_drawn (entities : List Entity) :
    Draws entities ((drawn entities).map blockOf)
      (((drawn entities).flatMap fun e => e.relationships.map (e, ·)).map linkOf) where
  nodup_names := by
    have hnames : ((drawn entities).map blockOf).map (·.name) =
        (drawn entities).map fun e => identifier e.name := by
      rw [List.map_map]
      exact List.map_congr_left fun e _ => rfl
    rw [hnames]
    exact Order.nodup_map_distinctBy _ entities
  exists_block := by
    intro e he
    have hkey : identifier e.name ∈ (drawn entities).map fun e => identifier e.name :=
      (Order.mem_map_distinctBy _).mpr (List.mem_map_of_mem he)
    obtain ⟨d, hd, hname⟩ := List.mem_map.mp hkey
    exact ⟨blockOf d, List.mem_map_of_mem hd, hname⟩
  shown := by
    refine ⟨drawn entities, Order.distinctBy_sublist _ entities, ?_, ?_, ?_⟩
    · exact fun e he => Order.find?_of_mem_distinctBy he
    · exact List.forall₂_map_right_iff.mpr (List.forall₂_same.mpr fun e _ => shows_blockOf e)
    · exact List.forall₂_map_right_iff.mpr (List.forall₂_same.mpr fun r _ => shows_linkOf r)

/-- A label is on one line if the name that it is made of is. -/
theorem onOneLine_label {returns : Bool} {r : Entity × Relationship}
    (h : OnOneLine returns r.2.field) : OnOneLine returns (linkOf r).label := by
  intro c hc
  rw [linkOf, String.toList_ofList, replaceChar, List.mem_map] at hc
  obtain ⟨d, hd, rfl⟩ := hc
  split
  · cases returns <;> decide
  · exact h d hd

/-- **The diagram of entities follows its grammar**, if the names of the fields of relationships are
on one line: its lines are the header, blocks and links, and these draw the entities. -/
theorem text_follows_grammar {returns : Bool} {entities : List Entity}
    (h : ∀ e ∈ entities, ∀ r ∈ e.relationships, OnOneLine returns r.field) :
    ∃ blocks links, Draws entities blocks links ∧
      pieces (endsLine returns) (text entities).toList =
        (document blocks links).map String.toList ++ [[]] := by
  refine ⟨_, _, draws_drawn entities, ?_⟩
  rw [text, lines_eq_document]
  refine pieces_document _ fun l hl => ?_
  obtain ⟨⟨e, r⟩, hr, rfl⟩ := List.mem_map.mp hl
  obtain ⟨e, he, hr⟩ := List.mem_flatMap.mp hr
  obtain ⟨r, hr, ⟨⟩⟩ := List.mem_map.mp hr
  exact onOneLine_label (h e ((Order.distinctBy_sublist _ entities).subset he) r hr)

/-- Entities whose types and names are no identifiers: one of two under the same identifier, and one
without fields, with a quotation mark in the name of a field. -/
def shop : List Entity :=
  [{ (default : Entity) with
      name := "shop.User"
      fields := [⟨"id", "number", true, true, false⟩,
        ⟨"e-mail", "Map<string, User[]>", false, true, false⟩, ⟨"", " _ ", false, false, true⟩]
      relationships := [⟨.oneToMany, "Task", "tasks"⟩] },
    { (default : Entity) with name := "shop_User" },
    { (default : Entity) with
      name := "Tag"
      relationships := [⟨.manyToMany, "", .ofList ['b', quotationMark, 'y']⟩] }]

theorem text_follows_grammar_shop :
    (∀ e ∈ shop, ∀ r ∈ e.relationships, OnOneLine true r.field) ∧
      ∃ blocks links, Draws shop blocks links ∧
        pieces (endsLine true) (text shop).toList =
          (document blocks links).map String.toList ++ [[]] := by
  have h : ∀ e ∈ shop, ∀ r ∈ e.relationships, OnOneLine true r.field := by decide
  exact ⟨h, text_follows_grammar h⟩

example : (drawn shop).flatMap blockLines =
    ["    shop_User \x7b", "        number id PK", "        Map_string__User e_mail UK",
      "        unknown _", "    \x7d", "    Tag"] := by
  decide +kernel

end Codemap.Diagram.Entities
