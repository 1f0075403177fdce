/-
# Which names have blocks of their own

The diagrams of types and of entities draw a block for each name, from what is first declared under
it.  Blocks are told apart by identifiers, in which a character that may not stand there becomes an
underscore, so two names may come to the same block, and then the later declaration is not drawn.
The diagram of files has such names as well, and there the later one gets a number
(`Components.fresh_isFirstFree`).

A block is never empty, and how long it is does not depend on its label, so a diagram with one block
too few is too short, whatever labels are given (`eq_of_length_flatMap`).

Main statement: `drawsEach_iff`.  Each name has a block of its own exactly if no two names differ
only in characters that are neither letters nor digits.  The counterexample is two names that differ
in a dollar sign (`not_drawsEach_dollar`).
-/
import Codemap.Diagram.Entities
import Codemap.Proofs.Diagram.Options
import Codemap.Proofs.Text.Ends

namespace Codemap.Diagram

open Codemap.Text

/-! ## 1. One block for each name -/

section Draws

variable {α β : Type}

/-- After a header one block is written for each name, from the first item with that name, under a
label of its own. -/
def DrawsEach (header : β) (block : String → α → List β) (name : α → String) (items : List α)
    (written : List β) : Prop :=
  ∃ label : String → String,
    (∀ x ∈ items, ∀ y ∈ items, label (name x) = label (name y) → name x = name y) ∧
    written = header :: (Order.distinctBy name items).flatMap fun x => block (label (name x)) x

/-- No two names are alike. -/
def AreUnlike (name : α → String) (items : List α) : Prop :=
  ∀ x ∈ items, ∀ y ∈ items, Alike (name x) (name y) → name x = name y

/-- A part of a list is the whole if what is written for it is as long. -/
theorem eq_of_length_flatMap {f g : α → List β} {xs ys : List α} (h : xs.Sublist ys)
    (hfg : ∀ y, (f y).length = (g y).length) (hne : ∀ y, f y ≠ [])
    (hlen : (xs.flatMap f).length = (ys.flatMap g).length) : xs = ys := by
  induction h with
  | slnil => rfl
  | @cons xs ys y h ih =>
    -- What is written for the item that is left out would be missing.
    have hle := (List.Sublist.flatMap h f).length_le
    have hpos := List.length_pos_of_ne_nil (hne y)
    have hsame : (ys.flatMap f).length = (ys.flatMap g).length := by
      simp only [List.length_flatMap, hfg]
    rw [List.flatMap_cons, List.length_append, ← hfg y] at hlen
    omega
  | @cons_cons xs ys y h ih =>
    rw [List.flatMap_cons, List.flatMap_cons, List.length_append, List.length_append, hfg y] at hlen
    rw [ih (by omega)]

/-- Identifiers leave an item for each name exactly if no two names are alike. -/
theorem distinctBy_identifier_eq_iff (name : α → String) (items : List α) :
    Order.distinctBy (identifier ∘ name) items = Order.distinctBy name items ↔
      AreUnlike name items := by
  rw [Order.distinctBy_comp_eq_iff]
  simp only [identifier_eq_iff, AreUnlike]

/-- **Blocks under identifiers** are those of all names exactly if no two names are alike. -/
theorem drawsEach_identifier_iff {header : β} {block : String → α → List β} {name : α → String}
    {items : List α} (hlen : ∀ label label' x, (block label x).length = (block label' x).length)
    (hne : ∀ label x, block label x ≠ []) :
    DrawsEach header block name items
        (header :: (Order.distinctBy (identifier ∘ name) items).flatMap fun x =>
          block (identifier (name x)) x) ↔
      AreUnlike name items := by
  rw [← distinctBy_identifier_eq_iff]
  constructor
  · rintro ⟨label, -, hwritten⟩
    have hlength := congrArg List.length (List.cons.inj hwritten).2
    exact eq_of_length_flatMap (Order.distinctBy_comp_sublist identifier name items)
      (fun x => hlen (identifier (name x)) (label (name x)) x)
      (fun x => hne (identifier (name x)) x) hlength
  · intro h
    refine ⟨identifier, fun x hx y hy hxy => ?_, by rw [h]⟩
    exact (distinctBy_identifier_eq_iff name items).mp h x hx y hy (identifier_eq_iff.mp hxy)

end Draws

/-! ## 2. Types -/

namespace Types

variable {o : Options} {files : List FileFacts}

/-- The pieces of the block of a type under a label. -/
def blockUnder (o : Options) (label : String) (t : TypeDecl) : List Piece :=
  [.opening label] ++ ((stereotype? t).map Piece.stereotype).toList
    ++ ((t.properties.filter fun p => o.lists p.visibility).map fun p => .member (propertyText p))
    ++ ((t.methods.filter fun m => o.lists m.visibility).map fun m => .member (methodText m))
    ++ [.closing]

/-- The pieces of the diagram that are no arrows. -/
def blockPieces (o : Options) (files : List FileFacts) : List Piece :=
  (pieces o files).filter fun x => !x.isArrow

theorem blockPieces_eq (o : Options) (files : List FileFacts) :
    blockPieces o files = .header ::
      (Order.distinctBy (identifier ∘ TypeDecl.name) (files.flatMap (·.types))).flatMap fun t =>
        blockUnder o (identifier t.name) t := by
  have hblocks : ((drawn files).flatMap (block o)).filter (fun x => !x.isArrow) =
      (drawn files).flatMap (block o) := by
    rw [List.filter_eq_self]
    intro x hx
    simp [isArrow_of_mem_blocks hx]
  have harrows : (drawnArrows o files).filter (fun x => !x.isArrow) = [] := by
    rw [List.filter_eq_nil_iff]
    intro x hx
    simp [isArrow_of_mem_drawnArrows hx]
  rw [blockPieces, pieces_eq, List.filter_append, List.filter_cons_of_pos (by decide), hblocks,
    harrows, List.append_nil]
  rfl

/-- **Each type has a block of its own exactly if no two names of types are alike.** -/
theorem drawsEach_blockPieces_iff (o : Options) (files : List FileFacts) :
    DrawsEach .header (blockUnder o) TypeDecl.name (files.flatMap (·.types)) (blockPieces o files) ↔
      AreUnlike TypeDecl.name (files.flatMap (·.types)) := by
  rw [blockPieces_eq]
  refine drawsEach_identifier_iff ?_ ?_
  · intro label label' t
    simp [blockUnder]
  · intro label t
    simp [blockUnder]

end Types

/-! ## 3. Entities -/

namespace Entities

/-- The lines of an entity under a label. -/
def blockUnder (label : String) (e : Entity) : List String :=
  let name := indent ++ label
  if e.fields.isEmpty then [name]
  else (name ++ " \x7b") :: e.fields.map fieldLine ++ [indent ++ "\x7d"]

/-- A quotation mark, between which labels of relationships stand. -/
def quotationMark : Char := Char.ofNat 34

/-- The lines of the diagram that are not those of relationships. -/
def blockLinesOf (entities : List Entity) : List String :=
  (lines entities).filter fun l => !l.toList.contains quotationMark

theorem quotationMark_mem_relationshipLine (e : Entity) (r : Relationship) :
    quotationMark ∈ (relationshipLine e r).toList := by
  simp [relationshipLine, quotedLabel, quotationMark]

theorem quotationMark_not_mem_identifier (name : String) :
    quotationMark ∉ (identifier name).toList := fun h =>
  absurd ((isIdentifier_identifier name).2 _ h) (by decide)

theorem quotationMark_not_mem_typeWord (type : String) :
    quotationMark ∉ (typeWord type).toList := by
  intro h
  rw [typeWord] at h
  split at h
  · exact absurd h (by decide)
  · rw [String.toList_ofList] at h
    exact absurd (isIdentifierChar_of_mem_identifierChars (mem_of_mem_strip h)) (by decide)

theorem quotationMark_not_mem_fieldLine (f : EntityField) :
    quotationMark ∉ (fieldLine f).toList := by
  have hindent : quotationMark ∉ indent.toList := by decide
  have hblank : quotationMark ∉ " ".toList := by decide
  have hmark : quotationMark ∉ (keyMark f).toList := by
    rw [keyMark]
    split
    · decide
    · split <;> decide
  simp only [fieldLine, String.toList_append, List.mem_append, hindent, hblank, hmark,
    quotationMark_not_mem_typeWord, quotationMark_not_mem_identifier, or_self, not_false_eq_true]

/-- The lines of an entity hold no quotation mark. -/
theorem quotationMark_not_mem_blockLines {e : Entity} {l : String} (hl : l ∈ blockLines e) :
    quotationMark ∉ l.toList := by
  have hname : quotationMark ∉ (indent ++ identifier e.name).toList := by
    rw [String.toList_append, List.mem_append, not_or]
    exact ⟨by decide, quotationMark_not_mem_identifier e.name⟩
  unfold blockLines at hl
  split at hl
  · rwa [List.mem_singleton.mp hl]
  · rw [List.mem_append, List.mem_cons, List.mem_map, List.mem_singleton] at hl
    rcases hl with (rfl | ⟨f, -, rfl⟩) | rfl
    · rw [String.toList_append, List.mem_append, not_or]
      exact ⟨hname, by decide⟩
    · exact quotationMark_not_mem_fieldLine f
    · decide

theorem blockLinesOf_eq (entities : List Entity) :
    blockLinesOf entities = "erDiagram" ::
      (Order.distinctBy (identifier ∘ Entity.name) entities).flatMap fun e =>
        blockUnder (identifier e.name) e := by
  have hblocks : ((drawn entities).flatMap blockLines).filter
      (fun l => !l.toList.contains quotationMark) = (drawn entities).flatMap blockLines := by
    rw [List.filter_eq_self]
    intro l hl
    obtain ⟨e, -, hl⟩ := List.mem_flatMap.mp hl
    simp [quotationMark_not_mem_blockLines hl]
  have hrelationships : ((drawn entities).flatMap fun e =>
      e.relationships.map (relationshipLine e)).filter
        (fun l => !l.toList.contains quotationMark) = [] := by
    rw [List.filter_eq_nil_iff]
    intro l hl
    obtain ⟨e, -, hl⟩ := List.mem_flatMap.mp hl
    obtain ⟨r, -, rfl⟩ := List.mem_map.mp hl
    simp [quotationMark_mem_relationshipLine e r]
  rw [blockLinesOf, lines, List.filter_append, List.filter_cons_of_pos (by decide), hblocks,
    hrelationships, List.append_nil]
  rfl

/-- **Each entity has a block of its own exactly if no two names of entities are alike.** -/
theorem drawsEach_blockLinesOf_iff (entities : List Entity) :
    DrawsEach "erDiagram" blockUnder Entity.name entities (blockLinesOf entities) ↔
      AreUnlike Entity.name entities := by
  rw [blockLinesOf_eq]
  refine drawsEach_identifier_iff ?_ ?_
  · intro label label' e
    unfold blockUnder
    split <;> simp
  · intro label e
    unfold blockUnder
    split <;> simp

end Entities

/-! ## 4. Both diagrams -/

/-- **Each name has a block of its own exactly if no two names are alike**, in the diagram of types,
whatever its options, and in that of entities. -/
theorem drawsEach_iff (o : Types.Options) (files : List FileFacts) (entities : List Entity) :
    (DrawsEach .header (Types.blockUnder o) TypeDecl.name (files.flatMap (·.types))
        (Types.blockPieces o files) ↔
      AreUnlike TypeDecl.name (files.flatMap (·.types))) ∧
    (DrawsEach "erDiagram" Entities.blockUnder Entity.name entities
        (Entities.blockLinesOf entities) ↔
      AreUnlike Entity.name entities) :=
  ⟨Types.drawsEach_blockPieces_iff o files, Entities.drawsEach_blockLinesOf_iff entities⟩

/-- A file with two classes whose names differ in a dollar sign only. -/
def dollarFile : FileFacts :=
  { FileFacts.empty "src/cart.ts" .typescript with
    types := [.bare "Cart$" .classType default, .bare "Cart_" .classType default] }

/-- Two entities with such names. -/
def dollarEntities : List Entity :=
  [{ (default : Entity) with name := "Cart$" }, { (default : Entity) with name := "Cart_" }]

/-- A dollar sign may not stand in an identifier, and an underscore takes its place. -/
theorem not_areUnlike_dollar {α : Type} {name : α → String} {items : List α} {x y : α}
    (hx : x ∈ items) (hy : y ∈ items) (hdollar : name x = "Cart$")
    (hunderscore : name y = "Cart_") : ¬ AreUnlike name items := by
  intro h
  have hsame := h x hx y hy (hdollar ▸ hunderscore ▸ identifier_eq_iff.mp (by decide))
  rw [hdollar, hunderscore] at hsame
  exact absurd hsame (by decide)

/-- **Of two names that differ in a dollar sign only, one is lost**, from either diagram. -/
theorem not_drawsEach_dollar :
    (¬ DrawsEach .header (Types.blockUnder .default) TypeDecl.name
        ([dollarFile].flatMap (·.types)) (Types.blockPieces .default [dollarFile])) ∧
      ¬ DrawsEach "erDiagram" Entities.blockUnder Entity.name dollarEntities
        (Entities.blockLinesOf dollarEntities) := by
  constructor
  · rw [Types.drawsEach_blockPieces_iff]
    exact not_areUnlike_dollar (x := .bare "Cart$" .classType default)
      (y := .bare "Cart_" .classType default) (by simp [dollarFile]) (by simp [dollarFile]) rfl rfl
  · rw [Entities.drawsEach_blockLinesOf_iff]
    exact not_areUnlike_dollar (x := { (default : Entity) with name := "Cart$" })
      (y := { (default : Entity) with name := "Cart_" }) (by simp [dollarEntities])
      (by simp [dollarEntities]) rfl rfl

end Codemap.Diagram
