/-
# Every fact stands at a node of its file

Each reader of facts makes the locations of its facts by itself: from the node that it reads, from
the decorated definition around that, from the list of the parameters, or from the statement that
lists the exports.  Whichever it is, it is a node of the tree that is read, and the path is that of
the file (`Location.StandsIn`).  Readers only move down from places that a walk of the tree visits,
or up to the parents of such places, and so they do not leave the tree.

Types are put together member by member; what each step keeps is that the type and all of its
members stand at nodes of the tree (`TypeDecl.Located`).

Main statement: `standsIn_of_mem_locations`, on all locations among the facts about a file.
-/
import Codemap.Proofs.Facts.Data
import Codemap.Proofs.Facts.Places
import Codemap.Proofs.Syntax.Walk

namespace Codemap

open Codemap.Syntax

variable {path : String} {tree : Node}

/-! ## 1. Where facts stand -/

/-- The location is that of a node of a tree in the file at `path`. -/
def Location.StandsIn (l : Location) (path : String) (tree : Node) : Prop :=
  ∃ n ∈ tree.preorder, l = .ofSpan path n.span

theorem standsIn_of_mem_preorder {n : Node} (h : n ∈ tree.preorder) :
    (Location.ofSpan path n.span).StandsIn path tree := ⟨n, h, rfl⟩

theorem standsIn_of_mem_walk {c : Cursor} (h : c ∈ (Cursor.top tree).walk) :
    (Location.ofSpan path c.node.span).StandsIn path tree :=
  standsIn_of_mem_preorder (Cursor.node_mem_preorder h)

namespace TypeDecl

variable {t t' : TypeDecl}

/-- A type and all of its members stand at nodes of a tree. -/
structure Located (t : TypeDecl) (path : String) (tree : Node) : Prop where
  location : t.location.StandsIn path tree
  methods : ∀ m ∈ t.methods, m.function.location.StandsIn path tree
  properties : ∀ p ∈ t.properties, p.location.StandsIn path tree

/-- A type without members stands where it is declared. -/
theorem located_of_bare (hlocation : t.location.StandsIn path tree) (hmethods : t.methods = [])
    (hproperties : t.properties = []) : t.Located path tree where
  location := hlocation
  methods := by simp [hmethods]
  properties := by simp [hproperties]

theorem Located.congr (h : t.Located path tree) (hlocation : t'.location = t.location)
    (hmethods : t'.methods = t.methods) (hproperties : t'.properties = t.properties) :
    t'.Located path tree where
  location := hlocation ▸ h.location
  methods := hmethods ▸ h.methods
  properties := hproperties ▸ h.properties

theorem Located.addMethod (h : t.Located path tree) {m : Method}
    (hm : m.function.location.StandsIn path tree) :
    { t with methods := t.methods ++ [m] }.Located path tree where
  location := h.location
  methods := List.forall_mem_append.mpr ⟨h.methods, List.forall_mem_singleton.mpr hm⟩
  properties := h.properties

theorem Located.addProperties (h : t.Located path tree) {ps : List Property}
    (hps : ∀ p ∈ ps, p.location.StandsIn path tree) :
    { t with properties := t.properties ++ ps }.Located path tree where
  location := h.location
  methods := h.methods
  properties := List.forall_mem_append.mpr ⟨h.properties, hps⟩

/-- What each step of a fold keeps located stays located. -/
theorem Located.foldl {α : Type} {g : TypeDecl → α → TypeDecl} {xs : List α}
    (h : t.Located path tree)
    (hg : ∀ t : TypeDecl, t.Located path tree → ∀ a ∈ xs, (g t a).Located path tree) :
    (xs.foldl g t).Located path tree :=
  List.foldlRecOn xs g h hg

theorem Located.standsIn (h : t.Located path tree) {l : Location} (hl : l ∈ t.locations) :
    l.StandsIn path tree := by
  rcases List.mem_append.mp hl with hl | hl
  · rcases List.mem_cons.mp hl with rfl | hl
    · exact h.location
    · obtain ⟨m, hm, rfl⟩ := List.mem_map.mp hl
      exact h.methods m hm
  · obtain ⟨p, hp, rfl⟩ := List.mem_map.mp hl
    exact h.properties p hp

end TypeDecl

namespace Facts

open TypeDecl

variable {c : Cursor} {n : Node} {t : TypeDecl} {f : Function} {i : Import} {e : Export}
  {p : Property}

/-! ## 2. ECMAScript -/

namespace EcmaScript

theorem standsIn_of_mem_functions (h : f ∈ functions path tree) :
    f.location.StandsIn path tree := by
  obtain ⟨c, hc, h⟩ := List.mem_filterMap.mp h
  obtain ⟨name, -, rfl⟩ := Option.map_eq_some_iff.mp h
  exact standsIn_of_mem_walk hc

theorem location_fieldProperty (h : fieldProperty? path n = some p) :
    p.location = .ofSpan path n.span := by
  obtain ⟨name, -, rfl⟩ := Option.map_eq_some_iff.mp h
  rfl

theorem location_parameterProperty (h : parameterProperty? path n = some p) :
    p.location = .ofSpan path n.span := by
  simp only [parameterProperty?, Option.bind_eq_bind] at h
  split at h
  · exact absurd h (by simp)
  · split at h
    · exact absurd h (by simp)
    · obtain ⟨pattern, -, h⟩ := Option.bind_eq_some_iff.mp h
      obtain rfl := Option.some.inj h
      rfl

theorem standsIn_of_mem_parameterProperties (hn : n ∈ tree.preorder)
    (h : p ∈ parameterProperties path n) : p.location.StandsIn path tree := by
  rw [parameterProperties] at h
  split at h
  next list hlist =>
    obtain ⟨d, hd, hp⟩ := List.mem_filterMap.mp h
    have hlist := Node.mem_preorder_of_field? hn hlist
    rw [location_parameterProperty hp]
    exact standsIn_of_mem_preorder (Node.mem_preorder_of_mem_namedChildren hlist hd)
  next => exact absurd h List.not_mem_nil

theorem located_addMember (hc : c ∈ (Cursor.top tree).walk) (h : t.Located path tree) :
    (addMember path t c).Located path tree := by
  have hplace : (Location.ofSpan path c.node.span).StandsIn path tree := standsIn_of_mem_walk hc
  have hfield : ∀ p ∈ (fieldProperty? path c.node).toList, p.location.StandsIn path tree := by
    intro p hp
    rw [location_fieldProperty (Option.mem_toList.mp hp)]
    exact hplace
  rw [addMember]
  split
  · refine (h.addMethod hplace).addProperties fun p hp => ?_
    split at hp
    · exact standsIn_of_mem_parameterProperties (Cursor.node_mem_preorder hc) hp
    · exact absurd hp List.not_mem_nil
  · exact h.addMethod hplace
  · exact h.addProperties hfield
  · exact h.addProperties hfield
  · exact h

theorem located_addSignature (hc : c ∈ (Cursor.top tree).walk) (h : t.Located path tree) :
    (addSignature path t c).Located path tree := by
  have hplace : (Location.ofSpan path c.node.span).StandsIn path tree := standsIn_of_mem_walk hc
  rw [addSignature]
  split
  · split
    · exact h.addProperties (List.forall_mem_singleton.mpr hplace)
    · exact h
  · exact h.addMethod hplace
  · exact h

theorem located_typeShell (hc : c ∈ (Cursor.top tree).walk) (name : String) (kind : TypeKind) :
    (typeShell path c name kind).Located path tree :=
  located_of_bare (standsIn_of_mem_walk hc) rfl rfl

theorem located_classType (hc : c ∈ (Cursor.top tree).walk) (name : String) :
    (classType path c name).Located path tree := by
  have hshell : (typeShell path c name .classType).Located path tree := located_typeShell hc _ _
  simp only [classType]
  split
  next body hbody =>
    have hbody := Cursor.mem_walk_of_field? hc hbody
    refine Located.foldl (hshell.congr rfl rfl rfl) fun t ht d hd => ?_
    exact located_addMember (Cursor.mem_walk_of_mem_namedChildren hbody hd) ht
  next => exact hshell.congr rfl rfl rfl

/-- A type stays located when the signatures of a visited body are added. -/
theorem located_foldl_addSignature (hc : c ∈ (Cursor.top tree).walk) (h : t.Located path tree) :
    (c.namedChildren.foldl (addSignature path) t).Located path tree :=
  h.foldl fun _ ht _ hd => located_addSignature (Cursor.mem_walk_of_mem_namedChildren hc hd) ht

theorem located_interfaceType (hc : c ∈ (Cursor.top tree).walk) :
    (interfaceType path c).Located path tree := by
  have hshell : (typeShell path c (declaredName c.node) .interfaceType).Located path tree :=
    located_typeShell hc _ _
  simp only [interfaceType]
  split
  next body hbody =>
    have hbody := Cursor.mem_walk_of_field? hc hbody
    exact located_foldl_addSignature hbody (hshell.congr rfl rfl rfl)
  next => exact hshell.congr rfl rfl rfl

theorem located_aliasType (hc : c ∈ (Cursor.top tree).walk) :
    (aliasType path c).Located path tree := by
  have hshell : (typeShell path c (declaredName c.node) .aliasType).Located path tree :=
    located_typeShell hc _ _
  rw [aliasType]
  split
  next value hvalue =>
    have hvalue := Cursor.mem_walk_of_field? hc hvalue
    split
    · exact located_foldl_addSignature hvalue hshell
    · exact hshell
  next => exact hshell

theorem located_enumType (hc : c ∈ (Cursor.top tree).walk) :
    (enumType path c).Located path tree := by
  have hshell : (typeShell path c (declaredName c.node) .enumType).Located path tree :=
    located_typeShell hc _ _
  rw [enumType]
  split
  next body hbody =>
    have hbody := Node.mem_preorder_of_field? (Cursor.node_mem_preorder hc) hbody
    refine ⟨hshell.location, hshell.methods, fun p hp => ?_⟩
    obtain ⟨d, hd, hp⟩ := List.mem_filterMap.mp hp
    obtain ⟨name, -, rfl⟩ := Option.map_eq_some_iff.mp hp
    exact standsIn_of_mem_preorder (Node.mem_preorder_of_mem_namedChildren hbody hd)
  next => exact hshell

theorem located_typeAt (hc : c ∈ (Cursor.top tree).walk) (h : typeAt? path c = some t) :
    t.Located path tree := by
  rw [typeAt?] at h
  split at h
  · exact Option.some.inj h ▸ located_classType hc _
  · exact Option.some.inj h ▸ located_classType hc _
  · obtain ⟨name, -, rfl⟩ := Option.map_eq_some_iff.mp h
    exact located_classType hc name
  · exact Option.some.inj h ▸ located_interfaceType hc
  · exact Option.some.inj h ▸ located_enumType hc
  · exact Option.some.inj h ▸ located_aliasType hc
  · exact absurd h.symm (Option.some_ne_none t)

/-- Whether a type is exported does not matter for where it stands. -/
theorem located_settleExport (listed : List String) (h : t.Located path tree) :
    (settleExport listed t).Located path tree where
  location := h.location
  methods m hm := by
    obtain ⟨g, hg, rfl⟩ := List.mem_map.mp hm
    exact h.methods g hg
  properties := h.properties

theorem located_of_mem_types (h : t ∈ types path tree) : t.Located path tree := by
  obtain ⟨c, hc, h⟩ := List.mem_filterMap.mp h
  obtain ⟨s, hs, rfl⟩ := Option.map_eq_some_iff.mp h
  exact located_settleExport _ (located_typeAt hc hs)

theorem location_statementImport (h : statementImport? path n = some i) :
    i.location = .ofSpan path n.span := by
  obtain ⟨source, -, h⟩ := Option.bind_eq_some_iff.mp h
  obtain rfl := Option.some.inj h
  rfl

theorem location_dynamicImport (h : dynamicImport? path n = some i) :
    i.location = .ofSpan path n.span := by
  obtain ⟨function, -, h⟩ := Option.bind_eq_some_iff.mp h
  dsimp only at h
  split at h
  · exact absurd h (by simp)
  · obtain ⟨source, -, h⟩ := Option.bind_eq_some_iff.mp h
    obtain rfl := Option.some.inj h
    rfl

theorem location_requireImport (h : requireImport? path c = some i) :
    i.location = .ofSpan path c.node.span := by
  simp only [requireImport?, Option.bind_eq_bind] at h
  obtain ⟨function, -, h⟩ := Option.bind_eq_some_iff.mp h
  split at h
  · exact absurd h (by simp)
  · obtain ⟨arguments, -, h⟩ := Option.bind_eq_some_iff.mp h
    split at h
    · exact absurd h (by simp)
    · obtain ⟨first, -, h⟩ := Option.bind_eq_some_iff.mp h
      split at h
      · exact absurd h (by simp)
      · obtain rfl := Option.some.inj h
        rfl

theorem standsIn_of_mem_imports (h : i ∈ imports path tree) : i.location.StandsIn path tree := by
  rcases List.mem_append.mp (List.mem_mergeSort.mp h) with h | h
  · obtain ⟨c, hc, h⟩ := List.mem_filterMap.mp h
    split at h
    · rw [location_statementImport h]
      exact standsIn_of_mem_walk hc
    · rw [location_dynamicImport h]
      exact standsIn_of_mem_walk hc
    · exact absurd h.symm (Option.some_ne_none i)
  · obtain ⟨c, hc, h⟩ := List.mem_filterMap.mp h
    split at h
    · rw [location_requireImport h]
      exact standsIn_of_mem_walk hc
    · exact absurd h.symm (Option.some_ne_none i)

theorem location_assignmentExport (h : assignmentExport? path n = some e) :
    e.location = .ofSpan path n.span := by
  obtain ⟨left, -, h⟩ := Option.bind_eq_some_iff.mp h
  dsimp only at h
  split at h
  · exact absurd h (by simp)
  · split at h
    · obtain ⟨bindings, -, h⟩ := Option.bind_eq_some_iff.mp h
      exact Option.some.inj h ▸ rfl
    · exact Option.some.inj h ▸ rfl

theorem standsIn_of_mem_exports (h : e ∈ exports path tree) : e.location.StandsIn path tree := by
  obtain ⟨c, hc, h⟩ := List.mem_filterMap.mp h
  split at h
  · obtain rfl := Option.some.inj h
    exact standsIn_of_mem_walk hc
  · rw [location_assignmentExport h]
    exact standsIn_of_mem_walk hc
  · exact absurd h.symm (Option.some_ne_none e)

end EcmaScript

/-! ## 3. Java -/

namespace Java

theorem standsIn_of_mem_fieldProperties (hn : n ∈ tree.preorder)
    (h : p ∈ fieldProperties path t n) : p.location.StandsIn path tree := by
  obtain ⟨d, -, hp⟩ := List.mem_filterMap.mp h
  obtain ⟨name, -, rfl⟩ := Option.map_eq_some_iff.mp hp
  exact standsIn_of_mem_preorder hn

/-- The components of a record stand where the list of them does. -/
theorem standsIn_of_mem_componentProperties (hn : n ∈ tree.preorder)
    (h : p ∈ componentProperties path n) : p.location.StandsIn path tree := by
  rw [componentProperties] at h
  split at h
  · split at h
    next list hlist =>
      obtain ⟨d, -, rfl⟩ := List.mem_map.mp h
      exact standsIn_of_mem_preorder (Node.mem_preorder_of_field? hn hlist)
    next => exact absurd h List.not_mem_nil
  · exact absurd h List.not_mem_nil

theorem located_addMember (hc : c ∈ (Cursor.top tree).walk) (h : t.Located path tree) :
    (addMember path t c).Located path tree := by
  have hplace : (Location.ofSpan path c.node.span).StandsIn path tree := standsIn_of_mem_walk hc
  have hfields : ∀ p ∈ fieldProperties path t c.node, p.location.StandsIn path tree :=
    fun p hp => standsIn_of_mem_fieldProperties (Cursor.node_mem_preorder hc) hp
  rw [addMember]
  split
  · split
    · exact h.addProperties (List.forall_mem_singleton.mpr hplace)
    · exact h
  · exact h.addMethod hplace
  · exact h.addMethod hplace
  · exact h.addProperties hfields
  · exact h.addProperties hfields
  · exact h

theorem mem_walk_of_mem_bodyMembers {d : Cursor} (hc : c ∈ (Cursor.top tree).walk)
    (hd : d ∈ bodyMembers c) : d ∈ (Cursor.top tree).walk := by
  rcases List.mem_append.mp hd with hd | hd
  · exact Cursor.mem_walk_of_mem_namedChildren hc hd
  · split at hd
    next part hpart =>
      have hpart := Cursor.mem_walk_of_mem_children hc (List.mem_of_find?_eq_some hpart)
      exact Cursor.mem_walk_of_mem_namedChildren hpart hd
    next => exact absurd hd List.not_mem_nil

theorem located_typeAt (hc : c ∈ (Cursor.top tree).walk) (h : typeAt? path c = some t) :
    t.Located path tree := by
  have hplace : (Location.ofSpan path c.node.span).StandsIn path tree := standsIn_of_mem_walk hc
  have hcomponents : ∀ p ∈ componentProperties path c.node, p.location.StandsIn path tree :=
    fun p hp => standsIn_of_mem_componentProperties (Cursor.node_mem_preorder hc) hp
  rw [typeAt?] at h
  split at h
  · obtain ⟨name, -, rfl⟩ := Option.map_eq_some_iff.mp h
    dsimp only
    split
    next body hbody =>
      have hbody := Cursor.mem_walk_of_field? hc hbody
      refine Located.foldl ⟨hplace, List.forall_mem_nil _, hcomponents⟩ fun t ht d hd => ?_
      exact located_addMember (mem_walk_of_mem_bodyMembers hbody hd) ht
    next => exact ⟨hplace, List.forall_mem_nil _, hcomponents⟩
  · exact absurd h.symm (Option.some_ne_none t)

theorem located_of_mem_types (h : t ∈ types path tree) : t.Located path tree := by
  obtain ⟨c, hc, h⟩ := List.mem_filterMap.mp h
  exact located_typeAt hc h

theorem standsIn_of_mem_imports (h : i ∈ imports path tree) : i.location.StandsIn path tree := by
  obtain ⟨n, hn, h⟩ := List.mem_filterMap.mp h
  simp only [import?, Option.bind_eq_bind] at h
  split at h
  · exact absurd h (by simp)
  · obtain ⟨name, -, h⟩ := Option.bind_eq_some_iff.mp h
    obtain rfl := Option.some.inj h
    exact standsIn_of_mem_preorder hn

theorem standsIn_of_mem_exports (h : e ∈ exports path tree) : e.location.StandsIn path tree := by
  obtain ⟨n, hn, h⟩ := List.mem_filterMap.mp h
  have hn := Node.mem_preorder_of_mem_namedChildren tree.self_mem_preorder hn
  split at h
  · obtain ⟨name, -, rfl⟩ := Option.map_eq_some_iff.mp h
    exact standsIn_of_mem_preorder hn
  · exact absurd h.symm (Option.some_ne_none e)

end Java

/-! ## 4. Python -/

namespace Python

/-- A definition and its decorators are visited together. -/
theorem mem_walk_outerDefinition (hc : c ∈ (Cursor.top tree).walk) :
    outerDefinition c ∈ (Cursor.top tree).walk := by
  rw [outerDefinition]
  split
  next parent hparent =>
    split
    · exact Cursor.mem_walk_of_parent hc hparent
    · exact hc
  next => exact hc

theorem standsIn_function (hc : c ∈ (Cursor.top tree).walk) (qualifiedName : String)
    (isExported dropsReceiver : Bool) :
    (function path c qualifiedName isExported dropsReceiver).location.StandsIn path tree :=
  standsIn_of_mem_walk (mem_walk_outerDefinition hc)

theorem standsIn_of_mem_functions (h : f ∈ functions path tree) :
    f.location.StandsIn path tree := by
  obtain ⟨c, hc, h⟩ := List.mem_filterMap.mp h
  simp only [freeFunction?, Option.bind_eq_bind] at h
  split at h
  · exact absurd h (by simp)
  · obtain ⟨name, -, h⟩ := Option.bind_eq_some_iff.mp h
    exact Option.some.inj h ▸ standsIn_function hc _ _ _

theorem located_addBase (argument : Node) (h : t.Located path tree) :
    (addBase t argument).Located path tree := by
  obtain ⟨-, hmethods, hproperties, hlocation⟩ := addBase_keeps t argument
  exact h.congr hlocation hmethods hproperties

theorem located_bases (arguments : Option Node) (h : t.Located path tree) :
    (match arguments with
      | some list => list.namedChildren.foldl addBase t
      | none => t).Located path tree := by
  cases arguments with
  | none => exact h
  | some list => exact h.foldl fun _ ht argument _ => located_addBase argument ht

theorem location_classProperty {kind : TypeKind} (h : classProperty? path kind n = some p) :
    p.location = .ofSpan path n.span := by
  simp only [classProperty?, Option.bind_eq_bind] at h
  obtain ⟨assignment, -, h⟩ := Option.bind_eq_some_iff.mp h
  obtain ⟨left, -, h⟩ := Option.bind_eq_some_iff.mp h
  split at h
  · exact absurd h (by simp)
  · split at h
    · exact absurd h (by simp)
    · obtain rfl := Option.some.inj h
      rfl

theorem location_instanceProperty (h : instanceProperty? path n = some p) :
    p.location = .ofSpan path n.span := by
  simp only [instanceProperty?, Option.bind_eq_bind] at h
  split at h
  · exact absurd h (by simp)
  · obtain ⟨left, -, h⟩ := Option.bind_eq_some_iff.mp h
    split at h
    · exact absurd h (by simp)
    · obtain ⟨name, -, h⟩ := Option.bind_eq_some_iff.mp h
      obtain rfl := Option.some.inj h
      rfl

theorem standsIn_of_mem_instanceProperties (hn : n ∈ tree.preorder)
    (h : p ∈ instanceProperties path n) : p.location.StandsIn path tree := by
  rw [instanceProperties] at h
  split at h
  next body hbody =>
    obtain ⟨d, hd, hp⟩ := List.mem_filterMap.mp h
    rw [location_instanceProperty hp]
    exact standsIn_of_mem_preorder
      (Node.mem_preorder_of_mem_preorder (Node.mem_preorder_of_field? hn hbody) hd)
  next => exact absurd h List.not_mem_nil

theorem located_addProperty (hp : p.location.StandsIn path tree) (h : t.Located path tree) :
    (addProperty t p).Located path tree := by
  rw [addProperty]
  split
  · exact h
  · exact h.addProperties (List.forall_mem_singleton.mpr hp)

theorem located_addMethod (hc : c ∈ (Cursor.top tree).walk) (h : t.Located path tree) :
    (addMethod path t c).Located path tree := by
  have hmethod : (method path t.name t.isExported c).function.location.StandsIn path tree :=
    standsIn_function hc _ _ _
  rw [addMethod]
  refine Located.addMethod ?_ hmethod
  split
  · -- a constructor brings the properties that its body assigns
    refine Located.foldl (h.congr rfl rfl rfl) fun t ht p hp => ?_
    have hp := standsIn_of_mem_instanceProperties (Cursor.node_mem_preorder hc) hp
    exact located_addProperty hp ht
  · exact h.congr rfl rfl rfl

theorem located_addStatement (hc : c ∈ (Cursor.top tree).walk) (h : t.Located path tree) :
    (addStatement path t c).Located path tree := by
  rw [addStatement]
  split
  · exact located_addMethod hc h
  · split
    next d hd =>
      split
      · exact located_addMethod (Cursor.mem_walk_of_field? hc hd) h
      · exact h
    next => exact h
  · split
    next p hp =>
      refine located_addProperty ?_ h
      rw [location_classProperty hp]
      exact standsIn_of_mem_walk hc
    next => exact h
  · exact h

theorem located_classType {listed : Option (List String)} (hc : c ∈ (Cursor.top tree).walk)
    (h : classType? path listed c = some t) : t.Located path tree := by
  simp only [classType?, Option.bind_eq_bind] at h
  split at h
  · exact absurd h (by simp)
  · obtain ⟨name, -, h⟩ := Option.bind_eq_some_iff.mp h
    obtain rfl := Option.some.inj h
    have hplace : (Location.ofSpan path (outerDefinition c).node.span).StandsIn path tree :=
      standsIn_of_mem_walk (mem_walk_outerDefinition hc)
    split
    next body hbody =>
      have hbody := Cursor.mem_walk_of_field? hc hbody
      refine Located.foldl (located_bases _ (located_of_bare hplace rfl rfl)) fun t ht d hd => ?_
      exact located_addStatement (Cursor.mem_walk_of_mem_namedChildren hbody hd) ht
    next => exact located_bases _ (located_of_bare hplace rfl rfl)

theorem located_of_mem_types (h : t ∈ types path tree) : t.Located path tree := by
  obtain ⟨c, hc, h⟩ := List.mem_filterMap.mp h
  exact located_classType hc h

theorem standsIn_of_mem_importsAt (hn : n ∈ tree.preorder) (h : i ∈ importsAt path n) :
    i.location.StandsIn path tree := by
  have hplace : (Location.ofSpan path n.span).StandsIn path tree := standsIn_of_mem_preorder hn
  simp only [importsAt] at h
  split at h
  · obtain ⟨b, -, rfl⟩ := List.mem_map.mp h
    exact hplace
  · split at h
    · obtain rfl := List.mem_singleton.mp h
      exact hplace
    · exact absurd h List.not_mem_nil
  · exact absurd h List.not_mem_nil

theorem standsIn_of_mem_imports (h : i ∈ imports path tree) : i.location.StandsIn path tree := by
  obtain ⟨c, hc, h⟩ := List.mem_flatMap.mp (List.mem_mergeSort.mp h)
  exact standsIn_of_mem_importsAt (Cursor.node_mem_preorder hc) h

theorem mem_namedChildren_of_exportList {names : List String}
    (h : exportList? tree = some (n, names)) : n ∈ tree.namedChildren := by
  obtain ⟨stmt, hstmt, h⟩ := List.exists_of_findSome?_eq_some h
  simp only [Option.bind_eq_bind] at h
  split at h
  · exact absurd h (by simp)
  · obtain ⟨assignment, -, h⟩ := Option.bind_eq_some_iff.mp h
    split at h
    · exact absurd h (by simp)
    · obtain ⟨rfl, -⟩ := Prod.mk.inj (Option.some.inj h)
      exact hstmt

theorem standsIn_of_mem_exports (h : e ∈ exports path tree) : e.location.StandsIn path tree := by
  rw [exports] at h
  split at h
  next stmt names hlist =>
    obtain rfl := List.mem_singleton.mp h
    have hstmt := mem_namedChildren_of_exportList hlist
    exact standsIn_of_mem_preorder
      (Node.mem_preorder_of_mem_namedChildren tree.self_mem_preorder hstmt)
  next => exact absurd h List.not_mem_nil

end Python

/-! ## 5. Go -/

namespace Go

variable {s : Spec} {ts : List TypeDecl}

theorem mem_walk_of_mem_declarations (hc : c ∈ (Cursor.top tree).namedChildren) :
    c ∈ (Cursor.top tree).walk :=
  Cursor.mem_walk_of_mem_namedChildren (Cursor.top_mem_walk tree) hc

theorem standsIn_of_mem_functions (h : f ∈ functions path tree) :
    f.location.StandsIn path tree := by
  obtain ⟨c, hc, h⟩ := List.mem_filterMap.mp h
  have hc := mem_walk_of_mem_declarations hc
  simp only [freeFunction?, Option.bind_eq_bind] at h
  obtain ⟨name, -, h⟩ := Option.bind_eq_some_iff.mp h
  split at h
  · exact Option.some.inj h ▸ standsIn_of_mem_walk hc
  · obtain ⟨r, -, h⟩ := Option.bind_eq_some_iff.mp h
    split at h
    · exact absurd h.symm (Option.some_ne_none f)
    · exact Option.some.inj h ▸ standsIn_of_mem_walk hc
  · exact absurd h.symm (Option.some_ne_none f)

/-- A type that is specified has its place and its type in the tree. -/
theorem mem_walk_of_mem_specs (h : s ∈ specs tree) :
    s.place ∈ (Cursor.top tree).walk ∧ s.place.node.field? "type" = some s.type := by
  obtain ⟨declaration, hdeclaration, h⟩ := List.mem_flatMap.mp h
  split at h
  · obtain ⟨c, hc, h⟩ := List.mem_filterMap.mp h
    have hc := Cursor.mem_walk_of_mem_namedChildren (mem_walk_of_mem_declarations hdeclaration) hc
    simp only [spec?, Option.bind_eq_bind] at h
    split at h
    · exact absurd h (by simp)
    · obtain ⟨name, -, h⟩ := Option.bind_eq_some_iff.mp h
      obtain ⟨type, htype, h⟩ := Option.bind_eq_some_iff.mp h
      obtain rfl := Option.some.inj h
      exact ⟨hc, htype⟩
  · exact absurd h List.not_mem_nil

theorem located_addField (hn : n ∈ tree.preorder) (h : t.Located path tree) :
    (addField path t n).Located path tree := by
  rw [addField]
  split
  · dsimp only
    split
    · exact h.congr rfl rfl rfl
    · refine h.addProperties fun p hp => ?_
      obtain ⟨name, -, rfl⟩ := List.mem_map.mp hp
      exact standsIn_of_mem_preorder hn
  · exact h

theorem located_addElement (hc : c ∈ (Cursor.top tree).walk) (h : t.Located path tree) :
    (addElement path t c).Located path tree := by
  rw [addElement]
  split
  · split
    · exact h.addMethod (standsIn_of_mem_walk hc)
    · exact h
  · split
    · exact h.congr rfl rfl rfl
    · exact h

theorem located_typeOfSpec (hs : s ∈ specs tree) : (typeOfSpec path s).Located path tree := by
  obtain ⟨hplace, htype⟩ := mem_walk_of_mem_specs hs
  have htype := Node.mem_preorder_of_field? (Cursor.node_mem_preorder hplace) htype
  have hlocation : (Location.ofSpan path s.place.node.span).StandsIn path tree :=
    standsIn_of_mem_walk hplace
  simp only [typeOfSpec]
  split
  · split
    next fields hfields =>
      have hfields := Node.mem_preorder_of_mem_children htype (List.mem_of_find?_eq_some hfields)
      refine Located.foldl (located_of_bare hlocation rfl rfl) fun t ht n hn => ?_
      exact located_addField (Node.mem_preorder_of_mem_namedChildren hfields hn) ht
    next => exact located_of_bare hlocation rfl rfl
  · split
    next type htype =>
      have htype := Cursor.mem_walk_of_field? hplace htype
      refine Located.foldl (located_of_bare hlocation rfl rfl) fun t ht c hc => ?_
      exact located_addElement (Cursor.mem_walk_of_mem_namedChildren htype hc) ht
    next => exact located_of_bare hlocation rfl rfl
  · exact located_of_bare hlocation rfl rfl

theorem located_attach {name : String} {m : Method}
    (hm : m.function.location.StandsIn path tree) (h : ∀ t ∈ ts, t.Located path tree) :
    ∀ t ∈ attach name m ts, t.Located path tree := by
  induction ts with
  | nil => exact h
  | cons s ts ih =>
    obtain ⟨hs, hts⟩ := List.forall_mem_cons.mp h
    rw [attach]
    split
    · exact List.forall_mem_cons.mpr ⟨hs.addMethod hm, hts⟩
    · exact List.forall_mem_cons.mpr ⟨hs, ih hts⟩

theorem located_attachMethod (hc : c ∈ (Cursor.top tree).walk) (h : ∀ t ∈ ts, t.Located path tree) :
    ∀ t ∈ attachMethod path ts c, t.Located path tree := by
  rw [attachMethod]
  split
  · split
    · exact located_attach (standsIn_of_mem_walk hc) h
    · exact h
  · exact h

theorem located_of_mem_types (h : t ∈ types path tree) : t.Located path tree := by
  refine List.foldlRecOn (motive := fun ts => ∀ t ∈ ts, t.Located path tree) _ _ ?_ ?_ t h
  · intro t ht
    obtain ⟨s, hs, rfl⟩ := List.mem_map.mp ht
    exact located_typeOfSpec hs
  · exact fun ts hts c hc => located_attachMethod (mem_walk_of_mem_declarations hc) hts

theorem standsIn_of_mem_imports (h : i ∈ imports path tree) : i.location.StandsIn path tree := by
  obtain ⟨n, hn, h⟩ := List.mem_filterMap.mp h
  rw [import?] at h
  split at h
  · obtain ⟨literal, -, rfl⟩ := Option.map_eq_some_iff.mp h
    exact standsIn_of_mem_preorder hn
  · exact absurd h.symm (Option.some_ne_none i)

theorem location_export {name : String} (h : export? path name n = some e) :
    e.location = .ofSpan path n.span := by
  rw [export?] at h
  split at h
  · exact Option.some.inj h ▸ rfl
  · exact absurd h.symm (Option.some_ne_none e)

theorem standsIn_of_mem_exports (h : e ∈ exports path tree) : e.location.StandsIn path tree := by
  rcases List.mem_append.mp (List.mem_mergeSort.mp h) with h | h
  · obtain ⟨n, hn, h⟩ := List.mem_filterMap.mp h
    split at h
    · obtain ⟨name, -, h⟩ := Option.bind_eq_some_iff.mp h
      rw [location_export h]
      exact standsIn_of_mem_preorder
        (Node.mem_preorder_of_mem_namedChildren tree.self_mem_preorder hn)
    · exact absurd h.symm (Option.some_ne_none e)
  · obtain ⟨s, hs, h⟩ := List.mem_filterMap.mp h
    rw [location_export h]
    exact standsIn_of_mem_walk (mem_walk_of_mem_specs hs).1

end Go

/-! ## 6. Calls -/

theorem location_callSiteIn {l : Language} {site : CallSite}
    (h : callSiteIn? l path c = some site) : site.location = .ofSpan path c.node.span := by
  cases l with
  | typescript | tsx | javascript | python | go =>
    simp only [callSiteIn?, EcmaScript.callSite?, Python.callSite?, Go.callSite?,
      Option.bind_eq_bind] at h
    split at h
    · exact absurd h (by simp)
    · obtain ⟨function, -, h⟩ := Option.bind_eq_some_iff.mp h
      obtain ⟨called, -, h⟩ := Option.bind_eq_some_iff.mp h
      exact Option.some.inj h ▸ rfl
  | java =>
    simp only [callSiteIn?, Java.callSite?, Option.bind_eq_bind] at h
    split at h
    · exact absurd h (by simp)
    · obtain ⟨callee, -, h⟩ := Option.bind_eq_some_iff.mp h
      exact Option.some.inj h ▸ rfl

/-- A call stands where it is written, whatever it is resolved to. -/
theorem standsIn_of_mem_calls {file : ParsedFile} {x : Call}
    (h : x ∈ (FileFacts.ofTree file).calls) : x.location.StandsIn file.path file.tree := by
  rw [calls_ofTree] at h
  obtain ⟨c, hc, h⟩ := List.mem_filterMap.mp h
  obtain ⟨site, hsite, rfl⟩ := Option.map_eq_some_iff.mp h
  rw [Symbols.call, location_callSiteIn hsite]
  exact standsIn_of_mem_walk hc

end Facts

/-! ## 7. Files -/

/-- All that a reader finds in a tree, less the calls, stands at nodes of the tree. -/
structure FactReader.Located (r : FactReader) (path : String) (tree : Node) : Prop where
  functions : ∀ f ∈ r.functions path tree, f.location.StandsIn path tree
  types : ∀ t ∈ r.types path tree, t.Located path tree
  imports : ∀ i ∈ r.imports path tree, i.location.StandsIn path tree
  exports : ∀ e ∈ r.exports path tree, e.location.StandsIn path tree

theorem located_factReader (l : Language) (path : String) (tree : Node) :
    (factReader l).Located path tree := by
  cases l with
  | typescript | tsx | javascript =>
    exact ⟨fun _ => Facts.EcmaScript.standsIn_of_mem_functions,
      fun _ => Facts.EcmaScript.located_of_mem_types,
      fun _ => Facts.EcmaScript.standsIn_of_mem_imports,
      fun _ => Facts.EcmaScript.standsIn_of_mem_exports⟩
  | python =>
    exact ⟨fun _ => Facts.Python.standsIn_of_mem_functions,
      fun _ => Facts.Python.located_of_mem_types,
      fun _ => Facts.Python.standsIn_of_mem_imports,
      fun _ => Facts.Python.standsIn_of_mem_exports⟩
  | java =>
    exact ⟨List.forall_mem_nil _,
      fun _ => Facts.Java.located_of_mem_types,
      fun _ => Facts.Java.standsIn_of_mem_imports,
      fun _ => Facts.Java.standsIn_of_mem_exports⟩
  | go =>
    exact ⟨fun _ => Facts.Go.standsIn_of_mem_functions,
      fun _ => Facts.Go.located_of_mem_types,
      fun _ => Facts.Go.standsIn_of_mem_imports,
      fun _ => Facts.Go.standsIn_of_mem_exports⟩

/-- **Every fact about a file stands at a node of its tree**, whatever the language, the path and
the tree are. -/
theorem standsIn_of_mem_locations {file : ParsedFile} {l : Location}
    (h : l ∈ (FileFacts.ofTree file).locations) : l.StandsIn file.path file.tree := by
  have hreader := located_factReader file.language file.path file.tree
  simp only [FileFacts.locations, List.mem_append, or_assoc] at h
  rcases h with h | h | h | h | h
  · obtain ⟨f, hf, rfl⟩ := List.mem_map.mp h
    exact hreader.functions f hf
  · obtain ⟨t, ht, h⟩ := List.mem_flatMap.mp h
    exact (hreader.types t ht).standsIn h
  · obtain ⟨i, hi, rfl⟩ := List.mem_map.mp h
    exact hreader.imports i hi
  · obtain ⟨e, he, rfl⟩ := List.mem_map.mp h
    exact hreader.exports e he
  · obtain ⟨x, hx, rfl⟩ := List.mem_map.mp h
    exact Facts.standsIn_of_mem_calls hx

end Codemap
