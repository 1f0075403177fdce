/-
# Java: callers that no fact is about

The caller of a call is put together from the nearest method around it and the nearest type around
it, and each is looked for without the other.  Where the type declares the method, the caller is the
name of its fact.  But a type may lie between a call and the method around it, as a local class does
with a field whose value is a call; and a method may lie in something that is no declaration of a
type, such as an anonymous class or the body of a constant.  Then the two make a name of their own,
and no fact has it unless a type and a method of these names go together elsewhere.

Main statement: `callersKnown_iff`.  All callers in a file are known if and only if whatever method
a call is in goes by name with the type that it is in.  For a local class they do not
(`not_callersKnown_localField`).
-/
import Codemap.Proofs.Facts.Places
import Codemap.Proofs.Syntax.Walk
import Mathlib.Data.List.TakeWhile

namespace Codemap.Facts.Java

open Codemap.Syntax

variable {c m s : Cursor} {tree : Node} {path name type member : String} {file : ParsedFile}

/-! ## 1. Types and the methods that they declare -/

/-- The kinds of declarations of methods. -/
def methodKinds : List String := ["method_declaration", "constructor_declaration"]

/-- The declarations of types in a tree. -/
def typePlaces (tree : Node) : List Cursor :=
  (Cursor.top tree).walk.filter fun c => typeKinds.contains c.kind

/-- The declarations of methods in the body of a type. -/
def methodPlaces (c : Cursor) : List Cursor :=
  match c.field? "body" with
  | some body => (bodyMembers body).filter fun m => methodKinds.contains m.kind
  | none => []

/-- The name of a method. -/
def methodName (m : Cursor) : String := (m.node.fieldText? "name").getD anonymous

/-- A type of the tree has the name. -/
def HasType (tree : Node) (name : String) : Prop :=
  ∃ c ∈ typePlaces tree, c.node.fieldText? "name" = some name

/-- A type of the tree that has the name `type` declares a method of the name `member`. -/
def HasMethod (tree : Node) (type member : String) : Prop :=
  ∃ c ∈ typePlaces tree, c.node.fieldText? "name" = some type ∧
    member ∈ (methodPlaces c).map methodName

instance : Decidable (HasType tree name) := inferInstanceAs (Decidable (∃ c ∈ typePlaces tree, _))

instance : Decidable (HasMethod tree type member) :=
  inferInstanceAs (Decidable (∃ c ∈ typePlaces tree, _ ∧ _))

/-- The names of types and methods have neither dots nor angle brackets. -/
def PlainNames (tree : Node) : Prop :=
  ∀ n ∈ tree.preorder, n.kind ∈ typeKinds ++ methodKinds →
    ∀ name ∈ n.fieldText? "name", '.' ∉ name.toList ∧ '<' ∉ name.toList

instance : Decidable (PlainNames tree) :=
  inferInstanceAs (Decidable (∀ n ∈ tree.preorder, _ → ∀ name ∈ n.fieldText? "name", _))

theorem mem_typePlaces_iff :
    c ∈ typePlaces tree ↔ c ∈ (Cursor.top tree).walk ∧ c.kind ∈ typeKinds := by
  rw [typePlaces, List.mem_filter, List.contains_iff_mem]

/-- A member of a body adds the method that it declares. -/
theorem addMember_spec (path : String) (t : TypeDecl) (c : Cursor) :
    (addMember path t c).name = t.name ∧
      (addMember path t c).methods.map (·.name) = t.methods.map (·.name) ++
        (if methodKinds.contains c.kind then [methodName c] else []) := by
  rw [addMember]
  split
  next hkind =>
    rw [hkind, if_neg (by decide), List.append_nil]
    split <;> exact ⟨rfl, rfl⟩
  next hkind => simp [hkind, methodKinds, Method.name, method, methodName]
  next hkind => simp [hkind, methodKinds, Method.name, method, methodName]
  next hkind => simp [hkind, methodKinds]
  next hkind => simp [hkind, methodKinds]
  next hmethod hconstructor _ _ =>
    have hkind : ¬ methodKinds.contains c.kind := by
      simpa [methodKinds] using And.intro hmethod hconstructor
    rw [if_neg hkind]
    exact ⟨rfl, (List.append_nil _).symm⟩

theorem foldl_addMember_spec (path : String) (cs : List Cursor) (t : TypeDecl) :
    (cs.foldl (addMember path) t).name = t.name ∧
      (cs.foldl (addMember path) t).methods.map (·.name) = t.methods.map (·.name) ++
        (cs.filter fun m => methodKinds.contains m.kind).map methodName := by
  induction cs generalizing t with
  | nil => exact ⟨rfl, (List.append_nil _).symm⟩
  | cons c cs ih =>
    obtain ⟨hname, hmethods⟩ := addMember_spec path t c
    obtain ⟨hname', hmethods'⟩ := ih (addMember path t c)
    refine ⟨hname'.trans hname, ?_⟩
    rw [List.foldl_cons, hmethods', hmethods, List.append_assoc, List.filter_cons]
    split <;> rfl

/-- The type at the place of a declaration has its name, and the methods of its body. -/
theorem typeAt?_spec (path : String) (c : Cursor) :
    (typeAt? path c).map (fun t => (t.name, t.methods.map (·.name))) =
      if typeKinds.contains c.kind then
        (c.node.fieldText? "name").map fun name => (name, (methodPlaces c).map methodName)
      else none := by
  rw [typeAt?, methodPlaces]
  split
  · rw [Option.map_map]
    refine congrArg₂ _ (funext fun name => ?_) rfl
    cases c.field? "body" with
    | none => rfl
    | some body =>
      obtain ⟨hname, hmethods⟩ := foldl_addMember_spec path (bodyMembers body) _
      exact Prod.ext hname hmethods
  · rfl

/-- **The types are the declarations that have a name, with the methods of their bodies.** -/
theorem map_types (path : String) (tree : Node) :
    (types path tree).map (fun t => (t.name, t.methods.map (·.name))) =
      (typePlaces tree).filterMap fun c =>
        (c.node.fieldText? "name").map fun name => (name, (methodPlaces c).map methodName) := by
  rw [types, typePlaces, List.map_filterMap, List.filterMap_filter]
  exact List.filterMap_congr fun c _ => typeAt?_spec path c

/-- What is said of the name and the methods of a type may be said of a declaration. -/
theorem exists_mem_types_iff (P : String → List String → Prop) :
    (∃ t ∈ types path tree, P t.name (t.methods.map (·.name))) ↔
      ∃ c ∈ typePlaces tree, ∃ name, c.node.fieldText? "name" = some name ∧
        P name ((methodPlaces c).map methodName) := by
  constructor
  · rintro ⟨t, ht, h⟩
    have hmem : (t.name, t.methods.map (·.name)) ∈
        (types path tree).map fun t => (t.name, t.methods.map (·.name)) := List.mem_map_of_mem ht
    rw [map_types] at hmem
    obtain ⟨c, hc, hplace⟩ := List.mem_filterMap.mp hmem
    obtain ⟨name, hname, heq⟩ := Option.map_eq_some_iff.mp hplace
    obtain ⟨rfl, hmethods⟩ := Prod.mk.inj heq
    exact ⟨c, hc, t.name, hname, hmethods ▸ h⟩
  · rintro ⟨c, hc, name, hname, h⟩
    have hmem : (name, (methodPlaces c).map methodName) ∈
        (types path tree).map fun t => (t.name, t.methods.map (·.name)) := by
      rw [map_types]
      exact List.mem_filterMap.mpr ⟨c, hc, by rw [hname, Option.map_some]⟩
    obtain ⟨t, ht, heq⟩ := List.mem_map.mp hmem
    obtain ⟨rfl, hmethods⟩ := Prod.mk.inj heq
    exact ⟨t, ht, hmethods ▸ h⟩

theorem exists_type_iff (path : String) :
    (∃ t ∈ types path tree, t.name = name) ↔ HasType tree name := by
  simpa [HasType] using exists_mem_types_iff fun type _ => type = name

theorem exists_method_iff (path : String) :
    (∃ t ∈ types path tree, t.name = type ∧ member ∈ t.methods.map (·.name)) ↔
      HasMethod tree type member := by
  simpa [HasMethod, and_left_comm] using
    exists_mem_types_iff fun name members => name = type ∧ member ∈ members

/-! ## 2. Known callers -/

/-- A caller is the module, or it is known by a fact about a type or about a method of a type. -/
def Known (f : FileFacts) (caller : String) : Prop :=
  caller = moduleScope ∨ (∃ t ∈ f.types, t.name = caller) ∨
    ∃ t ∈ f.types, ∃ m ∈ t.methods, m.function.qualifiedName = caller

/-- All callers in a file are known. -/
def CallersKnown (f : FileFacts) : Prop := ∀ x ∈ f.calls, Known f x.caller

instance (f : FileFacts) (caller : String) : Decidable (Known f caller) :=
  inferInstanceAs (Decidable (_ = _ ∨ (∃ t ∈ f.types, _) ∨ ∃ t ∈ f.types, ∃ m ∈ t.methods, _))

instance (f : FileFacts) : Decidable (CallersKnown f) :=
  inferInstanceAs (Decidable (∀ x ∈ f.calls, _))

/-- The name of the nearest type around a place. -/
def typeAround? (s : Cursor) : Option String :=
  (s.ancestor? typeKinds).bind fun c => c.node.fieldText? "name"

/-- The name of the nearest method around a place. -/
def methodAround? (s : Cursor) : Option String :=
  (s.ancestor? methodKinds).bind fun m => m.node.fieldText? "name"

/-- The method around a place goes by name with the type around it: a type of that name declares a
method of that name.  Where there is no type around the method, a type has the name of the method
itself. -/
def Together (tree : Node) (s : Cursor) : Prop :=
  ∀ member ∈ methodAround? s, (∀ type ∈ typeAround? s, HasMethod tree type member) ∧
    (typeAround? s = none → HasType tree member)

instance : Decidable (Together tree s) :=
  inferInstanceAs (Decidable (∀ member ∈ methodAround? s, (∀ type ∈ typeAround? s, _) ∧ (_ → _)))

/-- Where neither a type nor its member has a dot in its name, both are known from the name of the
member. -/
theorem memberName_inj {type' member' : String} (ht : '.' ∉ type.toList)
    (hm : '.' ∉ member.toList) :
    memberName type member = memberName type' member' ↔ type = type' ∧ member = member' := by
  have hlist : ∀ t m, (memberName t m).toList = t.toList ++ '.' :: m.toList := by
    intro t m
    simp [memberName]
  rw [← String.toList_inj, hlist, hlist, List.append_cons_inj_of_notMem ht hm, String.toList_inj,
    String.toList_inj, and_iff_right rfl]

theorem dot_mem_memberName (type member : String) : '.' ∈ (memberName type member).toList := by
  simp [memberName]

theorem PlainNames.of_hasType (h : PlainNames tree) (ht : HasType tree name) :
    '.' ∉ name.toList ∧ '<' ∉ name.toList := by
  obtain ⟨c, hc, hname⟩ := ht
  obtain ⟨hc, hkind⟩ := mem_typePlaces_iff.mp hc
  exact h _ (Cursor.node_mem_preorder hc) (List.mem_append_left _ hkind) _ hname

/-- The type around a place is one of the tree. -/
theorem hasType_of_typeAround? (hs : s ∈ (Cursor.top tree).walk) (h : typeAround? s = some type) :
    HasType tree type := by
  obtain ⟨c, hc, hname⟩ := Option.bind_eq_some_iff.mp h
  obtain ⟨hwalk, hkind⟩ := Cursor.mem_walk_of_ancestor? hs hc
  exact ⟨c, mem_typePlaces_iff.mpr ⟨hwalk, hkind⟩, hname⟩

theorem PlainNames.of_methodAround? (h : PlainNames tree) (hs : s ∈ (Cursor.top tree).walk)
    (hm : methodAround? s = some member) : '.' ∉ member.toList ∧ '<' ∉ member.toList := by
  obtain ⟨m, hm, hname⟩ := Option.bind_eq_some_iff.mp hm
  obtain ⟨hwalk, hkind⟩ := Cursor.mem_walk_of_ancestor? hs hm
  exact h _ (Cursor.node_mem_preorder hwalk) (List.mem_append_right _ hkind) _ hname

theorem ofTree_types (hl : file.language = .java) :
    (FileFacts.ofTree file).types = types file.path file.tree := by
  obtain ⟨path, language, tree⟩ := file
  obtain rfl : language = .java := hl
  rfl

/-- A name without dots and brackets is known if it is the name of a type. -/
theorem known_iff_hasType (hl : file.language = .java)
    (hname : '.' ∉ name.toList ∧ '<' ∉ name.toList) :
    Known (FileFacts.ofTree file) name ↔ HasType file.tree name := by
  rw [Known, ofTree_types hl, exists_type_iff]
  constructor
  · rintro (rfl | htype | ⟨t, ht, m, hm, hqualified⟩)
    · exact absurd hname.2 (by decide)
    · exact htype
    · rw [qualifies_of_mem_types ht m hm] at hqualified
      exact absurd (hqualified ▸ dot_mem_memberName _ _) hname.1
  · exact fun h => Or.inr (Or.inl h)

/-- The name of a member is known if a type declares it. -/
theorem known_memberName_iff (hl : file.language = .java) (h : PlainNames file.tree)
    (htype : '.' ∉ type.toList) (hmember : '.' ∉ member.toList) :
    Known (FileFacts.ofTree file) (memberName type member) ↔ HasMethod file.tree type member := by
  rw [Known, ofTree_types hl, ← exists_method_iff file.path, exists_type_iff]
  constructor
  · rintro (hmodule | hnamed | ⟨t, ht, m, hm, hqualified⟩)
    · exact absurd (hmodule ▸ dot_mem_memberName type member) (by decide)
    · exact absurd (dot_mem_memberName type member) (h.of_hasType hnamed).1
    · rw [qualifies_of_mem_types ht m hm] at hqualified
      obtain ⟨rfl, rfl⟩ := (memberName_inj htype hmember).mp hqualified.symm
      exact ⟨t, ht, rfl, List.mem_map_of_mem hm⟩
  · rintro ⟨t, ht, rfl, hmember⟩
    obtain ⟨m, hm, rfl⟩ := List.mem_map.mp hmember
    exact Or.inr (Or.inr ⟨t, ht, m, hm, qualifies_of_mem_types ht m hm⟩)

/-! ## 3. Calls -/

theorem callSite?_caller {site : CallSite} (h : callSite? path s = some site) :
    site.caller = (enclosingScope s).1 := by
  simp only [callSite?, Option.bind_eq_bind] at h
  split at h
  · exact absurd h (by simp)
  · obtain ⟨-, -, h⟩ := Option.bind_eq_some_iff.mp h
    obtain ⟨callee, -, h⟩ := Option.bind_eq_some_iff.mp h
    obtain rfl := Option.some.inj h
    rfl

theorem enclosingScope_eq (s : Cursor) :
    enclosingScope s =
      match methodAround? s, typeAround? s with
      | some m, some t => (memberName t m, some t)
      | some m, none => (m, none)
      | none, some t => (t, some t)
      | none, none => (moduleScope, none) := rfl

/-- **The caller of a call is known if and only if the method around it goes with the type around
it.** -/
theorem known_enclosingScope_iff (hl : file.language = .java) (h : PlainNames file.tree)
    (hs : s ∈ (Cursor.top file.tree).walk) :
    Known (FileFacts.ofTree file) (enclosingScope s).1 ↔ Together file.tree s := by
  rw [enclosingScope_eq, Together]
  cases hmethod : methodAround? s with
  | none =>
    refine iff_of_true ?_ (fun _ hm => absurd hm (Option.not_mem_none _))
    cases htype : typeAround? s with
    | none => exact Or.inl rfl
    | some type =>
      have hhas := hasType_of_typeAround? hs htype
      exact (known_iff_hasType hl (h.of_hasType hhas)).mpr hhas
  | some member =>
    have hmember := h.of_methodAround? hs hmethod
    cases htype : typeAround? s with
    | none => simpa using known_iff_hasType hl hmember
    | some type =>
      have hhas := hasType_of_typeAround? hs htype
      simpa using known_memberName_iff hl h (h.of_hasType hhas).1 hmember.1

/-- **All callers in a file are known if and only if the method around every call goes by name with
the type around it**, for every tree with plain names. -/
theorem callersKnown_iff (file : ParsedFile) (hl : file.language = .java)
    (h : PlainNames file.tree) :
    CallersKnown (FileFacts.ofTree file) ↔
      ∀ s ∈ (Cursor.top file.tree).walk, (callSite? file.path s).isSome →
        Together file.tree s := by
  have hsites : CallersKnown (FileFacts.ofTree file) ↔ ∀ s ∈ (Cursor.top file.tree).walk,
      ∀ site, callSite? file.path s = some site → Known (FileFacts.ofTree file) site.caller := by
    constructor
    · intro hknown s hs site hsite
      obtain ⟨x, hx, hcaller⟩ := mem_callers_iff.mpr ⟨s, hs, site, by rwa [hl], rfl⟩
      exact hcaller ▸ hknown x hx
    · intro hknown x hx
      obtain ⟨s, hs, site, hsite, hcaller⟩ := mem_callers_iff.mp ⟨x, hx, rfl⟩
      rw [hl] at hsite
      exact hcaller ▸ hknown s hs site hsite
  refine hsites.trans (forall₂_congr fun s hs => ?_)
  rw [← known_enclosingScope_iff hl h hs, Option.isSome_iff_exists, forall_exists_index]
  refine forall₂_congr fun site hsite => ?_
  rw [callSite?_caller hsite]

/-- A method that passes a function with a call in it. -/
def passing : ParsedFile where
  path := "app/Job.java"
  language := .java
  tree := parseSource .java "class A { void m() { n(x -> f()); } }"

/-- The method goes with its type, so both callers are known. -/
theorem callersKnown_passing :
    (FileFacts.ofTree passing).calls.map (·.caller) = ["A.m", "A.m"] ∧
      PlainNames passing.tree ∧ CallersKnown (FileFacts.ofTree passing) := by
  have hfile : (FileFacts.ofTree passing).calls.map (·.caller) = ["A.m", "A.m"] ∧
      PlainNames passing.tree ∧ ∀ s ∈ (Cursor.top passing.tree).walk, Together passing.tree s := by
    decide +kernel
  obtain ⟨hcalls, hplain, htogether⟩ := hfile
  exact ⟨hcalls, hplain, (callersKnown_iff passing rfl hplain).mpr fun s hs _ => htogether s hs⟩

/-- A class inside a method, with a field whose value is a call. -/
def localField : ParsedFile where
  path := "app/Job.java"
  language := .java
  tree := parseSource .java "class A { void m() { class B { int x = f(); } } }"

/-- The caller is made of the class inside and of the method outside, and no fact is about it. -/
theorem not_callersKnown_localField :
    localField.tree.hasErrors = false ∧
      (FileFacts.ofTree localField).types.map (fun t => (t.name, t.methods.map (·.name))) =
        [("A", ["m"]), ("B", [])] ∧
      (FileFacts.ofTree localField).calls.map (·.caller) = ["B.m"] ∧
      ¬ CallersKnown (FileFacts.ofTree localField) := by
  decide +kernel

end Codemap.Facts.Java
