/-
# Go: every method is one fact

A method stands beside the type that it belongs to, and which type that is gets decided twice.  The
list of free functions leaves out the methods of all types that are known by name to have methods of
their own; the list of types is built first, and each method is then given to the first type in it
that may have it.  The two agree: a method is free where no type takes it
(`contains_owners_eq_isSome`, `foldl_attachMethod_getElem?`).

Main statement: `methods_emitted`.  Every method with a name and a receiver that has a type is one
fact, and calls know the functions that make them by the names of these facts.
-/
import Codemap.Proofs.Facts.Places
import Codemap.Proofs.Syntax.Walk
import Mathlib.Data.List.TakeWhile

namespace Codemap.Facts.Go

open Codemap.Syntax

variable {c f s : Cursor} {tree : Node} {path : String} {d : MethodDecl} {file : ParsedFile}

/-! ## 1. The types of receivers -/

/-- A type without the blanks and stars before it, and without the arguments after it. -/
def Bare (written type : List Char) : Prop :=
  ∃ stars name arguments, Text.trim written = stars ++ (name ++ arguments) ∧
    (∀ c ∈ stars, c = '*') ∧ name.head? ≠ some '*' ∧ '[' ∉ name ∧
    (arguments = [] ∨ arguments.head? = some '[') ∧ type = Text.trim name

/-- The type of a receiver is taken bare. -/
theorem bare_bareType (written : List Char) : Bare written (bareType written) := by
  generalize hrest : (Text.trim written).dropWhile (· == '*') = rest
  refine ⟨(Text.trim written).takeWhile (· == '*'), rest.takeWhile (· != '['),
    rest.dropWhile (· != '['), ?_, fun c hc => ?_, ?_, fun h => ?_, ?_, ?_⟩
  · rw [List.takeWhile_append_dropWhile, ← hrest, List.takeWhile_append_dropWhile]
  · simpa using List.mem_takeWhile_imp hc
  · have hhead := List.head?_dropWhile_not (· == '*') (Text.trim written)
    rw [hrest] at hhead
    rw [List.head?_takeWhile]
    intro hstar
    rw [(Option.filter_eq_some_iff.mp hstar).1] at hhead
    simp at hhead
  · simpa using List.mem_takeWhile_imp h
  · have hhead := List.head?_dropWhile_not (· != '[') rest
    cases h : rest.dropWhile (· != '[') with
    | nil => exact Or.inl rfl
    | cons c cs =>
      rw [h] at hhead
      exact Or.inr (by simpa using hhead)
  · rw [bareType, hrest]

/-- The type of the receiver of a method, as it is written.  No receiver is variadic. -/
def receiverType? (n : Node) : Option String := do
  let list ← n.field? "receiver"
  let declaration ← list.namedChildren.find? fun p => p.kind == "parameter_declaration"
  declaration.fieldText? "type"

/-- A receiver has a type, and it is the written one, taken bare. -/
theorem receiver?_cases (n : Node) : receiver? n = none ∧ receiverType? n = none ∨
    ∃ r written, receiver? n = some r ∧ receiverType? n = some written ∧
      r.type = onString bareType written := by
  rw [receiver?, receiverType?]
  cases n.field? "receiver" with
  | none => exact Or.inl ⟨rfl, rfl⟩
  | some list =>
    simp only [Option.bind_eq_bind, Option.bind_some]
    cases list.namedChildren.find? fun p => p.kind == "parameter_declaration" with
    | none => exact Or.inl ⟨rfl, rfl⟩
    | some declaration =>
      simp only [Option.bind_some]
      cases declaration.fieldText? "type" with
      | none => exact Or.inl ⟨rfl, rfl⟩
      | some written => exact Or.inr ⟨_, written, rfl, rfl, rfl⟩

/-! ## 2. Methods and the types that have them -/

/-- A method that is declared beside its type. -/
structure MethodDecl where
  place : Cursor
  written : String
  name : String

/-- The type that a method belongs to. -/
def MethodDecl.type (d : MethodDecl) : String := onString bareType d.written

/-- What tells the fact about a method apart. -/
def MethodDecl.stamp (path : String) (d : MethodDecl) : Stamp :=
  ⟨d.name, memberName d.type d.name, .ofSpan path d.place.node.span⟩

/-- The method of a type that the declaration makes. -/
def MethodDecl.method (path : String) (d : MethodDecl) : Method :=
  Go.method path d.type false d.place d.name

/-- The method that is declared at a place, with a name and a receiver that has a type. -/
def methodDecl? (c : Cursor) : Option MethodDecl :=
  if c.kind == "method_declaration" then
    match c.node.fieldText? "name", receiverType? c.node with
    | some name, some written => some ⟨c, written, name⟩
    | _, _ => none
  else none

/-- The methods that a file declares at the top level. -/
def methodDecls (tree : Node) : List MethodDecl :=
  (Cursor.top tree).namedChildren.filterMap methodDecl?

/-- Whether a type is the structure or the interface of a name. -/
def Spec.owns (name : String) (s : Spec) : Bool :=
  s.name == name && (s.kind == .classType || s.kind == .interfaceType)

/-- The number of the first structure or interface of a name. -/
def owner? (tree : Node) (name : String) : Option Nat := (specs tree).findIdx? (Spec.owns name)

/-- The methods that belong to a type of the file. -/
def members (tree : Node) (i : Nat) : List MethodDecl :=
  (methodDecls tree).filter fun d => owner? tree d.type == some i

/-- The methods that belong to no structure or interface of the file. -/
def free (tree : Node) : List MethodDecl :=
  (methodDecls tree).filter fun d => (owner? tree d.type).isNone

theorem methodDecl?_eq_some_iff : methodDecl? c = some d ↔
    c.kind = "method_declaration" ∧ d.place = c ∧ receiverType? c.node = some d.written ∧
      c.node.fieldText? "name" = some d.name := by
  rw [methodDecl?]
  by_cases hkind : c.kind = "method_declaration"
  · rw [if_pos (beq_iff_eq.mpr hkind)]
    obtain ⟨place, written, name⟩ := d
    cases hname : c.node.fieldText? "name" <;> cases hwritten : receiverType? c.node <;>
      simp [hkind, eq_comm, and_comm]
  · simp [hkind]

/-- No method is listed twice. -/
theorem nodup_methodDecls (tree : Node) : (methodDecls tree).Nodup := by
  refine List.Nodup.filterMap (fun c c' d hc hc' => ?_) ((Cursor.nodup_children _).filter _)
  exact (methodDecl?_eq_some_iff.mp hc).2.1.symm.trans (methodDecl?_eq_some_iff.mp hc').2.1

/-- The methods are those that belong to no type and those that belong to one. -/
theorem free_append_members_perm (tree : Node) :
    (free tree ++ (List.range (specs tree).length).flatMap (members tree)).Perm
      (methodDecls tree) := by
  refine filter_isNone_append_flatMap_perm (nodup_methodDecls tree) List.nodup_range
    (fun i _ => (nodup_methodDecls tree).filter _) (fun i _ d => ?_) fun d _ i hi => ?_
  · rw [members, List.mem_filter, beq_iff_eq]
  · exact List.mem_range.mpr (List.findIdx?_eq_some_iff_getElem.mp hi).1

theorem kind_bne_aliasType (s : Spec) :
    (s.kind != .aliasType) = (s.kind == .classType || s.kind == .interfaceType) := by
  rw [Spec.kind]
  split <;> rfl

/-- The names by which types are known to have methods are those of the structures and interfaces
of the file. -/
theorem contains_owners_eq_isSome (tree : Node) (name : String) :
    (((specs tree).filter fun s => s.kind != .aliasType).map (·.name)).contains name =
      (owner? tree name).isSome := by
  rw [owner?, List.findIdx?_isSome, List.contains_eq_any_beq, List.any_map, List.any_filter]
  refine List.any_congr rfl fun s => ?_
  rw [kind_bne_aliasType, Spec.owns, Bool.and_comm, Function.comp_apply, Bool.beq_comm]

/-! ## 3. Giving methods to types -/

/-- Whether a type takes the methods of a name. -/
def takes (name : String) (t : TypeDecl) : Bool := t.name == name && t.kind != .aliasType

/-- A type with more methods. -/
def addMethods (t : TypeDecl) (ms : List Method) : TypeDecl := { t with methods := t.methods ++ ms }

theorem methodStamps_addMethods (t : TypeDecl) (path : String) (ds : List MethodDecl) :
    methodStamps (addMethods t (ds.map (·.method path))) =
      methodStamps t ++ ds.map (·.stamp path) := by
  rw [methodStamps, addMethods, List.map_append, List.map_map]
  rfl

/-- The first type that takes a method has it after the others; nothing else changes. -/
theorem attach_getElem? (name : String) (m : Method) (ts : List TypeDecl) (i : Nat) :
    (attach name m ts)[i]? =
      ts[i]?.map (addMethods · (if ts.findIdx? (takes name) = some i then [m] else [])) := by
  induction ts generalizing i with
  | nil => rfl
  | cons t ts ih =>
    rw [attach, List.findIdx?_cons, ← takes]
    by_cases htakes : takes name t
    · rw [if_pos htakes, if_pos htakes]
      cases i with
      | zero => rfl
      | succ i => simp [addMethods]
    · rw [if_neg htakes, if_neg htakes]
      cases i with
      | zero => simp [addMethods]
      | succ i => simp [ih]

/-- Which type takes a method does not depend on the methods that types have already. -/
theorem findIdx?_attach (name name' : String) (m : Method) (ts : List TypeDecl) :
    (attach name' m ts).findIdx? (takes name) = ts.findIdx? (takes name) := by
  induction ts with
  | nil => rfl
  | cons t ts ih =>
    rw [attach]
    split
    · rfl
    · rw [List.findIdx?_cons, List.findIdx?_cons, ih]

theorem attachMethod_eq (path : String) (ts : List TypeDecl) (c : Cursor) :
    attachMethod path ts c =
      match methodDecl? c with
      | some d => attach d.type (d.method path) ts
      | none => ts := by
  rw [attachMethod, methodDecl?]
  split
  · cases c.node.fieldText? "name" with
    | none => rfl
    | some name =>
      rcases receiver?_cases c.node with ⟨hr, hw⟩ | ⟨r, written, hr, hw, htype⟩
      · rw [hr, hw]
      · rw [hr, hw]
        simp only [htype]
        rfl
  · rfl

/-- **Each type gets the methods that it takes first, in their order.** -/
theorem foldl_attachMethod_getElem? (path : String) (cs : List Cursor) (ts : List TypeDecl)
    (i : Nat) :
    (cs.foldl (attachMethod path) ts)[i]? =
      ts[i]?.map (addMethods · (((cs.filterMap methodDecl?).filter fun d =>
        ts.findIdx? (takes d.type) == some i).map (·.method path))) := by
  induction cs generalizing ts with
  | nil => simp [addMethods]
  | cons c cs ih =>
    rw [List.foldl_cons, ih, attachMethod_eq]
    cases hd : methodDecl? c with
    | none => rw [List.filterMap_cons_none hd]
    | some d =>
      simp only [findIdx?_attach, attach_getElem?, List.filterMap_cons_some hd, List.filter_cons,
        Option.map_map, Function.comp_def, beq_iff_eq]
      split <;> simp [addMethods]

/-! ## 4. The facts about methods -/

/-- What tells the fact about a method that an interface lists apart. -/
def elementStamp? (path owner : String) (c : Cursor) : Option Stamp :=
  if c.kind == "method_elem" || c.kind == "method_spec" then
    (c.node.fieldText? "name").map fun name =>
      ⟨name, memberName owner name, .ofSpan path c.node.span⟩
  else none

/-- What tells the facts about the methods apart that a type lists itself. -/
def elementStamps (path : String) (s : Spec) : List Stamp :=
  match s.kind, s.place.field? "type" with
  | .interfaceType, some type => type.namedChildren.filterMap (elementStamp? path s.name)
  | _, _ => []

/-- The name and the kind of the type with a number, and what tells the facts about its methods
apart: those that it lists itself, and those that belong to it. -/
def typeStamps (path : String) (tree : Node) (i : Nat) (s : Spec) :
    String × TypeKind × List Stamp :=
  (s.name, s.kind, elementStamps path s ++ (members tree i).map (·.stamp path))

/-- What tells the fact about a function, or about a method without a type, apart. -/
def freeStamp? (path : String) (tree : Node) (c : Cursor) : Option Stamp :=
  if c.kind == "function_declaration" then
    (c.node.fieldText? "name").map fun name => ⟨name, name, .ofSpan path c.node.span⟩
  else ((methodDecl? c).filter fun d => (owner? tree d.type).isNone).map (·.stamp path)

theorem map_stamp_freeFunction? (path : String) (tree : Node) (c : Cursor) :
    (freeFunction? path (((specs tree).filter fun s => s.kind != .aliasType).map (·.name)) c).map
      stamp = freeStamp? path tree c := by
  rw [freeFunction?, freeStamp?, methodDecl?]
  cases hname : c.node.fieldText? "name" with
  | none => simp
  | some name =>
    rw [Option.bind_eq_bind, Option.bind_some]
    split
    next hkind => simp [hkind, stamp, function]
    next hkind =>
      rcases receiver?_cases c.node with ⟨hr, hw⟩ | ⟨r, written, hr, hw, htype⟩
      · simp [hkind, hr, hw]
      · simp only [hkind, hr, hw, Option.bind_eq_bind, Option.bind_some, contains_owners_eq_isSome,
          htype]
        cases howner : owner? tree (onString bareType written) <;>
          simp [MethodDecl.type, MethodDecl.stamp, howner, stamp, function, Option.filter]
    next hfunction hmethod =>
      rw [if_neg (mt beq_iff_eq.mp hfunction), if_neg (mt beq_iff_eq.mp hmethod)]
      rfl

/-- **The free functions are the functions, and the methods that no type takes.** -/
theorem map_stamp_functions (path : String) (tree : Node) :
    (functions path tree).map stamp =
      (Cursor.top tree).namedChildren.filterMap (freeStamp? path tree) := by
  rw [functions, List.map_filterMap]
  exact List.filterMap_congr fun c _ => map_stamp_freeFunction? path tree c

theorem foldl_addField_keeps (path : String) (fields : List Node) (t : TypeDecl) :
    (fields.foldl (addField path) t).name = t.name ∧
      (fields.foldl (addField path) t).kind = t.kind ∧
      (fields.foldl (addField path) t).methods = t.methods := by
  induction fields generalizing t with
  | nil => exact ⟨rfl, rfl, rfl⟩
  | cons n fields ih =>
    have hkeeps : (addField path t n).name = t.name ∧ (addField path t n).kind = t.kind ∧
        (addField path t n).methods = t.methods := by
      rw [addField]
      split
      · dsimp only
        split <;> exact ⟨rfl, rfl, rfl⟩
      · exact ⟨rfl, rfl, rfl⟩
    obtain ⟨hname, hkind, hmethods⟩ := ih (addField path t n)
    exact ⟨hname.trans hkeeps.1, hkind.trans hkeeps.2.1, hmethods.trans hkeeps.2.2⟩

theorem methodElementKinds_contains (c : Cursor) :
    methodElementKinds.contains c.kind = (c.kind == "method_elem" || c.kind == "method_spec") := by
  rw [methodElementKinds, List.contains_cons, List.contains_cons, List.contains_nil, Bool.or_false]

theorem addElement_spec (path : String) (t : TypeDecl) (c : Cursor) :
    (addElement path t c).name = t.name ∧ (addElement path t c).kind = t.kind ∧
      methodStamps (addElement path t c) =
        methodStamps t ++ (elementStamp? path t.name c).toList := by
  rw [addElement, elementStamp?, ← methodElementKinds_contains]
  split
  next =>
    cases hname : c.node.fieldText? "name" with
    | none => simp
    | some name => simp [methodStamps, stamp, method, function]
  next => split <;> exact ⟨rfl, rfl, (List.append_nil _).symm⟩

theorem foldl_addElement_spec (path : String) (elements : List Cursor) (t : TypeDecl) :
    (elements.foldl (addElement path) t).name = t.name ∧
      (elements.foldl (addElement path) t).kind = t.kind ∧
      methodStamps (elements.foldl (addElement path) t) =
        methodStamps t ++ elements.filterMap (elementStamp? path t.name) := by
  induction elements generalizing t with
  | nil => exact ⟨rfl, rfl, (List.append_nil _).symm⟩
  | cons c elements ih =>
    obtain ⟨hname, hkind, hstamps⟩ := addElement_spec path t c
    obtain ⟨hname', hkind', hstamps'⟩ := ih (addElement path t c)
    refine ⟨hname'.trans hname, hkind'.trans hkind, ?_⟩
    rw [List.foldl_cons, hstamps', hstamps, hname, List.append_assoc, List.filterMap_cons]
    cases elementStamp? path t.name c <;> rfl

/-- The type at the place of a specification has its name and its kind. -/
theorem typeOfSpec_spec (path : String) (s : Spec) :
    (typeOfSpec path s).name = s.name ∧ (typeOfSpec path s).kind = s.kind ∧
      methodStamps (typeOfSpec path s) = elementStamps path s := by
  rw [typeOfSpec, elementStamps]
  cases hkind : s.kind with
  | classType =>
    dsimp only
    split
    next fields _ =>
      obtain ⟨hname, hkind, hmethods⟩ := foldl_addField_keeps path fields.namedChildren _
      exact ⟨hname, hkind, congrArg (List.map _) hmethods⟩
    next => exact ⟨rfl, rfl, rfl⟩
  | interfaceType =>
    dsimp only
    cases s.place.field? "type" with
    | none => exact ⟨rfl, rfl, rfl⟩
    | some type => exact foldl_addElement_spec path type.namedChildren _
  | enumType => exact ⟨rfl, rfl, rfl⟩
  | aliasType => exact ⟨rfl, rfl, rfl⟩

theorem takes_typeOfSpec (path name : String) (s : Spec) :
    takes name (typeOfSpec path s) = s.owns name := by
  obtain ⟨hname, hkind, -⟩ := typeOfSpec_spec path s
  rw [takes, hname, hkind, kind_bne_aliasType, Spec.owns]

/-- **The types are the declared ones, each with the methods that it lists and then with those that
belong to it.** -/
theorem map_stamps_types (path : String) (tree : Node) :
    (types path tree).map (fun t => (t.name, t.kind, methodStamps t)) =
      (specs tree).mapIdx (typeStamps path tree) := by
  refine List.ext_getElem? fun i => ?_
  have howner : ∀ name, ((specs tree).map (typeOfSpec path)).findIdx? (takes name) =
      owner? tree name := by
    intro name
    rw [List.findIdx?_map, owner?]
    exact congrArg₂ _ (funext fun s => takes_typeOfSpec path name s) rfl
  rw [types, List.getElem?_map, foldl_attachMethod_getElem?, List.getElem?_map,
    List.getElem?_mapIdx]
  simp only [howner, Option.map_map]
  refine congrArg₂ _ (funext fun s => ?_) rfl
  obtain ⟨hname, hkind, hstamps⟩ := typeOfSpec_spec path s
  simp only [Function.comp_apply, methodStamps_addMethods, hstamps]
  simp only [addMethods, hname, hkind, typeStamps, members, methodDecls]

/-! ## 5. Callers -/

/-- Functions and methods. -/
def scopeKinds : List String := ["function_declaration", "method_declaration"]

/-- The functions and methods of a tree are declared at the top level, by name, and functions have
no receiver.  The grammar has them nowhere else, so every tree without errors is well-formed. -/
structure WellFormed (tree : Node) : Prop where
  root : tree.kind ∉ scopeKinds
  top : ∀ n ∈ tree.children, n.kind ∈ scopeKinds → n.named ∧ (n.fieldText? "name").isSome
  inner : ∀ n ∈ tree.children, ∀ d ∈ n.children, ∀ m ∈ d.preorder, m.kind ∉ scopeKinds
  function : ∀ n ∈ tree.children, n.kind = "function_declaration" → (n.field? "receiver").isNone

instance (tree : Node) : Decidable (WellFormed tree) :=
  decidable_of_iff ((_ ∉ _) ∧ (∀ _ ∈ _, _) ∧ (∀ _ ∈ _, _) ∧ (∀ _ ∈ _, _))
    ⟨fun ⟨hroot, htop, hinner, hfunction⟩ => ⟨hroot, htop, hinner, hfunction⟩,
      fun ⟨hroot, htop, hinner, hfunction⟩ => ⟨hroot, htop, hinner, hfunction⟩⟩

/-- All methods at the top level have a receiver with a type. -/
def Received (tree : Node) : Prop :=
  ∀ n ∈ tree.children, n.kind = "method_declaration" → (receiverType? n).isSome

instance (tree : Node) : Decidable (Received tree) :=
  inferInstanceAs (Decidable (∀ _ ∈ _, _ → _))

/-- Every function or method of a tree stands at the top level. -/
theorem WellFormed.mem_namedChildren (h : WellFormed tree) (hf : f ∈ (Cursor.top tree).walk)
    (hkind : f.kind ∈ scopeKinds) : f ∈ (Cursor.top tree).namedChildren := by
  rw [Cursor.walk_eq_places, Cursor.mem_places_iff] at hf
  rcases hf with rfl | ⟨c, hc, hf⟩
  · exact absurd hkind h.root
  · have hchild : c.node ∈ tree.children := Cursor.node_mem_of_mem_children hc
    rcases Cursor.mem_places_iff.mp hf with rfl | ⟨e, he, hf⟩
    · exact List.mem_filter.mpr ⟨hc, (h.top _ hchild hkind).1⟩
    · have hbelow : f.node ∈ e.node.preorder := by
        rw [← Cursor.map_node_walk e, Cursor.walk_eq_places]
        exact List.mem_map_of_mem hf
      exact absurd hkind (h.inner _ hchild _ (Cursor.node_mem_of_mem_children he) _ hbelow)

theorem callSite?_caller {site : CallSite} (h : callSite? path s = some site) :
    site.caller = (enclosingScope s).1 := by
  simp only [callSite?, Option.bind_eq_bind] at h
  split at h
  · exact absurd h (by simp)
  · obtain ⟨-, -, h⟩ := Option.bind_eq_some_iff.mp h
    obtain ⟨function, -, h⟩ := Option.bind_eq_some_iff.mp h
    obtain ⟨⟨callee, receiver⟩, -, h⟩ := Option.bind_eq_some_iff.mp h
    obtain rfl := Option.some.inj h
    rfl

/-- What the facts about a file say of the methods in its tree. -/
structure Emitted (file : ParsedFile) : Prop where
  /-- Methods are declared for types without stars and arguments. -/
  bare : ∀ d ∈ methodDecls file.tree, Bare d.written.toList d.type.toList
  /-- Each of them belongs to no type of the file, or to one. -/
  once : (free file.tree ++ (List.range (specs file.tree).length).flatMap (members file.tree)).Perm
    (methodDecls file.tree)
  /-- There is one fact about each function, and about each method that belongs to no type. -/
  functions : (FileFacts.ofTree file).functions.map stamp =
    (Cursor.top file.tree).namedChildren.filterMap (freeStamp? file.path file.tree)
  /-- There is one fact about each type, with one about each method that belongs to it. -/
  types : (FileFacts.ofTree file).types.map (fun t => (t.name, t.kind, methodStamps t)) =
    (specs file.tree).mapIdx (typeStamps file.path file.tree)

/-- **Every method is one fact**: a method of the first structure or interface of its name, and a
free function if the file declares none. -/
theorem emitted (hl : file.language = .go) : Emitted file := by
  obtain ⟨path, language, tree⟩ := file
  obtain rfl : language = .go := hl
  refine ⟨fun d _ => ?_, free_append_members_perm tree, map_stamp_functions path tree,
    map_stamps_types path tree⟩
  rw [MethodDecl.type, onString, String.toList_ofList]
  exact bare_bareType _

theorem Emitted.declares_function (he : Emitted file) {x : Stamp}
    (hc : c ∈ (Cursor.top file.tree).namedChildren)
    (h : freeStamp? file.path file.tree c = some x) :
    (FileFacts.ofTree file).Declares x.qualifiedName := by
  refine declares_of_stamp_mem_functions ?_
  rw [he.functions]
  exact List.mem_filterMap.mpr ⟨c, hc, h⟩

theorem Emitted.declares_method (he : Emitted file)
    (hc : c ∈ (Cursor.top file.tree).namedChildren) (hd : methodDecl? c = some d) :
    (FileFacts.ofTree file).Declares (memberName d.type d.name) := by
  have hmem : d ∈ methodDecls file.tree := List.mem_filterMap.mpr ⟨c, hc, hd⟩
  rcases List.mem_append.mp (he.once.mem_iff.mpr hmem) with hfree | hmember
  · have hkind := (methodDecl?_eq_some_iff.mp hd).1
    refine he.declares_function (x := d.stamp file.path) hc ?_
    rw [freeStamp?, if_neg (by simp [hkind]), hd, Option.filter_some,
      if_pos (List.mem_filter.mp hfree).2, Option.map_some]
  · obtain ⟨i, hi, hmember⟩ := List.mem_flatMap.mp hmember
    have hi : i < (specs file.tree).length := List.mem_range.mp hi
    have htype : typeStamps file.path file.tree i (specs file.tree)[i] ∈
        (specs file.tree).mapIdx (typeStamps file.path file.tree) :=
      List.mem_mapIdx.mpr ⟨i, hi, rfl⟩
    rw [← he.types] at htype
    obtain ⟨t, ht, hstamps⟩ := List.mem_map.mp htype
    refine declares_of_mem_methodStamps (x := d.stamp file.path) ht ?_
    rw [(Prod.mk.inj (Prod.mk.inj hstamps).2).2]
    exact List.mem_append_right _ (List.mem_map_of_mem hmember)

/-- The function that makes a call is known by the name of its fact. -/
theorem Emitted.declares_caller (he : Emitted file) (hl : file.language = .go)
    (h : WellFormed file.tree) (hr : Received file.tree) {x : Call}
    (hx : x ∈ (FileFacts.ofTree file).calls) :
    x.caller = moduleScope ∨ (FileFacts.ofTree file).Declares x.caller := by
  obtain ⟨s, hs, site, hsite, hcaller⟩ := mem_callers_iff.mp ⟨x, hx, rfl⟩
  rw [hl] at hsite
  rw [← hcaller, callSite?_caller hsite, enclosingScope]
  split
  next => exact Or.inl rfl
  next f hancestor =>
    refine Or.inr ?_
    obtain ⟨hwalk, hkind⟩ : f ∈ (Cursor.top file.tree).walk ∧ f.kind ∈ scopeKinds :=
      Cursor.mem_walk_of_ancestor? hs hancestor
    have hf := h.mem_namedChildren hwalk hkind
    have hchild : f.node ∈ file.tree.children :=
      Cursor.node_mem_of_mem_children (List.mem_of_mem_filter hf)
    obtain ⟨name, hname⟩ := Option.isSome_iff_exists.mp (h.top _ hchild hkind).2
    rw [hname, Option.getD_some]
    have hkind : f.kind = "function_declaration" ∨ f.kind = "method_declaration" := by
      simpa [scopeKinds] using hkind
    rcases hkind with hkind | hkind
    · have hnone := Option.isNone_iff_eq_none.mp (h.function _ hchild hkind)
      have hreceiver : receiver? f.node = none := by rw [receiver?, hnone]; rfl
      rw [hreceiver]
      refine he.declares_function (x := ⟨name, name, .ofSpan file.path f.node.span⟩) hf ?_
      rw [freeStamp?, if_pos (beq_iff_eq.mpr hkind), hname, Option.map_some]
    · have hsome := hr _ hchild hkind
      rcases receiver?_cases f.node with ⟨-, hnone⟩ | ⟨r, written, hreceiver, hwritten, htype⟩
      · rw [hnone] at hsome
        exact absurd hsome Bool.false_ne_true
      · rw [hreceiver]
        dsimp only
        rw [htype]
        exact he.declares_method (d := ⟨f, written, name⟩) hf
          (methodDecl?_eq_some_iff.mpr ⟨hkind, rfl, hwritten, hname⟩)

/-- **Every method at the top level is one fact**, a method of the first structure or interface of
its name and a free function if the file declares none; and where functions and methods stand at the
top level only, all methods for some type, the caller of every call is the module, or the qualified
name of one of these facts. -/
theorem methods_emitted (file : ParsedFile) (hl : file.language = .go) :
    Emitted file ∧ (WellFormed file.tree → Received file.tree → ∀ x ∈ (FileFacts.ofTree file).calls,
      x.caller = moduleScope ∨ (FileFacts.ofTree file).Declares x.caller) :=
  ⟨emitted hl, fun h hr _ hx => (emitted hl).declares_caller hl h hr hx⟩

/-- A method of a structure, and one for a type that is no structure. -/
def beside : ParsedFile where
  path := "job.go"
  language := .go
  tree := parseSource .go
    "type A struct{}\nfunc (a *A[K]) F() { g() }\nfunc (B) G() {}\n"

/-- The method for a pointer to a generic structure is a method, and the other one is free. -/
theorem methods_emitted_beside :
    beside.language = .go ∧ WellFormed beside.tree ∧ Received beside.tree ∧
      (FileFacts.ofTree beside).functions.map (·.qualifiedName) = ["B.G"] ∧
      (FileFacts.ofTree beside).types.map (fun t => t.methods.map (·.function.qualifiedName)) =
        [["A.F"]] ∧
      (FileFacts.ofTree beside).calls.map (·.caller) = ["A.F"] ∧
      ∀ x ∈ (FileFacts.ofTree beside).calls,
        x.caller = moduleScope ∨ (FileFacts.ofTree beside).Declares x.caller := by
  have hfile : WellFormed beside.tree ∧ Received beside.tree ∧
      (FileFacts.ofTree beside).functions.map (·.qualifiedName) = ["B.G"] ∧
      (FileFacts.ofTree beside).types.map (fun t => t.methods.map (·.function.qualifiedName)) =
        [["A.F"]] ∧
      (FileFacts.ofTree beside).calls.map (·.caller) = ["A.F"] := by
    decide +kernel
  obtain ⟨hwell, hreceived, hfunctions, htypes, hcalls⟩ := hfile
  exact ⟨rfl, hwell, hreceived, hfunctions, htypes, hcalls,
    (methods_emitted beside rfl).2 hwell hreceived⟩

end Codemap.Facts.Go
