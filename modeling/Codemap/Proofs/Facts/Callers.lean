/-
# ECMAScript: calls speak of classes as their facts do

The name of a class is found in two ways.  The fact about a class expression has the name that the
expression is bound to, and its own name only if it is bound to none; the calls in its methods climb
up to the class and prefer its own name.  The two ways agree unless a class expression is bound to
one name and has another one of its own (`className_eq_iff`).

Main statement: `callersMatch_iff`.  The calls in the methods of the classes of a file match the
facts about these if and only if every class that calls something in its methods is known by one
name.  Where it is known by two, no call in its methods matches (`not_callersMatch_renamed`).
-/
import Codemap.Facts.Analysis
import Codemap.Proofs.Syntax.Cursor

namespace Codemap.Facts.EcmaScript

open Codemap.Syntax

variable {c m s : Cursor} {path name : String} {t : TypeDecl} {file : ParsedFile} {x : Call}

/-! ## 1. The two names of a class -/

/-- The name that the fact about a class has, if there is such a fact. -/
def factName? (c : Cursor) : Option String :=
  if c.kind = "class" then classExpressionName? c else some (declaredName c.node)

/-- The name that a class has of its own and the one that it is bound to are not two names.  A
class that is declared has the anonymous name where it has none of its own. -/
def NamesAgree (c : Cursor) : Prop :=
  if c.kind = "class" then
    ∀ own ∈ c.node.fieldText? "name", ∀ bound ∈ boundName? c, bound = own
  else c.node.fieldText? "name" = none → ∀ bound ∈ boundName? c, bound = anonymous

instance : Decidable (NamesAgree c) :=
  inferInstanceAs (Decidable (if c.kind = "class" then _ else _))

/-- The calls in the methods of a class know it by the name of its fact if and only if its names
agree. -/
theorem className_eq_iff (h : factName? c = some name) : className c = name ↔ NamesAgree c := by
  rw [factName?, classExpressionName?, declaredName] at h
  rw [className, NamesAgree]
  generalize c.node.fieldText? "name" = own at h ⊢
  generalize boundName? c = bound at h ⊢
  by_cases hkind : c.kind = "class"
  · rw [if_pos hkind] at h ⊢
    rcases own with _ | own <;> rcases bound with _ | bound <;> simp_all [eq_comm]
  · rw [if_neg hkind] at h ⊢
    rcases own with _ | own <;> rcases bound with _ | bound <;> simp_all

theorem typeAt?_of_class (h : c.kind ∈ classKinds) :
    typeAt? path c = (factName? c).map (classType path c) := by
  rw [typeAt?, factName?]
  simp only [classKinds, List.mem_cons, List.not_mem_nil, or_false] at h
  rcases h with h | h | h <;> simp [h]

/-! ## 2. The methods of a class -/

/-- The places of the methods in the body of a class. -/
def methodPlaces (c : Cursor) : List Cursor :=
  match c.field? "body" with
  | some body =>
    if body.kind = "class_body" then body.namedChildren.filter (·.kind == "method_definition")
    else []
  | none => []

/-- The fact about the method at a place, as a member of a type. -/
def methodFact (path : String) (t : TypeDecl) (m : Cursor) : Method :=
  let fact := method path t.name m
  { fact with function := { fact.function with isExported := t.isExported } }

theorem exists_body_of_mem_methodPlaces (h : m ∈ methodPlaces c) :
    ∃ body, c.field? "body" = some body ∧ body.kind = "class_body" ∧ m ∈ body.namedChildren ∧
      m.kind = "method_definition" := by
  rw [methodPlaces] at h
  split at h
  next body hbody =>
    split at h
    next hkind =>
      obtain ⟨hm, hmethod⟩ := List.mem_filter.mp h
      exact ⟨body, hbody, hkind, hm, beq_iff_eq.mp hmethod⟩
    next => exact absurd h List.not_mem_nil
  next => exact absurd h List.not_mem_nil

/-- A member changes neither the name of a type nor the methods that the type has. -/
theorem addMember_extends (path : String) (t : TypeDecl) (d : Cursor) :
    (addMember path t d).name = t.name ∧ t.methods ⊆ (addMember path t d).methods := by
  rw [addMember]
  split
  · exact ⟨rfl, List.subset_append_left _ _⟩
  · exact ⟨rfl, List.subset_append_left _ _⟩
  · exact ⟨rfl, List.Subset.refl _⟩
  · exact ⟨rfl, List.Subset.refl _⟩
  · exact ⟨rfl, List.Subset.refl _⟩

theorem foldl_addMember_extends (path : String) (ds : List Cursor) (t : TypeDecl) :
    (ds.foldl (addMember path) t).name = t.name ∧
      t.methods ⊆ (ds.foldl (addMember path) t).methods := by
  induction ds generalizing t with
  | nil => exact ⟨rfl, List.Subset.refl _⟩
  | cons d ds ih =>
    obtain ⟨hname, hmethods⟩ := addMember_extends path t d
    obtain ⟨hrest, hsubset⟩ := ih (addMember path t d)
    exact ⟨hrest.trans hname, List.Subset.trans hmethods hsubset⟩

/-- Reading the members of a body leaves the methods among them in the type. -/
theorem method_mem_foldl_addMember {ds : List Cursor} (hm : m ∈ ds)
    (hmethod : m.kind = "method_definition") (t : TypeDecl) :
    method path t.name m ∈ (ds.foldl (addMember path) t).methods := by
  induction ds generalizing t with
  | nil => exact absurd hm List.not_mem_nil
  | cons d ds ih =>
    rw [List.foldl_cons]
    rcases List.mem_cons.mp hm with rfl | hm
    · refine (foldl_addMember_extends path ds _).2 ?_
      simp [addMember, hmethod]
    · rw [← (addMember_extends path t d).1]
      exact ih hm _

theorem classType_name (c : Cursor) (name : String) : (classType path c name).name = name := by
  simp only [classType]
  split
  · exact (foldl_addMember_extends path _ _).1
  · rfl

theorem method_mem_classType (h : m ∈ methodPlaces c) :
    method path name m ∈ (classType path c name).methods := by
  obtain ⟨body, hbody, -, hm, hmethod⟩ := exists_body_of_mem_methodPlaces h
  simp only [classType, hbody]
  exact method_mem_foldl_addMember hm hmethod _

/-! ## 3. The function around a place -/

/-- Whether a place is a function with a name: a method, a declared function, or a function
expression that a field of a class holds or that a declaration or an assignment names. -/
def isNamedFunction (c : Cursor) : Bool :=
  ["method_definition", "function_declaration", "generator_function_declaration"].contains c.kind ||
    functionKinds.contains c.kind &&
      ((c.parent.any fun p => ["public_field_definition", "field_definition"].contains p.kind) ||
        (boundName? c).isSome)

/-- The nearest function with a name around a place. -/
def nearestFunction? (c : Cursor) : Option Cursor := c.ancestors.find? isNamedFunction

theorem boundName?_of_parent_eq_none (h : c.parent = none) : boundName? c = none := by
  simp [boundName?, h]

/-- The functions with a name are those that open a scope. -/
theorem isSome_scopeAt? (c : Cursor) : (scopeAt? c).isSome = isNamedFunction c := by
  rw [scopeAt?, isNamedFunction]
  by_cases hmethod : c.kind = "method_definition"
  · simp [hmethod]
  by_cases hfunction : c.kind = "function_declaration"
  · simp [hfunction]
  by_cases hgenerator : c.kind = "generator_function_declaration"
  · simp [hgenerator]
  by_cases hexpression : c.kind ∈ functionKinds
  · cases hparent : c.parent with
    | none => simp [*, boundName?_of_parent_eq_none hparent]
    | some p =>
      by_cases hfield : p.kind = "public_field_definition" ∨ p.kind = "field_definition"
      · simp [*]
      · simp [*, not_or.mp hfield]
  · simp [*]

/-- The nearest function with a name is the one whose scope a place is in. -/
theorem enclosingScope_of_nearest {scope : String × Option String}
    (h : nearestFunction? s = some m) (hm : scopeAt? m = some scope) :
    enclosingScope s = scope := by
  obtain ⟨-, inner, outer, hsplit, hnone⟩ := List.find?_eq_some_iff_append.mp h
  have hscope : s.ancestors.findSome? scopeAt? = some scope := by
    refine List.findSome?_eq_some_iff.mpr ⟨inner, m, outer, hsplit, hm, fun a ha => ?_⟩
    -- what lies between the place and the function opens no scope
    rw [← Option.not_isSome_iff_eq_none, isSome_scopeAt?]
    simpa using hnone a ha
  rw [enclosingScope, hscope, Option.getD_some]

/-- The class around a method in its body is that class. -/
theorem enclosingClass?_of_mem_methodPlaces (hc : c.kind ∈ classKinds) (h : m ∈ methodPlaces c) :
    enclosingClass? m = some (className c) := by
  obtain ⟨body, hbody, hkind, hm, -⟩ := exists_body_of_mem_methodPlaces h
  have hmethod : m.ancestors = body :: body.ancestors :=
    Cursor.ancestors_of_parent (Cursor.parent_of_mem_children (List.mem_of_mem_filter hm))
  have hclass : body.ancestors = c :: c.ancestors :=
    Cursor.ancestors_of_parent (Cursor.parent_of_mem_children (List.mem_of_find?_eq_some hbody))
  -- climbing passes the body, which is no class, and stops at the class
  have hskip : classKinds.contains body.kind = false := by rw [hkind]; decide
  have hstop : classKinds.contains c.kind = true := List.contains_iff_mem.mpr hc
  rw [enclosingClass?, Cursor.ancestor?, hmethod, hclass, List.find?_cons, hskip, List.find?_cons,
    hstop, Option.map_some]

/-- A method in the body of a class opens a scope under the name that calls have for the class. -/
theorem scopeAt?_of_mem_methodPlaces (hc : c.kind ∈ classKinds) (h : m ∈ methodPlaces c) :
    scopeAt? m = some (memberName (className c) (declaredName m.node), some (className c)) := by
  obtain ⟨-, -, -, -, hmethod⟩ := exists_body_of_mem_methodPlaces h
  rw [scopeAt?, hmethod]
  simp [memberScope, enclosingClass?_of_mem_methodPlaces hc h]

/-! ## 4. Calls in methods -/

/-- The fact at a place of a file about the type there. -/
def typeFact? (file : ParsedFile) (c : Cursor) : Option TypeDecl :=
  (typeAt? file.path c).map (settleExport (listedNames file.path file.tree))

/-- The fact at a place of a file about the call there. -/
def callFact? (file : ParsedFile) (s : Cursor) : Option Call :=
  (callSite? file.path s).map
    (Symbols.ofFacts (FileFacts.ofTree file).functions (FileFacts.ofTree file).types).call

/-- A call of a member of `this`. -/
def IsSelfCall (s : Cursor) : Prop :=
  ∃ function, s.node.field? "function" = some function ∧ function.kind = "member_expression" ∧
    function.fieldText? "object" = some "this"

/-- A place `s` whose nearest function with a name is the method `m` in the body of the class
`c`. -/
structure InMethod (file : ParsedFile) (c m s : Cursor) : Prop where
  class_visited : c ∈ (Cursor.top file.tree).walk
  class_kind : c.kind ∈ classKinds
  method_place : m ∈ methodPlaces c
  visited : s ∈ (Cursor.top file.tree).walk
  nearest : nearestFunction? s = some m

/-- A call at `s` in the method `m` of a type speaks of the two as their facts do: the type has the
fact about the method, the caller is its qualified name, and where the call is one of a method of
the type through `this`, it is resolved to that method. -/
structure Matches (path : String) (t : TypeDecl) (m s : Cursor) (x : Call) : Prop where
  declared : methodFact path t m ∈ t.methods
  caller : x.caller = (methodFact path t m).function.qualifiedName
  resolved : IsSelfCall s → (∃ g ∈ t.methods, g.name = x.callee) →
    x.resolved = some (memberName t.name x.callee)

/-- Every call in a method of a class that a fact is about matches the fact. -/
def CallersMatch (file : ParsedFile) : Prop :=
  ∀ c m s t x, InMethod file c m s → typeFact? file c = some t → callFact? file s = some x →
    Matches file.path t m s x

theorem memberName_left_inj {type type' member : String} :
    memberName type member = memberName type' member ↔ type = type' := by
  simp [memberName]

/-- Over ECMAScript, the types of a file are the facts about its places. -/
theorem types_ofTree (h : file.language.isEcmaScript) :
    (FileFacts.ofTree file).types = (Cursor.top file.tree).walk.filterMap (typeFact? file) := by
  obtain ⟨path, language, tree⟩ := file
  cases language <;> first | rfl | exact absurd h Bool.false_ne_true

/-- Over ECMAScript, the calls of a file are the facts about its places. -/
theorem calls_ofTree (h : file.language.isEcmaScript) :
    (FileFacts.ofTree file).calls = (Cursor.top file.tree).walk.filterMap (callFact? file) := by
  obtain ⟨path, language, tree⟩ := file
  cases language <;> first | rfl | exact absurd h Bool.false_ne_true

/-- The fact about a class is a type under one of its names, and has its methods. -/
theorem typeFact?_of_class (hc : c.kind ∈ classKinds) (ht : typeFact? file c = some t) :
    factName? c = some t.name ∧ ∀ m ∈ methodPlaces c, methodFact file.path t m ∈ t.methods := by
  rw [typeFact?, typeAt?_of_class hc, Option.map_map] at ht
  obtain ⟨name, hname, rfl⟩ := Option.map_eq_some_iff.mp ht
  have hsettled : ∀ listed, (settleExport listed (classType file.path c name)).name = name :=
    fun listed => classType_name c name
  refine ⟨hname.trans (congrArg some (hsettled _).symm), fun m hm => ?_⟩
  rw [methodFact, Function.comp_apply, hsettled]
  exact List.mem_map_of_mem (method_mem_classType hm)

/-- The call at a place is in the scope around it, and its receiver is that of a member of `this`
where it is a call of one. -/
theorem callSite?_eq_some {site : CallSite} (h : callSite? path s = some site) :
    (site.caller, site.enclosingType) = enclosingScope s ∧
      (IsSelfCall s → site.receiver = some "this" ∧ site.receiverIsSelf = true) := by
  simp only [callSite?, Option.bind_eq_bind] at h
  split at h
  · exact absurd h (by simp)
  · obtain ⟨-, -, h⟩ := Option.bind_eq_some_iff.mp h
    obtain ⟨function, hfunction, h⟩ := Option.bind_eq_some_iff.mp h
    obtain ⟨⟨callee, receiver⟩, hname, h⟩ := Option.bind_eq_some_iff.mp h
    obtain rfl := Option.some.inj h
    refine ⟨rfl, ?_⟩
    rintro ⟨function', hfunction', hkind, hobject⟩
    obtain rfl := Option.some.inj (hfunction.symm.trans hfunction')
    have hreceiver : receiver = some "this" := by
      simp only [calledName?, hkind, Option.map_eq_some_iff] at hname
      obtain ⟨property, -, hpair⟩ := hname
      exact (congrArg Prod.snd hpair).symm.trans hobject
    exact ⟨hreceiver, by simp [hreceiver]⟩

/-- A call of a method through the own object of a type that declares it is resolved to it. -/
theorem resolve?_self {functions : List Function} {types : List TypeDecl} {site : CallSite}
    {receiver : String} (hreceiver : site.receiver = some receiver)
    (hself : site.receiverIsSelf = true) (ht : t ∈ types) (htype : site.enclosingType = some t.name)
    (hm : ∃ g ∈ t.methods, g.name = site.callee) :
    (Symbols.ofFacts functions types).resolve? site = some (memberName t.name site.callee) := by
  obtain ⟨g, hg, hname⟩ := hm
  have hmem : (t.name, site.callee) ∈ (Symbols.ofFacts functions types).methods :=
    List.mem_flatMap.mpr ⟨t, ht, List.mem_map.mpr ⟨g, hg, by rw [hname]⟩⟩
  rw [Symbols.resolve?, hreceiver, htype]
  simp [hself, Symbols.method?, hmem]

/-- **A call in a method matches the fact about its class if and only if the names of the class
agree.** -/
theorem matches_iff (hl : file.language.isEcmaScript) (h : InMethod file c m s)
    (ht : typeFact? file c = some t) (hx : callFact? file s = some x) :
    Matches file.path t m s x ↔ NamesAgree c := by
  obtain ⟨hname, hmethods⟩ := typeFact?_of_class h.class_kind ht
  obtain ⟨site, hsite, rfl⟩ := Option.map_eq_some_iff.mp hx
  obtain ⟨hscope, hself⟩ := callSite?_eq_some hsite
  have hopens := scopeAt?_of_mem_methodPlaces h.class_kind h.method_place
  rw [enclosingScope_of_nearest h.nearest hopens] at hscope
  obtain ⟨hcaller, htype⟩ := Prod.mk.inj hscope
  have hmem : t ∈ (FileFacts.ofTree file).types := by
    rw [types_ofTree hl]
    exact List.mem_filterMap.mpr ⟨c, h.class_visited, ht⟩
  have hsame : site.caller = (methodFact file.path t m).function.qualifiedName ↔
      className c = t.name := by
    rw [hcaller]
    exact memberName_left_inj
  -- the caller decides: where it is right the class is known by its name, so calls are resolved
  rw [← className_eq_iff hname, ← hsame]
  refine ⟨fun hmatches => hmatches.caller, fun hagree => ⟨hmethods m h.method_place, hagree, ?_⟩⟩
  intro hthis hdeclared
  obtain ⟨hreceiver, hthis⟩ := hself hthis
  exact resolve?_self hreceiver hthis hmem (htype.trans (congrArg some (hsame.mp hagree))) hdeclared

/-- **The calls in the methods of the classes of a file match the facts about these if and only if
the names of every class that calls something in its methods agree**, in every language of the
family and for every tree. -/
theorem callersMatch_iff (file : ParsedFile) (hl : file.language.isEcmaScript) :
    ((FileFacts.ofTree file).types = (Cursor.top file.tree).walk.filterMap (typeFact? file) ∧
      (FileFacts.ofTree file).calls = (Cursor.top file.tree).walk.filterMap (callFact? file)) ∧
    (CallersMatch file ↔
      ∀ c m s t x, InMethod file c m s → typeFact? file c = some t → callFact? file s = some x →
        NamesAgree c) := by
  refine ⟨⟨types_ofTree hl, calls_ofTree hl⟩, fun h => ?_, fun h => ?_⟩
  · intro c m s t x hin ht hx
    exact (matches_iff hl hin ht hx).mp (h c m s t x hin ht hx)
  · intro c m s t x hin ht hx
    exact (matches_iff hl hin ht hx).mpr (h c m s t x hin ht hx)

/-- A class expression that is bound to its own name. -/
def selfNamed : ParsedFile where
  path := "src/job.js"
  language := .javascript
  tree := parseSource .javascript "const A = class A { run() { this.stop(); } stop() {} };"

/-- The names of a class that is bound to its own one agree, so its calls match. -/
theorem callersMatch_selfNamed :
    (FileFacts.ofTree selfNamed).calls.map (fun x => (x.caller, x.resolved)) =
        [("A.run", some "A.stop")] ∧
      CallersMatch selfNamed := by
  have hfile : (FileFacts.ofTree selfNamed).calls.map (fun x => (x.caller, x.resolved)) =
        [("A.run", some "A.stop")] ∧
      ∀ c ∈ (Cursor.top selfNamed.tree).walk, c.kind ∈ classKinds → NamesAgree c := by
    decide +kernel
  obtain ⟨hcalls, hagree⟩ := hfile
  refine ⟨hcalls, (callersMatch_iff selfNamed rfl).2.mpr ?_⟩
  intro c m s t x hin _ _
  exact hagree c hin.class_visited hin.class_kind

/-! ## 5. A class that is known by two names -/

/-- What climbing from a visited place arrives at: a method, the body of a class, the class. -/
theorem InMethod.of_parents {body : Cursor} (hs : s ∈ (Cursor.top file.tree).walk)
    (hm : nearestFunction? s = some m) (hbody : m.parent = some body) (hc : body.parent = some c)
    (hmethod : m.kind = "method_definition" ∧ m.node.named = true)
    (hplace : body.kind = "class_body" ∧ body.node.field = some "body")
    (hclass : c.kind ∈ classKinds ∧ c.node.children.countP (·.field == some "body") = 1) :
    InMethod file c m s := by
  have hmv : m ∈ (Cursor.top file.tree).walk :=
    Cursor.mem_walk_of_mem_ancestors hs (List.mem_of_find?_eq_some hm)
  have hbodyv : body ∈ (Cursor.top file.tree).walk := by
    refine Cursor.mem_walk_of_mem_ancestors hmv ?_
    rw [Cursor.ancestors_of_parent hbody]
    exact List.mem_cons_self
  have hcv : c ∈ (Cursor.top file.tree).walk := by
    refine Cursor.mem_walk_of_mem_ancestors hbodyv ?_
    rw [Cursor.ancestors_of_parent hc]
    exact List.mem_cons_self
  have hfield : c.field? "body" = some body :=
    Cursor.field?_eq_some_of_unique ((Cursor.placed_of_mem_walk hbodyv).mem_children hc) hplace.2
      hclass.2
  have hchild : m ∈ body.children := (Cursor.placed_of_mem_walk hmv).mem_children hbody
  refine ⟨hcv, hclass.1, ?_, hs, hm⟩
  rw [methodPlaces, hfield]
  simp only [if_pos hplace.1, Cursor.namedChildren, List.mem_filter, beq_iff_eq]
  exact ⟨⟨hchild, hmethod.2⟩, hmethod.1⟩

/-- A class expression that is bound to a name and has another one of its own. -/
def renamed : ParsedFile where
  path := "src/job.js"
  language := .javascript
  tree := parseSource .javascript "const A = class B { run() { this.stop(); } stop() {} };"

/-- The fact about the class is about `A`, and the call in its method has the caller `B.run` and is
resolved to nothing. -/
theorem not_callersMatch_renamed :
    (FileFacts.ofTree renamed).types.map (fun t => (t.name, t.methods.map (·.name))) =
        [("A", ["run", "stop"])] ∧
      (FileFacts.ofTree renamed).calls.map (fun x => (x.caller, x.callee, x.resolved)) =
        [("B.run", "stop", none)] ∧
      ¬ CallersMatch renamed := by
  have hfile : (FileFacts.ofTree renamed).types.map (fun t => (t.name, t.methods.map (·.name))) =
        [("A", ["run", "stop"])] ∧
      (FileFacts.ofTree renamed).calls.map (fun x => (x.caller, x.callee, x.resolved)) =
        [("B.run", "stop", none)] ∧
      ((Cursor.top renamed.tree).walk.find? (·.kind == "call_expression")).any fun s =>
        (nearestFunction? s).any fun m => m.parent.any fun body => body.parent.any fun c =>
          (m.kind = "method_definition" ∧ m.node.named = true) ∧
            (body.kind = "class_body" ∧ body.node.field = some "body") ∧
            (c.kind = "class" ∧ c.node.children.countP (·.field == some "body") = 1) ∧
            (c.node.fieldText? "name" = some "B" ∧ boundName? c = some "A") ∧
            (typeFact? renamed c).isSome ∧ (callFact? renamed s).isSome := by
    decide +kernel
  obtain ⟨htypes, hcalls, hplaces⟩ := hfile
  refine ⟨htypes, hcalls, fun hall => ?_⟩
  simp only [Option.any_eq_true, decide_eq_true_eq] at hplaces
  obtain ⟨s, hs, m, hm, body, hbody, c, hc, hmethod, hplace, hclass, hnames, ht, hx⟩ := hplaces
  obtain ⟨hclass, hone⟩ := hclass
  obtain ⟨hown, hbound⟩ := hnames
  have hin : InMethod renamed c m s :=
    .of_parents (List.mem_of_find?_eq_some hs) hm hbody hc hmethod hplace
      ⟨hclass ▸ by decide, hone⟩
  obtain ⟨t, ht⟩ := Option.isSome_iff_exists.mp ht
  obtain ⟨x, hx⟩ := Option.isSome_iff_exists.mp hx
  have hagree : NamesAgree c := (matches_iff rfl hin ht hx).mp (hall c m s t x hin ht hx)
  rw [NamesAgree, if_pos hclass] at hagree
  exact absurd (hagree "B" hown "A" hbound) (by decide)

end Codemap.Facts.EcmaScript
