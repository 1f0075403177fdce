/-
# Resolved calls name functions of their file

A call is resolved against pairs of a type and a method, and the name that it is resolved to is put
together from the two.  The facts about methods carry a qualified name of their own, which every
language makes in its own way: while the members of a class are read, or, for methods that stand
outside of their type, when they are attached to it.  The two names are the same because every step
that builds a type qualifies its methods with the name that the type has (`TypeDecl.Qualifies`), and
no step changes that name.

Main statement: `resolved_declared`.  What a call is resolved to is a function of the file or a
method of one of its types, so where the call is followed in a diagram it is never looked up by its
bare name.
-/
import Codemap.Diagram.Sequence
import Codemap.Facts.Analysis

namespace Codemap

open Codemap.Syntax

/-! ## 1. Types that qualify their methods -/

namespace TypeDecl

/-- Every method is qualified with the name of the type. -/
def Qualifies (t : TypeDecl) : Prop :=
  ∀ m ∈ t.methods, m.function.qualifiedName = memberName t.name m.name

variable {t t' : TypeDecl}

theorem qualifies_of_methods_eq_nil (h : t.methods = []) : t.Qualifies := by
  intro m hm
  rw [h] at hm
  exact absurd hm List.not_mem_nil

/-- The name and the methods of a type are all that matters. -/
theorem Qualifies.congr (h : t.Qualifies) (hname : t'.name = t.name)
    (hmethods : t'.methods = t.methods) : t'.Qualifies := by
  intro m hm
  rw [hname]
  exact h m (hmethods ▸ hm)

/-- A type may get a method that is qualified with its name. -/
theorem Qualifies.concat (h : t.Qualifies) {m : Method} (hname : t'.name = t.name)
    (hmethods : t'.methods = t.methods ++ [m])
    (hm : m.function.qualifiedName = memberName t.name m.name) : t'.Qualifies := by
  intro g hg
  rw [hname]
  rw [hmethods, List.mem_append, List.mem_singleton] at hg
  rcases hg with hg | rfl
  · exact h g hg
  · exact hm

/-- What each step of a fold keeps qualified stays qualified. -/
theorem Qualifies.foldl {α : Type} {f : TypeDecl → α → TypeDecl}
    (hf : ∀ (t : TypeDecl) (a : α), t.Qualifies → (f t a).Qualifies) (xs : List α)
    (h : t.Qualifies) : (xs.foldl f t).Qualifies := by
  induction xs generalizing t with
  | nil => exact h
  | cons x xs ih => exact ih (hf t x h)

end TypeDecl

namespace Facts

variable {t : TypeDecl} {path : String} {tree : Node}

/-! ## 2. ECMAScript -/

namespace EcmaScript

theorem qualifies_addMember (t : TypeDecl) (c : Cursor) (h : t.Qualifies) :
    (addMember path t c).Qualifies := by
  rw [addMember]
  split
  · exact h.concat rfl rfl rfl
  · exact h.concat rfl rfl rfl
  · exact h.congr rfl rfl
  · exact h.congr rfl rfl
  · exact h

theorem qualifies_addSignature (t : TypeDecl) (c : Cursor) (h : t.Qualifies) :
    (addSignature path t c).Qualifies := by
  rw [addSignature]
  split
  · split
    · exact h.congr rfl rfl
    · exact h
  · exact h.concat rfl rfl rfl
  · exact h

theorem qualifies_classType (c : Cursor) (name : String) : (classType path c name).Qualifies := by
  simp only [classType]
  split
  · exact (TypeDecl.qualifies_of_methods_eq_nil rfl).foldl qualifies_addMember _
  · exact TypeDecl.qualifies_of_methods_eq_nil rfl

theorem qualifies_interfaceType (c : Cursor) : (interfaceType path c).Qualifies := by
  simp only [interfaceType]
  split
  · exact (TypeDecl.qualifies_of_methods_eq_nil rfl).foldl qualifies_addSignature _
  · exact TypeDecl.qualifies_of_methods_eq_nil rfl

theorem qualifies_aliasType (c : Cursor) : (aliasType path c).Qualifies := by
  simp only [aliasType]
  split
  · split
    · exact (TypeDecl.qualifies_of_methods_eq_nil rfl).foldl qualifies_addSignature _
    · exact TypeDecl.qualifies_of_methods_eq_nil rfl
  · exact TypeDecl.qualifies_of_methods_eq_nil rfl

theorem qualifies_enumType (c : Cursor) : (enumType path c).Qualifies := by
  simp only [enumType]
  split <;> exact TypeDecl.qualifies_of_methods_eq_nil rfl

theorem qualifies_typeAt {c : Cursor} (h : typeAt? path c = some t) : t.Qualifies := by
  rw [typeAt?] at h
  split at h
  · exact Option.some.inj h ▸ qualifies_classType c _
  · exact Option.some.inj h ▸ qualifies_classType c _
  · obtain ⟨name, -, rfl⟩ := Option.map_eq_some_iff.mp h
    exact qualifies_classType c name
  · exact Option.some.inj h ▸ qualifies_interfaceType c
  · exact Option.some.inj h ▸ qualifies_enumType c
  · exact Option.some.inj h ▸ qualifies_aliasType c
  · exact absurd h.symm (Option.some_ne_none t)

/-- Whether a type is exported does not matter for the names of its methods. -/
theorem qualifies_settleExport (listed : List String) (h : t.Qualifies) :
    (settleExport listed t).Qualifies := by
  intro m hm
  obtain ⟨g, hg, rfl⟩ := List.mem_map.mp hm
  exact h g hg

theorem qualifies_of_mem_types (h : t ∈ types path tree) : t.Qualifies := by
  obtain ⟨c, -, hc⟩ := List.mem_filterMap.mp h
  obtain ⟨s, hs, rfl⟩ := Option.map_eq_some_iff.mp hc
  exact qualifies_settleExport _ (qualifies_typeAt hs)

end EcmaScript

/-! ## 3. Java -/

namespace Java

theorem qualifies_addMember (t : TypeDecl) (c : Cursor) (h : t.Qualifies) :
    (addMember path t c).Qualifies := by
  rw [addMember]
  split
  · split
    · exact h.congr rfl rfl
    · exact h
  · exact h.concat rfl rfl rfl
  · exact h.concat rfl rfl rfl
  · exact h.congr rfl rfl
  · exact h.congr rfl rfl
  · exact h

theorem qualifies_of_mem_types (h : t ∈ types path tree) : t.Qualifies := by
  obtain ⟨c, -, hc⟩ := List.mem_filterMap.mp h
  rw [typeAt?] at hc
  split at hc
  · obtain ⟨name, -, rfl⟩ := Option.map_eq_some_iff.mp hc
    dsimp only
    split
    · exact (TypeDecl.qualifies_of_methods_eq_nil rfl).foldl qualifies_addMember _
    · exact TypeDecl.qualifies_of_methods_eq_nil rfl
  · exact absurd hc.symm (Option.some_ne_none t)

end Java

/-! ## 4. Python -/

namespace Python

/-- Arguments of a class change neither its name, nor its members, nor where it stands. -/
theorem addBase_keeps (t : TypeDecl) (argument : Node) :
    (addBase t argument).name = t.name ∧ (addBase t argument).methods = t.methods ∧
      (addBase t argument).properties = t.properties ∧
      (addBase t argument).location = t.location := by
  simp only [addBase]
  split <;> simp only [apply_ite TypeDecl.name, apply_ite TypeDecl.methods,
    apply_ite TypeDecl.properties, apply_ite TypeDecl.location, ite_self, and_self]

theorem qualifies_addBase (t : TypeDecl) (argument : Node) (h : t.Qualifies) :
    (addBase t argument).Qualifies := by
  obtain ⟨hname, hmethods, -⟩ := addBase_keeps t argument
  exact h.congr hname hmethods

/-- Properties change neither the name nor the methods of a type. -/
theorem foldl_addProperty (ps : List Property) (t : TypeDecl) :
    (ps.foldl addProperty t).name = t.name ∧ (ps.foldl addProperty t).methods = t.methods := by
  induction ps generalizing t with
  | nil => exact ⟨rfl, rfl⟩
  | cons p ps ih =>
    obtain ⟨hname, hmethods⟩ := ih (addProperty t p)
    rw [List.foldl_cons, hname, hmethods, addProperty]
    split <;> exact ⟨rfl, rfl⟩

theorem qualifies_addMethod (t : TypeDecl) (definition : Cursor) (h : t.Qualifies) :
    (addMethod path t definition).Qualifies := by
  have hadd := foldl_addProperty (instanceProperties path definition.node)
  simp only [addMethod]
  split
  · exact h.concat (hadd _).1 (congrArg (· ++ _) (hadd _).2) rfl
  · exact h.concat rfl rfl rfl

theorem qualifies_addStatement (t : TypeDecl) (stmt : Cursor) (h : t.Qualifies) :
    (addStatement path t stmt).Qualifies := by
  rw [addStatement]
  split
  · exact qualifies_addMethod t stmt h
  · split
    · split
      · exact qualifies_addMethod t _ h
      · exact h
    · exact h
  · split
    next p _ =>
      obtain ⟨hname, hmethods⟩ := foldl_addProperty [p] t
      exact h.congr hname hmethods
    next => exact h
  · exact h

theorem qualifies_of_mem_types (h : t ∈ types path tree) : t.Qualifies := by
  obtain ⟨c, -, hc⟩ := List.mem_filterMap.mp h
  simp only [classType?, Option.bind_eq_bind] at hc
  split at hc
  · exact absurd hc (by simp)
  · obtain ⟨-, -, hc⟩ := Option.bind_eq_some_iff.mp hc
    obtain ⟨name, -, hc⟩ := Option.bind_eq_some_iff.mp hc
    obtain rfl := Option.some.inj hc
    split
    · refine TypeDecl.Qualifies.foldl qualifies_addStatement _ ?_
      split
      · exact (TypeDecl.qualifies_of_methods_eq_nil rfl).foldl qualifies_addBase _
      · exact TypeDecl.qualifies_of_methods_eq_nil rfl
    · split
      · exact (TypeDecl.qualifies_of_methods_eq_nil rfl).foldl qualifies_addBase _
      · exact TypeDecl.qualifies_of_methods_eq_nil rfl

end Python

/-! ## 5. Go -/

namespace Go

theorem qualifies_addField (t : TypeDecl) (n : Node) (h : t.Qualifies) :
    (addField path t n).Qualifies := by
  rw [addField]
  split
  · dsimp only
    split <;> exact h.congr rfl rfl
  · exact h

theorem qualifies_addElement (t : TypeDecl) (c : Cursor) (h : t.Qualifies) :
    (addElement path t c).Qualifies := by
  rw [addElement]
  split
  · split
    · exact h.concat rfl rfl rfl
    · exact h
  · split
    · exact h.congr rfl rfl
    · exact h

theorem qualifies_typeOfSpec (s : Spec) : (typeOfSpec path s).Qualifies := by
  simp only [typeOfSpec]
  split
  · split
    · exact (TypeDecl.qualifies_of_methods_eq_nil rfl).foldl qualifies_addField _
    · exact TypeDecl.qualifies_of_methods_eq_nil rfl
  · split
    · exact (TypeDecl.qualifies_of_methods_eq_nil rfl).foldl qualifies_addElement _
    · exact TypeDecl.qualifies_of_methods_eq_nil rfl
  · exact TypeDecl.qualifies_of_methods_eq_nil rfl

/-- A method goes to a type of the name that it is qualified with. -/
theorem qualifies_attach {name : String} {m : Method}
    (hm : m.function.qualifiedName = memberName name m.name) {ts : List TypeDecl}
    (h : ∀ t ∈ ts, t.Qualifies) : ∀ t ∈ attach name m ts, t.Qualifies := by
  induction ts with
  | nil => exact h
  | cons s ts ih =>
    obtain ⟨hs, hts⟩ := List.forall_mem_cons.mp h
    rw [attach]
    split
    next howner =>
      -- the method was qualified before its type was found, with the name of the type
      have hname : s.name = name := by
        rw [Bool.and_eq_true, beq_iff_eq] at howner
        exact howner.1
      exact List.forall_mem_cons.mpr ⟨hs.concat rfl rfl (hname ▸ hm), hts⟩
    next => exact List.forall_mem_cons.mpr ⟨hs, ih hts⟩

theorem qualifies_attachMethod {ts : List TypeDecl} (c : Cursor) (h : ∀ t ∈ ts, t.Qualifies) :
    ∀ t ∈ attachMethod path ts c, t.Qualifies := by
  rw [attachMethod]
  split
  · split
    · exact qualifies_attach rfl h
    · exact h
  · exact h

theorem qualifies_of_mem_types (h : t ∈ types path tree) : t.Qualifies := by
  have hspecs : ∀ t ∈ (specs tree).map (typeOfSpec path), t.Qualifies := by
    intro t ht
    obtain ⟨s, -, rfl⟩ := List.mem_map.mp ht
    exact qualifies_typeOfSpec s
  exact List.foldlRecOn (motive := fun ts => ∀ t ∈ ts, t.Qualifies) _ _ hspecs
    (fun ts hts c _ => qualifies_attachMethod c hts) t h

end Go

end Facts

/-- **The types of a file qualify their methods**, whatever the language and the tree are. -/
theorem qualifies_of_mem_types {l : Language} {path : String} {tree : Node} {t : TypeDecl}
    (h : t ∈ (factReader l).types path tree) : t.Qualifies := by
  cases l with
  | typescript | tsx | javascript => exact Facts.EcmaScript.qualifies_of_mem_types h
  | python => exact Facts.Python.qualifies_of_mem_types h
  | java => exact Facts.Java.qualifies_of_mem_types h
  | go => exact Facts.Go.qualifies_of_mem_types h

/-! ## 6. What calls are resolved to -/

/-- A name is the qualified name of a function of the file, or of a method of one of its types. -/
def FileFacts.Declares (f : FileFacts) (name : String) : Prop :=
  (∃ g ∈ f.functions, g.qualifiedName = name) ∨
    ∃ t ∈ f.types, ∃ m ∈ t.methods, m.function.qualifiedName = name

namespace Symbols

variable {functions : List Function} {types : List TypeDecl} {c : CallSite} {type method q : String}

theorem function?_ofFacts {name : String}
    (h : (ofFacts functions types).function? name = some q) :
    ∃ g ∈ functions, g.qualifiedName = q := by
  rw [function?] at h
  split at h
  next hmem =>
    obtain rfl : name = q := Option.some.inj h
    exact List.mem_map.mp (List.contains_iff_mem.mp hmem)
  next => exact absurd h.symm (Option.some_ne_none q)

theorem method?_ofFacts (h : (ofFacts functions types).method? type method = some q) :
    ∃ t ∈ types, ∃ m ∈ t.methods, memberName t.name m.name = q := by
  rw [method?] at h
  split at h
  next hmem =>
    obtain ⟨t, ht, hpair⟩ := List.mem_flatMap.mp (List.contains_iff_mem.mp hmem)
    obtain ⟨m, hm, heq⟩ := List.mem_map.mp hpair
    obtain ⟨rfl, rfl⟩ := Prod.mk.inj heq
    exact ⟨t, ht, m, hm, Option.some.inj h⟩
  next => exact absurd h.symm (Option.some_ne_none q)

/-- A call is resolved to the name of a function, or to a name put together from those of a type
and one of its methods. -/
theorem resolve?_ofFacts (h : (ofFacts functions types).resolve? c = some q) :
    (∃ g ∈ functions, g.qualifiedName = q) ∨
      ∃ t ∈ types, ∃ m ∈ t.methods, memberName t.name m.name = q := by
  have henclosing : ∀ o : Option String,
      (o.bind fun t => (ofFacts functions types).method? t c.callee) = some q →
        ∃ t ∈ types, ∃ m ∈ t.methods, memberName t.name m.name = q := by
    intro o ho
    obtain ⟨t, -, ht⟩ := Option.bind_eq_some_iff.mp ho
    exact method?_ofFacts ht
  simp only [resolve?, Option.orElse_eq_orElse, Option.orElse_eq_or] at h
  split at h
  · rcases Option.or_eq_some_iff.mp h with h | ⟨-, h⟩
    · exact Or.inl (function?_ofFacts h)
    · exact Or.inr (henclosing _ h)
  · split at h
    · exact Or.inr (henclosing _ h)
    · rcases Option.or_eq_some_iff.mp h with h | ⟨-, h⟩
      · exact Or.inr (method?_ofFacts h)
      · exact Or.inl (function?_ofFacts h)

end Symbols

/-- The calls of a tree are those that stand in the text, resolved against the symbols. -/
theorem exists_site_of_mem_calls {l : Language} {path : String} {tree : Node} {symbols : Symbols}
    {x : Call} (h : x ∈ (factReader l).calls path tree symbols) : ∃ c, symbols.call c = x := by
  cases l with
  | typescript | tsx | javascript | python | java | go =>
    obtain ⟨place, -, hplace⟩ := List.mem_filterMap.mp h
    obtain ⟨c, -, hc⟩ := Option.map_eq_some_iff.mp hplace
    exact ⟨c, hc⟩

/-- What a call of a file is resolved to is declared in the file. -/
theorem declares_of_resolved {file : ParsedFile} {x : Call} (hx : x ∈ (FileFacts.ofTree file).calls)
    {q : String} (hq : x.resolved = some q) : (FileFacts.ofTree file).Declares q := by
  obtain ⟨c, rfl⟩ := exists_site_of_mem_calls hx
  rcases Symbols.resolve?_ofFacts hq with hfunction | ⟨t, ht, m, hm, hname⟩
  · exact Or.inl hfunction
  · exact Or.inr ⟨t, ht, m, hm, (qualifies_of_mem_types ht m hm).trans hname⟩

/-! ## 7. Where calls are followed -/

namespace Diagram.Sequence

/-- The first of the functions that has a qualified name in a file. -/
def qualified? (all : List Callable) (path q : String) : Option Callable :=
  all.find? fun g => g.path == path && g.function.qualifiedName == q

/-- What a file declares is among its functions. -/
theorem exists_callable_of_declares {f : FileFacts} {q : String} (h : f.Declares q) :
    ∃ g ∈ callables f, g.path = f.path ∧ g.function.qualifiedName = q := by
  rcases h with ⟨g, hg, hq⟩ | ⟨t, ht, m, hm, hq⟩
  · refine ⟨⟨f.path, g⟩, List.mem_map_of_mem (List.mem_append_left _ hg), rfl, hq⟩
  · refine ⟨⟨f.path, m.function⟩, List.mem_map_of_mem (List.mem_append_right _ ?_), rfl, hq⟩
    exact List.mem_flatMap.mpr ⟨t, ht, List.mem_map_of_mem hm⟩

/-- A call that is resolved to what its file declares lands on the function of that name. -/
theorem resolve?_eq_qualified? {files : List FileFacts} {f : FileFacts} (hf : f ∈ files) {x : Call}
    {q : String} (hq : x.resolved = some q) (h : f.Declares q) :
    ∃ g, qualified? (files.flatMap callables) f.path q = some g ∧
      resolve? (files.flatMap callables) f.path x = some g := by
  obtain ⟨g, hg, hpath, hname⟩ := exists_callable_of_declares h
  have hfound : (qualified? (files.flatMap callables) f.path q).isSome := by
    refine List.find?_isSome.mpr ⟨g, List.mem_flatMap.mpr ⟨f, hf, hg⟩, ?_⟩
    rw [hpath, hname, beq_self_eq_true, beq_self_eq_true, Bool.and_self]
  obtain ⟨g, hg⟩ := Option.isSome_iff_exists.mp hfound
  refine ⟨g, hg, ?_⟩
  rw [resolve?, hq]
  show (qualified? (files.flatMap callables) f.path q <|> _) = some g
  rw [hg]
  rfl

end Diagram.Sequence

/-- **What a call is resolved to is declared in its file**, by a function or by a method of a type,
in every language and for every tree.  So the diagram of calls finds it by its qualified name, with
whatever other files. -/
theorem resolved_declared (file : ParsedFile) :
    ∀ x ∈ (FileFacts.ofTree file).calls, ∀ q, x.resolved = some q →
      (FileFacts.ofTree file).Declares q ∧
      ∀ files : List FileFacts, FileFacts.ofTree file ∈ files →
        ∃ g, Diagram.Sequence.qualified? (files.flatMap Diagram.Sequence.callables) file.path q =
            some g ∧
          Diagram.Sequence.resolve? (files.flatMap Diagram.Sequence.callables) file.path x =
            some g := by
  intro x hx q hq
  have hdeclares := declares_of_resolved hx hq
  exact ⟨hdeclares, fun files hfiles =>
    Diagram.Sequence.resolve?_eq_qualified? hfiles hq hdeclares⟩

/-- A class with a method that calls another one. -/
def delegating : ParsedFile where
  path := "src/user.ts"
  language := .typescript
  tree := parseSource .typescript "class User { save() { this.validate(); } validate() {} }"

/-- The call of a method is resolved to it. -/
theorem resolved_declared_delegating :
    ∃ x ∈ (FileFacts.ofTree delegating).calls, x.resolved = some "User.validate" ∧
      (FileFacts.ofTree delegating).Declares "User.validate" ∧
      ∀ files : List FileFacts, FileFacts.ofTree delegating ∈ files →
        ∃ g, Diagram.Sequence.qualified? (files.flatMap Diagram.Sequence.callables)
            delegating.path "User.validate" = some g ∧
          Diagram.Sequence.resolve? (files.flatMap Diagram.Sequence.callables)
            delegating.path x = some g := by
  have hcalls : (FileFacts.ofTree delegating).calls.map (·.resolved) = [some "User.validate"] := by
    decide +kernel
  obtain ⟨x, hx, hq⟩ := List.mem_map.mp (hcalls ▸ List.mem_singleton_self (some "User.validate"))
  exact ⟨x, hx, hq, resolved_declared delegating x hx _ hq⟩

end Codemap
