/-
# Facts read back from data values

Every record of facts is written with a table of what it can do without (`mayLack`), and with what
is read when something of that is left out (`reset`): the members that are missing are at their
defaults, and everything else is what was written.  There is one lemma a record,
`ofData?_without`, and they follow the nesting of the records.  A method shares one object with its
function, so a function is read from its members with others behind them; no two members of that
object have one name (`Method.distinctKeys_toData`).

Lines and columns are written as counts of at most 64 bits, so what is written reads back for
locations that fit (`Location.Fits`).
-/
import Codemap.Facts.Data
import Codemap.Proofs.Json.Keys
import Codemap.Proofs.Json.Without

namespace Codemap

open Codemap.Json

variable {drop : Way → Bool}

/-! ## 1. Words -/

@[simp] theorem Visibility.ofData?_toData (v : Visibility) : ofData? v.toData = some v := by
  cases v <;> decide

@[simp] theorem TypeKind.ofData?_toData (k : TypeKind) : ofData? k.toData = some k := by
  cases k <;> decide

@[simp] theorem Language.ofData?_toData (l : Language) : ofData? l.toData = some l := by
  cases l <;> decide

/-! ## 2. Locations and parameters -/

/-- Whether the lines and columns of a location are counts of 64 bits. -/
def Location.Fits (l : Location) : Prop :=
  l.startLine < UInt64.size ∧ l.endLine < UInt64.size ∧
    l.startColumn < UInt64.size ∧ l.endColumn < UInt64.size
deriving Decidable

theorem Location.ofData?_toData {l : Location} (hl : l.Fits) : ofData? l.toData = some l := by
  obtain ⟨hstart, hend, hstartColumn, hendColumn⟩ := hl
  simp [ofData?, toData, object?, required, string?, ofNat, nat?, *]

@[simp] theorem Location.distinctKeys_toData (l : Location) : l.toData.distinctKeys = true := by
  simp [toData, distinctKeys_object, ofNat]

/-- What a parameter can do without. -/
def Parameter.mayLack : Way → Bool := Json.mayLack ["type", "isOptional", "defaultValue"] []

/-- The parameter with what is dropped at its default. -/
def Parameter.reset (drop : Way → Bool) (p : Parameter) : Parameter :=
  { p with
    type := defaultAt drop "type" none p.type
    isOptional := defaultAt drop "isOptional" false p.isOptional
    default := defaultAt drop "defaultValue" none p.default }

@[simp] theorem Parameter.reset_never (p : Parameter) : p.reset (fun _ => false) = p := by
  simp [reset]

theorem Parameter.ofData?_without (p : Parameter) (hdrop : ∀ way, drop way → mayLack way) :
    ofData? (p.toData.without drop) = some (p.reset drop) := by
  have hname : (p.toData.without drop).required "name" string? = some p.name :=
    (required_without hdrop rfl rfl).trans (by simp [required, toData])
  have htype : (p.toData.without drop).optional "type" string? =
      some (defaultAt drop "type" none p.type) := optional_without (by simp [toData])
  have hoptional : (p.toData.without drop).defaulted "isOptional" bool? false =
      some (defaultAt drop "isOptional" false p.isOptional) := defaulted_without (by simp [toData])
  have hdefault : (p.toData.without drop).optional "defaultValue" string? =
      some (defaultAt drop "defaultValue" none p.default) := optional_without (by simp [toData])
  rw [ofData?, hname, htype, hoptional, hdefault]
  rfl

theorem Parameter.distinctKeys_toData (p : Parameter) : p.toData.distinctKeys := by
  obtain ⟨_, type, _, default⟩ := p
  cases type <;> cases default <;> simp [toData, distinctKeys_object, omitted]

/-! ## 3. Functions and methods -/

/-- What a function can do without. -/
def Function.mayLack : Way → Bool :=
  Json.mayLack ["returnType", "docComment"] [("parameters", Parameter.mayLack)]

/-- The function with what is dropped at its default. -/
def Function.reset (drop : Way → Bool) (f : Function) : Function :=
  { f with
    parameters := f.parameters.mapIdx fun i p => p.reset (inItem drop "parameters" i)
    returnType := defaultAt drop "returnType" none f.returnType
    doc := defaultAt drop "docComment" none f.doc }

/-- What a method can do without; the members of its function are its own. -/
def Method.mayLack : Way → Bool :=
  Json.mayLack ["returnType", "docComment", "isAbstract"] [("parameters", Parameter.mayLack)]

/-- The method with what is dropped at its default. -/
def Method.reset (drop : Way → Bool) (m : Method) : Method :=
  { m with
    function := m.function.reset drop
    isAbstract := defaultAt drop "isAbstract" false m.isAbstract }

@[simp] theorem Function.reset_never (f : Function) : f.reset (fun _ => false) = f := by
  simp [reset]

/-- A function is read from its members, whatever other members stand behind them, if none of
those has the name of one that may be missing. -/
theorem Function.ofData?_members_without (f : Function) (hf : f.location.Fits)
    {more : List (String × Json)} (hreturn : (object more).member? "returnType" = none)
    (hdoc : (object more).member? "docComment" = none)
    (hdrop : ∀ way, drop way → Method.mayLack way) :
    ofData? ((object (f.members ++ more)).without drop) = some (f.reset drop) := by
  set j := object (f.members ++ more) with hj
  have hname : (j.without drop).required "name" string? = some f.name :=
    (required_without hdrop rfl rfl).trans (by simp [hj, required, members])
  have hqualified : (j.without drop).required "qualifiedName" string? = some f.qualifiedName :=
    (required_without hdrop rfl rfl).trans (by simp [hj, required, members])
  have hparameters : (j.without drop).required "parameters" (listOf Parameter.ofData?) =
      some (f.parameters.mapIdx fun i p => p.reset (inItem drop "parameters" i)) :=
    required_listOf_without (drop_member_of_kept hdrop "parameters" rfl) (by simp [hj, members])
      fun p _ i => p.ofData?_without (mayLack_of_inItem hdrop rfl i)
  have hreturns : (j.without drop).optional "returnType" string? =
      some (defaultAt drop "returnType" none f.returnType) :=
    optional_without (by simp [hj, members, hreturn])
  have hexported : (j.without drop).required "isExported" bool? = some f.isExported :=
    (required_without hdrop rfl rfl).trans (by simp [hj, required, members])
  have hasync : (j.without drop).required "isAsync" bool? = some f.isAsync :=
    (required_without hdrop rfl rfl).trans (by simp [hj, required, members])
  have hlocation : (j.without drop).required "location" Location.ofData? = some f.location :=
    (required_without hdrop rfl rfl).trans
      (by simp [hj, required, members, Location.ofData?_toData hf])
  have hcomment : (j.without drop).optional "docComment" string? =
      some (defaultAt drop "docComment" none f.doc) :=
    optional_without (by simp [hj, members, hdoc])
  rw [ofData?, hname, hqualified, hparameters, hreturns, hexported, hasync, hlocation, hcomment]
  rfl

theorem Function.ofData?_without (f : Function) (hf : f.location.Fits)
    (hdrop : ∀ way, drop way → mayLack way) :
    ofData? (f.toData.without drop) = some (f.reset drop) := by
  have hmethod : ∀ way, drop way → Method.mayLack way := by
    intro way h
    have hmay := hdrop way h
    match way with
    | [.member key] =>
      simp only [mayLack, Json.mayLack, List.contains_iff_mem] at hmay
      exact List.contains_iff_mem.mpr (List.mem_append_left ["isAbstract"] hmay)
    | .member _ :: .item _ :: _ => exact hmay
    | [] | .item _ :: _ | .member _ :: .member _ :: _ => exact hmay
  have h : ofData? ((object (f.members ++ [])).without drop) = some (f.reset drop) :=
    f.ofData?_members_without hf rfl rfl hmethod
  rwa [List.append_nil] at h

@[simp] theorem Method.reset_never (m : Method) : m.reset (fun _ => false) = m := by
  simp [reset]

theorem Method.ofData?_without (m : Method) (hm : m.function.location.Fits)
    (hdrop : ∀ way, drop way → mayLack way) :
    ofData? (m.toData.without drop) = some (m.reset drop) := by
  have hfunction : Function.ofData? (m.toData.without drop) = some (m.function.reset drop) :=
    m.function.ofData?_members_without hm rfl rfl hdrop
  have hvisibility : (m.toData.without drop).required "visibility" Visibility.ofData? =
      some m.visibility := (required_without hdrop rfl rfl).trans
    (by simp [required, toData, Function.members])
  have hstatic : (m.toData.without drop).required "isStatic" bool? = some m.isStatic :=
    (required_without hdrop rfl rfl).trans (by simp [required, toData, Function.members])
  have habstract : (m.toData.without drop).defaulted "isAbstract" bool? false =
      some (defaultAt drop "isAbstract" false m.isAbstract) :=
    defaulted_without (by simp [toData, Function.members])
  rw [ofData?, hfunction, hvisibility, hstatic, habstract]
  rfl

theorem Function.distinctKeys_toData (f : Function) : f.toData.distinctKeys := by
  have hparameters := distinctKeys_array_map fun p (_ : p ∈ f.parameters) => p.distinctKeys_toData
  obtain ⟨_, _, _, returnType, _, _, _, doc⟩ := f
  cases returnType <;> cases doc <;>
    simp [toData, members, distinctKeys_object, omitted, hparameters]

/-- No member of a method has the name of a member of its function. -/
theorem Method.distinctKeys_toData (m : Method) : m.toData.distinctKeys := by
  obtain ⟨f, _, _, _⟩ := m
  have hparameters := distinctKeys_array_map fun p (_ : p ∈ f.parameters) => p.distinctKeys_toData
  obtain ⟨_, _, _, returnType, _, _, _, doc⟩ := f
  cases returnType <;> cases doc <;>
    simp [toData, Visibility.toData, Function.members, distinctKeys_object, omitted, hparameters]

/-! ## 4. Properties and types -/

/-- What a property can do without. -/
def Property.mayLack : Way → Bool := Json.mayLack ["type", "isOptional"] []

/-- The property with what is dropped at its default. -/
def Property.reset (drop : Way → Bool) (p : Property) : Property :=
  { p with
    type := defaultAt drop "type" none p.type
    isOptional := defaultAt drop "isOptional" false p.isOptional }

@[simp] theorem Property.reset_never (p : Property) : p.reset (fun _ => false) = p := by
  simp [reset]

theorem Property.ofData?_without (p : Property) (hp : p.location.Fits)
    (hdrop : ∀ way, drop way → mayLack way) :
    ofData? (p.toData.without drop) = some (p.reset drop) := by
  have hname : (p.toData.without drop).required "name" string? = some p.name :=
    (required_without hdrop rfl rfl).trans (by simp [required, toData])
  have htype : (p.toData.without drop).optional "type" string? =
      some (defaultAt drop "type" none p.type) := optional_without (by simp [toData])
  have hvisibility : (p.toData.without drop).required "visibility" Visibility.ofData? =
      some p.visibility := (required_without hdrop rfl rfl).trans
    (by simp [required, toData])
  have hstatic : (p.toData.without drop).required "isStatic" bool? = some p.isStatic :=
    (required_without hdrop rfl rfl).trans (by simp [required, toData])
  have hoptional : (p.toData.without drop).defaulted "isOptional" bool? false =
      some (defaultAt drop "isOptional" false p.isOptional) := defaulted_without (by simp [toData])
  have hlocation : (p.toData.without drop).required "location" Location.ofData? =
      some p.location := (required_without hdrop rfl rfl).trans
    (by simp [required, toData, Location.ofData?_toData hp])
  rw [ofData?, hname, htype, hvisibility, hstatic, hoptional, hlocation]
  rfl

theorem Property.distinctKeys_toData (p : Property) : p.toData.distinctKeys := by
  obtain ⟨_, type, _, _, _, _⟩ := p
  cases type <;> simp [toData, Visibility.toData, distinctKeys_object, omitted]

/-- What a type can do without. -/
def TypeDecl.mayLack : Way → Bool :=
  Json.mayLack ["isExported", "docComment"]
    [("methods", Method.mayLack), ("properties", Property.mayLack)]

/-- The type with what is dropped at its default. -/
def TypeDecl.reset (drop : Way → Bool) (t : TypeDecl) : TypeDecl :=
  { t with
    isExported := defaultAt drop "isExported" false t.isExported
    methods := t.methods.mapIdx fun i m => m.reset (inItem drop "methods" i)
    properties := t.properties.mapIdx fun i p => p.reset (inItem drop "properties" i)
    doc := defaultAt drop "docComment" none t.doc }

/-- The locations of a type and its members. -/
def TypeDecl.locations (t : TypeDecl) : List Location :=
  t.location :: t.methods.map (·.function.location) ++ t.properties.map (·.location)

@[simp] theorem TypeDecl.reset_never (t : TypeDecl) : t.reset (fun _ => false) = t := by
  simp [reset]

theorem TypeDecl.ofData?_without (t : TypeDecl) (ht : ∀ l ∈ t.locations, l.Fits)
    (hdrop : ∀ way, drop way → mayLack way) :
    ofData? (t.toData.without drop) = some (t.reset drop) := by
  have hname : (t.toData.without drop).required "name" string? = some t.name :=
    (required_without hdrop rfl rfl).trans (by simp [required, toData])
  have hkind : (t.toData.without drop).required "kind" TypeKind.ofData? = some t.kind :=
    (required_without hdrop rfl rfl).trans (by simp [required, toData])
  have habstract : (t.toData.without drop).required "isAbstract" bool? = some t.isAbstract :=
    (required_without hdrop rfl rfl).trans (by simp [required, toData])
  have hexported : (t.toData.without drop).defaulted "isExported" bool? false =
      some (defaultAt drop "isExported" false t.isExported) := defaulted_without (by simp [toData])
  have hmethods : (t.toData.without drop).required "methods" (listOf Method.ofData?) =
      some (t.methods.mapIdx fun i m => m.reset (inItem drop "methods" i)) := by
    refine required_listOf_without (drop_member_of_kept hdrop "methods" rfl) (by simp [toData])
      fun m hm i => m.ofData?_without (ht _ ?_) (mayLack_of_inItem hdrop rfl i)
    exact List.mem_append_left _ (List.mem_cons_of_mem _ (List.mem_map_of_mem hm))
  have hproperties : (t.toData.without drop).required "properties" (listOf Property.ofData?) =
      some (t.properties.mapIdx fun i p => p.reset (inItem drop "properties" i)) := by
    refine required_listOf_without (drop_member_of_kept hdrop "properties" rfl) (by simp [toData])
      fun p hp i => p.ofData?_without (ht _ ?_) (mayLack_of_inItem hdrop rfl i)
    exact List.mem_append_right _ (List.mem_map_of_mem hp)
  have hsupertypes : (t.toData.without drop).required "extendsFrom" (listOf string?) =
      some t.supertypes := (required_without hdrop rfl rfl).trans
    (by simp [required, toData])
  have hinterfaces : (t.toData.without drop).required "implements" (listOf string?) =
      some t.interfaces := (required_without hdrop rfl rfl).trans
    (by simp [required, toData])
  have hlocation : (t.toData.without drop).required "location" Location.ofData? =
      some t.location := (required_without hdrop rfl rfl).trans
    (by simp [required, toData, Location.ofData?_toData (ht _ List.mem_cons_self)])
  have hdoc : (t.toData.without drop).optional "docComment" string? =
      some (defaultAt drop "docComment" none t.doc) := optional_without (by simp [toData])
  rw [ofData?, hname, hkind, habstract, hexported, hmethods, hproperties, hsupertypes, hinterfaces,
    hlocation, hdoc]
  rfl

theorem TypeDecl.distinctKeys_toData (t : TypeDecl) : t.toData.distinctKeys := by
  have hmethods := distinctKeys_array_map fun m (_ : m ∈ t.methods) => m.distinctKeys_toData
  have hproperties := distinctKeys_array_map fun p (_ : p ∈ t.properties) => p.distinctKeys_toData
  obtain ⟨_, _, _, _, _, _, _, _, _, doc⟩ := t
  cases doc <;>
    simp [toData, TypeKind.toData, distinctKeys_object, omitted, hmethods, hproperties]

/-! ## 5. Imports, exports and calls -/

/-- What a binding can do without. -/
def Binding.mayLack : Way → Bool := Json.mayLack ["alias", "isDefault", "isNamespace"] []

/-- The binding with what is dropped at its default. -/
def Binding.reset (drop : Way → Bool) (b : Binding) : Binding :=
  { b with
    alias? := defaultAt drop "alias" none b.alias?
    isDefault := defaultAt drop "isDefault" false b.isDefault
    isNamespace := defaultAt drop "isNamespace" false b.isNamespace }

@[simp] theorem Binding.reset_never (b : Binding) : b.reset (fun _ => false) = b := by
  simp [reset]

theorem Binding.ofData?_without (b : Binding) (hdrop : ∀ way, drop way → mayLack way) :
    ofData? (b.toData.without drop) = some (b.reset drop) := by
  have hname : (b.toData.without drop).required "name" string? = some b.name :=
    (required_without hdrop rfl rfl).trans (by simp [required, toData])
  have halias : (b.toData.without drop).optional "alias" string? =
      some (defaultAt drop "alias" none b.alias?) := optional_without (by simp [toData])
  have hdefault : (b.toData.without drop).defaulted "isDefault" bool? false =
      some (defaultAt drop "isDefault" false b.isDefault) := defaulted_without (by simp [toData])
  have hnamespace : (b.toData.without drop).defaulted "isNamespace" bool? false =
      some (defaultAt drop "isNamespace" false b.isNamespace) :=
    defaulted_without (by simp [toData])
  rw [ofData?, hname, halias, hdefault, hnamespace]
  rfl

theorem Binding.distinctKeys_toData (b : Binding) : b.toData.distinctKeys := by
  obtain ⟨_, alias?, _, _⟩ := b
  cases alias? <;> simp [toData, distinctKeys_object, omitted]

/-- What an import can do without. -/
def Import.mayLack : Way → Bool := Json.mayLack [] [("bindings", Binding.mayLack)]

/-- The import with what is dropped at its default. -/
def Import.reset (drop : Way → Bool) (i : Import) : Import :=
  { i with bindings := i.bindings.mapIdx fun k b => b.reset (inItem drop "bindings" k) }

@[simp] theorem Import.reset_never (i : Import) : i.reset (fun _ => false) = i := by
  simp [reset]

theorem Import.ofData?_without (i : Import) (hi : i.location.Fits)
    (hdrop : ∀ way, drop way → mayLack way) :
    ofData? (i.toData.without drop) = some (i.reset drop) := by
  have hsource : (i.toData.without drop).required "source" string? = some i.source :=
    (required_without hdrop rfl rfl).trans (by simp [required, toData])
  have hbindings : (i.toData.without drop).required "bindings" (listOf Binding.ofData?) =
      some (i.bindings.mapIdx fun k b => b.reset (inItem drop "bindings" k)) :=
    required_listOf_without (drop_member_of_kept hdrop "bindings" rfl) (by simp [toData])
      fun b _ k => b.ofData?_without (mayLack_of_inItem hdrop rfl k)
  have hlocation : (i.toData.without drop).required "location" Location.ofData? =
      some i.location := (required_without hdrop rfl rfl).trans
    (by simp [required, toData, Location.ofData?_toData hi])
  rw [ofData?, hsource, hbindings, hlocation]
  rfl

theorem Import.distinctKeys_toData (i : Import) : i.toData.distinctKeys := by
  have hbindings := distinctKeys_array_map fun b (_ : b ∈ i.bindings) => b.distinctKeys_toData
  simp [toData, distinctKeys_object, hbindings]

/-- What an export can do without. -/
def Export.mayLack : Way → Bool := Json.mayLack ["source"] [("bindings", Binding.mayLack)]

/-- The export with what is dropped at its default. -/
def Export.reset (drop : Way → Bool) (e : Export) : Export :=
  { e with
    source := defaultAt drop "source" none e.source
    bindings := e.bindings.mapIdx fun i b => b.reset (inItem drop "bindings" i) }

@[simp] theorem Export.reset_never (e : Export) : e.reset (fun _ => false) = e := by
  simp [reset]

theorem Export.ofData?_without (e : Export) (he : e.location.Fits)
    (hdrop : ∀ way, drop way → mayLack way) :
    ofData? (e.toData.without drop) = some (e.reset drop) := by
  have hsource : (e.toData.without drop).optional "source" string? =
      some (defaultAt drop "source" none e.source) := optional_without (by simp [toData])
  have hbindings : (e.toData.without drop).required "bindings" (listOf Binding.ofData?) =
      some (e.bindings.mapIdx fun i b => b.reset (inItem drop "bindings" i)) :=
    required_listOf_without (drop_member_of_kept hdrop "bindings" rfl) (by simp [toData])
      fun b _ i => b.ofData?_without (mayLack_of_inItem hdrop rfl i)
  have hlocation : (e.toData.without drop).required "location" Location.ofData? =
      some e.location := (required_without hdrop rfl rfl).trans
    (by simp [required, toData, Location.ofData?_toData he])
  rw [ofData?, hsource, hbindings, hlocation]
  rfl

theorem Export.distinctKeys_toData (e : Export) : e.toData.distinctKeys := by
  have hbindings := distinctKeys_array_map fun b (_ : b ∈ e.bindings) => b.distinctKeys_toData
  obtain ⟨source, _, _⟩ := e
  cases source <;> simp [toData, distinctKeys_object, omitted, hbindings]

/-- What a call can do without. -/
def Call.mayLack : Way → Bool := Json.mayLack ["resolvedCallee"] []

/-- The call with what is dropped at its default. -/
def Call.reset (drop : Way → Bool) (c : Call) : Call :=
  { c with resolved := defaultAt drop "resolvedCallee" none c.resolved }

@[simp] theorem Call.reset_never (c : Call) : c.reset (fun _ => false) = c := by
  simp [reset]

theorem Call.ofData?_without (c : Call) (hc : c.location.Fits)
    (hdrop : ∀ way, drop way → mayLack way) :
    ofData? (c.toData.without drop) = some (c.reset drop) := by
  have hcaller : (c.toData.without drop).required "caller" string? = some c.caller :=
    (required_without hdrop rfl rfl).trans (by simp [required, toData])
  have hcallee : (c.toData.without drop).required "callee" string? = some c.callee :=
    (required_without hdrop rfl rfl).trans (by simp [required, toData])
  have hresolved : (c.toData.without drop).optional "resolvedCallee" string? =
      some (defaultAt drop "resolvedCallee" none c.resolved) := optional_without (by simp [toData])
  have harguments : (c.toData.without drop).required "arguments" (listOf string?) =
      some c.arguments := (required_without hdrop rfl rfl).trans
    (by simp [required, toData])
  have hlocation : (c.toData.without drop).required "location" Location.ofData? =
      some c.location := (required_without hdrop rfl rfl).trans
    (by simp [required, toData, Location.ofData?_toData hc])
  rw [ofData?, hcaller, hcallee, hresolved, harguments, hlocation]
  rfl

theorem Call.distinctKeys_toData (c : Call) : c.toData.distinctKeys := by
  obtain ⟨_, _, resolved, _, _⟩ := c
  cases resolved <;> simp [toData, distinctKeys_object, omitted]

/-! ## 6. Files -/

namespace FileFacts

/-- What the facts about a file can do without. -/
def mayLack : Way → Bool :=
  Json.mayLack ["calls", "hasSyntaxErrors"]
    [("functions", Function.mayLack), ("classes", TypeDecl.mayLack), ("imports", Import.mayLack),
      ("exports", Export.mayLack), ("calls", Call.mayLack)]

/-- The facts with what is dropped at its default. -/
def reset (drop : Way → Bool) (f : FileFacts) : FileFacts :=
  { f with
    functions := f.functions.mapIdx fun i g => g.reset (inItem drop "functions" i)
    types := f.types.mapIdx fun i t => t.reset (inItem drop "classes" i)
    imports := f.imports.mapIdx fun i x => x.reset (inItem drop "imports" i)
    exports := f.exports.mapIdx fun i e => e.reset (inItem drop "exports" i)
    calls := defaultAt drop "calls" [] (f.calls.mapIdx fun i c => c.reset (inItem drop "calls" i))
    hasSyntaxErrors := defaultAt drop "hasSyntaxErrors" false f.hasSyntaxErrors }

@[simp] theorem reset_never (f : FileFacts) : f.reset (fun _ => false) = f := by
  simp [reset]

/-- The locations of all facts about a file. -/
def locations (f : FileFacts) : List Location :=
  f.functions.map (·.location) ++ f.types.flatMap TypeDecl.locations
    ++ f.imports.map (·.location) ++ f.exports.map (·.location) ++ f.calls.map (·.location)

theorem ofData?_without (f : FileFacts) (hf : ∀ l ∈ f.locations, l.Fits)
    (hdrop : ∀ way, drop way → mayLack way) :
    ofData? (f.toData.without drop) = some (f.reset drop) := by
  simp only [locations, List.forall_mem_append, List.forall_mem_map, List.forall_mem_flatMap] at hf
  obtain ⟨⟨⟨⟨hfunction, htype⟩, himport⟩, hexport⟩, hcall⟩ := hf
  have hpath : (f.toData.without drop).required "filePath" string? = some f.path :=
    (required_without hdrop rfl rfl).trans (by simp [required, toData])
  have hlanguage : (f.toData.without drop).required "language" Language.ofData? =
      some f.language := (required_without hdrop rfl rfl).trans (by simp [required, toData])
  have hfunctions : (f.toData.without drop).required "functions" (listOf Function.ofData?) =
      some (f.functions.mapIdx fun i g => g.reset (inItem drop "functions" i)) :=
    required_listOf_without (drop_member_of_kept hdrop "functions" rfl) (by simp [toData])
      fun g hg i => g.ofData?_without (hfunction g hg) (mayLack_of_inItem hdrop rfl i)
  have htypes : (f.toData.without drop).required "classes" (listOf TypeDecl.ofData?) =
      some (f.types.mapIdx fun i t => t.reset (inItem drop "classes" i)) :=
    required_listOf_without (drop_member_of_kept hdrop "classes" rfl) (by simp [toData])
      fun t ht i => t.ofData?_without (htype t ht) (mayLack_of_inItem hdrop rfl i)
  have himports : (f.toData.without drop).required "imports" (listOf Import.ofData?) =
      some (f.imports.mapIdx fun i x => x.reset (inItem drop "imports" i)) :=
    required_listOf_without (drop_member_of_kept hdrop "imports" rfl) (by simp [toData])
      fun x hx i => x.ofData?_without (himport x hx) (mayLack_of_inItem hdrop rfl i)
  have hexports : (f.toData.without drop).required "exports" (listOf Export.ofData?) =
      some (f.exports.mapIdx fun i e => e.reset (inItem drop "exports" i)) :=
    required_listOf_without (drop_member_of_kept hdrop "exports" rfl) (by simp [toData])
      fun e he i => e.ofData?_without (hexport e he) (mayLack_of_inItem hdrop rfl i)
  have hcalls : (f.toData.without drop).defaulted "calls" (listOf Call.ofData?) [] =
      some (defaultAt drop "calls" []
        (f.calls.mapIdx fun i c => c.reset (inItem drop "calls" i))) :=
    defaulted_listOf_without (by simp [toData])
      fun c hc i => c.ofData?_without (hcall c hc) (mayLack_of_inItem hdrop rfl i)
  have herrors : (f.toData.without drop).defaulted "hasSyntaxErrors" bool? false =
      some (defaultAt drop "hasSyntaxErrors" false f.hasSyntaxErrors) :=
    defaulted_without (by simp [toData])
  rw [ofData?, hpath, hlanguage, hfunctions, htypes, himports, hexports, hcalls, herrors]
  rfl

theorem distinctKeys_toData (f : FileFacts) : f.toData.distinctKeys := by
  have hfunctions := distinctKeys_array_map fun g (_ : g ∈ f.functions) => g.distinctKeys_toData
  have htypes := distinctKeys_array_map fun t (_ : t ∈ f.types) => t.distinctKeys_toData
  have himports := distinctKeys_array_map fun i (_ : i ∈ f.imports) => i.distinctKeys_toData
  have hexports := distinctKeys_array_map fun e (_ : e ∈ f.exports) => e.distinctKeys_toData
  have hcalls := distinctKeys_array_map fun c (_ : c ∈ f.calls) => c.distinctKeys_toData
  simp [toData, Language.toData, distinctKeys_object, *]

/-- **Facts read back from the data value that they are written as**, and with whatever members of
it left out that have defaults, at any depth, they read back with those members at their defaults
and all others as they were.  No object in that value has two members of one name. -/
theorem reads_back_without_defaults (f : FileFacts) (hf : ∀ l ∈ f.locations, l.Fits) :
    f.toData.distinctKeys ∧ ofData? f.toData = some f ∧
      ∀ drop, (∀ way, drop way → mayLack way) →
        ofData? (f.toData.without drop) = some (f.reset drop) := by
  refine ⟨f.distinctKeys_toData, ?_, fun drop hdrop => f.ofData?_without hf hdrop⟩
  have h : ofData? (f.toData.without fun _ => false) = some (f.reset fun _ => false) :=
    f.ofData?_without hf fun _ h => absurd h Bool.false_ne_true
  rwa [without_never, reset_never] at h

/-- A function with two parameters. -/
def totalOfShop : Function where
  name := "total"
  qualifiedName := "total"
  parameters := [⟨"items", some "Item[]", false, none⟩, ⟨"tax", none, true, none⟩]
  returnType := some "number"
  isExported := true
  isAsync := false
  location := ⟨"shop.ts", 1, 3, 0, 1⟩
  doc := none

/-- A type with an abstract method. -/
def typeOfShop : TypeDecl :=
  { TypeDecl.bare "Shop" .classType ⟨"shop.ts", 5, 9, 0, 1⟩ with
    methods := [⟨⟨"open", "Shop.open", [], some "void", false, true, ⟨"shop.ts", 6, 8, 2, 3⟩,
      some "Opens the shop."⟩, .protectedAccess, false, true⟩] }

/-- The facts about a file with both, an export and a call. -/
def ofShop : FileFacts where
  path := "shop.ts"
  language := .typescript
  functions := [totalOfShop]
  types := [typeOfShop]
  imports := []
  exports := [⟨some "./shop", [⟨"Shop", some "Store", false, false⟩], ⟨"shop.ts", 10, 10, 0, 20⟩⟩]
  calls := [⟨"<module>", "total", some "total", ["[]"], ⟨"shop.ts", 11, 11, 0, 9⟩⟩]
  hasSyntaxErrors := true

/-- What is left out: a member of a parameter, one of a method and one of its function, and the
calls. -/
def lackingInShop : List Way :=
  [[.member "functions", .item 0, .member "parameters", .item 1, .member "isOptional"],
    [.member "classes", .item 0, .member "methods", .item 0, .member "docComment"],
    [.member "classes", .item 0, .member "methods", .item 0, .member "isAbstract"],
    [.member "calls"]]

theorem reads_back_without_defaults_ofShop :
    (∀ l ∈ ofShop.locations, l.Fits) ∧ (∀ way ∈ lackingInShop, mayLack way) ∧
      ofData? ofShop.toData = some ofShop ∧
      ofData? (ofShop.toData.without lackingInShop.contains) = some { ofShop with
        functions := [{ totalOfShop with
          parameters := [⟨"items", some "Item[]", false, none⟩, ⟨"tax", none, false, none⟩] }]
        types := [{ typeOfShop with
          methods := [⟨⟨"open", "Shop.open", [], some "void", false, true,
            ⟨"shop.ts", 6, 8, 2, 3⟩, none⟩, .protectedAccess, false, false⟩] }]
        calls := [] } := by
  have hfits : ∀ l ∈ ofShop.locations, l.Fits := by decide
  have hlacking : ∀ way ∈ lackingInShop, mayLack way := by decide
  obtain ⟨-, hsame, hwithout⟩ := reads_back_without_defaults ofShop hfits
  have hread := hwithout lackingInShop.contains fun way h =>
    hlacking way (List.contains_iff_mem.mp h)
  exact ⟨hfits, hlacking, hsame, hread.trans (by decide)⟩

end FileFacts

end Codemap
