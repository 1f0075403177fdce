/-
# Facts as data values

Every record is written as an object whose members have the names of the interchange format, and
read back from one.  Members that may be absent are left out; members that are not known are
ignored.  A method is written with the members of its function beside its own.
-/
import Codemap.Facts.Basic
import Codemap.Json.Value

namespace Codemap

open Json

/-! ## 1. Locations and parameters -/

/-- A location as a data value. -/
def Location.toData (l : Location) : Json := object
  [("filePath", string l.file), ("startLine", ofNat l.startLine), ("endLine", ofNat l.endLine),
    ("startColumn", ofNat l.startColumn), ("endColumn", ofNat l.endColumn)]

/-- The location that a data value describes. -/
def Location.ofData? (j : Json) : Option Location := do
  let _ ← j.object?
  let file ← j.required "filePath" string?
  let startLine ← j.required "startLine" nat?
  let endLine ← j.required "endLine" nat?
  let startColumn ← j.required "startColumn" nat?
  let endColumn ← j.required "endColumn" nat?
  return ⟨file, startLine, endLine, startColumn, endColumn⟩

/-- A parameter as a data value. -/
def Parameter.toData (p : Parameter) : Json := object <|
  [("name", string p.name)] ++ omitted "type" string p.type
    ++ [("isOptional", bool p.isOptional)] ++ omitted "defaultValue" string p.default

/-- The parameter that a data value describes. -/
def Parameter.ofData? (j : Json) : Option Parameter := do
  let name ← j.required "name" string?
  let type ← j.optional "type" string?
  let isOptional ← j.defaulted "isOptional" bool? false
  let default ← j.optional "defaultValue" string?
  return ⟨name, type, isOptional, default⟩

/-! ## 2. Functions and types -/

/-- The members of a function. -/
def Function.members (f : Function) : List (String × Json) :=
  [("name", string f.name), ("qualifiedName", string f.qualifiedName),
    ("parameters", array (f.parameters.map Parameter.toData))]
    ++ omitted "returnType" string f.returnType
    ++ [("isExported", bool f.isExported), ("isAsync", bool f.isAsync),
      ("location", f.location.toData)]
    ++ omitted "docComment" string f.doc

/-- A function as a data value. -/
def Function.toData (f : Function) : Json := object f.members

/-- The function that a data value describes. -/
def Function.ofData? (j : Json) : Option Function := do
  let name ← j.required "name" string?
  let qualifiedName ← j.required "qualifiedName" string?
  let parameters ← j.required "parameters" (listOf Parameter.ofData?)
  let returnType ← j.optional "returnType" string?
  let isExported ← j.required "isExported" bool?
  let isAsync ← j.required "isAsync" bool?
  let location ← j.required "location" Location.ofData?
  let doc ← j.optional "docComment" string?
  return ⟨name, qualifiedName, parameters, returnType, isExported, isAsync, location, doc⟩

/-- A visibility as a data value. -/
def Visibility.toData (v : Visibility) : Json := string v.keyword

/-- The visibility that a data value describes. -/
def Visibility.ofData? (j : Json) : Option Visibility := do ofKeyword? (← j.string?)

/-- A method as a data value. -/
def Method.toData (m : Method) : Json := object <|
  m.function.members
    ++ [("visibility", m.visibility.toData), ("isStatic", bool m.isStatic),
      ("isAbstract", bool m.isAbstract)]

/-- The method that a data value describes. -/
def Method.ofData? (j : Json) : Option Method := do
  let function ← Function.ofData? j
  let visibility ← j.required "visibility" Visibility.ofData?
  let isStatic ← j.required "isStatic" bool?
  let isAbstract ← j.defaulted "isAbstract" bool? false
  return ⟨function, visibility, isStatic, isAbstract⟩

/-- A property as a data value. -/
def Property.toData (p : Property) : Json := object <|
  [("name", string p.name)] ++ omitted "type" string p.type
    ++ [("visibility", p.visibility.toData), ("isStatic", bool p.isStatic),
      ("isOptional", bool p.isOptional), ("location", p.location.toData)]

/-- The property that a data value describes. -/
def Property.ofData? (j : Json) : Option Property := do
  let name ← j.required "name" string?
  let type ← j.optional "type" string?
  let visibility ← j.required "visibility" Visibility.ofData?
  let isStatic ← j.required "isStatic" bool?
  let isOptional ← j.defaulted "isOptional" bool? false
  let location ← j.required "location" Location.ofData?
  return ⟨name, type, visibility, isStatic, isOptional, location⟩

/-- The kind of a type as a data value. -/
def TypeKind.toData (k : TypeKind) : Json := string k.word

/-- The kind of type that a data value describes. -/
def TypeKind.ofData? (j : Json) : Option TypeKind := do ofWord? (← j.string?)

/-- A type as a data value. -/
def TypeDecl.toData (t : TypeDecl) : Json := object <|
  [("name", string t.name), ("kind", t.kind.toData), ("isAbstract", bool t.isAbstract),
    ("isExported", bool t.isExported), ("methods", array (t.methods.map Method.toData)),
    ("properties", array (t.properties.map Property.toData)),
    ("extendsFrom", ofStrings t.supertypes), ("implements", ofStrings t.interfaces),
    ("location", t.location.toData)]
    ++ omitted "docComment" string t.doc

/-- The type that a data value describes. -/
def TypeDecl.ofData? (j : Json) : Option TypeDecl := do
  let name ← j.required "name" string?
  let kind ← j.required "kind" TypeKind.ofData?
  let isAbstract ← j.required "isAbstract" bool?
  let isExported ← j.defaulted "isExported" bool? false
  let methods ← j.required "methods" (listOf Method.ofData?)
  let properties ← j.required "properties" (listOf Property.ofData?)
  let supertypes ← j.required "extendsFrom" (listOf string?)
  let interfaces ← j.required "implements" (listOf string?)
  let location ← j.required "location" Location.ofData?
  let doc ← j.optional "docComment" string?
  return ⟨name, kind, isAbstract, isExported, methods, properties, supertypes, interfaces,
    location, doc⟩

/-! ## 3. Imports, exports and calls -/

/-- A binding as a data value. -/
def Binding.toData (b : Binding) : Json := object <|
  [("name", string b.name)] ++ omitted "alias" string b.alias?
    ++ [("isDefault", bool b.isDefault), ("isNamespace", bool b.isNamespace)]

/-- The binding that a data value describes. -/
def Binding.ofData? (j : Json) : Option Binding := do
  let name ← j.required "name" string?
  let alias? ← j.optional "alias" string?
  let isDefault ← j.defaulted "isDefault" bool? false
  let isNamespace ← j.defaulted "isNamespace" bool? false
  return ⟨name, alias?, isDefault, isNamespace⟩

/-- An import as a data value. -/
def Import.toData (i : Import) : Json := object
  [("source", string i.source), ("bindings", array (i.bindings.map Binding.toData)),
    ("location", i.location.toData)]

/-- The import that a data value describes. -/
def Import.ofData? (j : Json) : Option Import := do
  let source ← j.required "source" string?
  let bindings ← j.required "bindings" (listOf Binding.ofData?)
  let location ← j.required "location" Location.ofData?
  return ⟨source, bindings, location⟩

/-- An export as a data value. -/
def Export.toData (e : Export) : Json := object <|
  omitted "source" string e.source
    ++ [("bindings", array (e.bindings.map Binding.toData)), ("location", e.location.toData)]

/-- The export that a data value describes. -/
def Export.ofData? (j : Json) : Option Export := do
  let source ← j.optional "source" string?
  let bindings ← j.required "bindings" (listOf Binding.ofData?)
  let location ← j.required "location" Location.ofData?
  return ⟨source, bindings, location⟩

/-- A call as a data value. -/
def Call.toData (c : Call) : Json := object <|
  [("caller", string c.caller), ("callee", string c.callee)]
    ++ omitted "resolvedCallee" string c.resolved
    ++ [("arguments", ofStrings c.arguments), ("location", c.location.toData)]

/-- The call that a data value describes. -/
def Call.ofData? (j : Json) : Option Call := do
  let caller ← j.required "caller" string?
  let callee ← j.required "callee" string?
  let resolved ← j.optional "resolvedCallee" string?
  let arguments ← j.required "arguments" (listOf string?)
  let location ← j.required "location" Location.ofData?
  return ⟨caller, callee, resolved, arguments, location⟩

/-! ## 4. Files -/

/-- A language as a data value. -/
def Language.toData (l : Language) : Json := string l.name

/-- The language that a data value describes. -/
def Language.ofData? (j : Json) : Option Language := do ofName? (← j.string?)

/-- The facts about a file as a data value. -/
def FileFacts.toData (f : FileFacts) : Json := object
  [("filePath", string f.path), ("language", f.language.toData),
    ("functions", array (f.functions.map Function.toData)),
    ("classes", array (f.types.map TypeDecl.toData)),
    ("imports", array (f.imports.map Import.toData)),
    ("exports", array (f.exports.map Export.toData)),
    ("calls", array (f.calls.map Call.toData)), ("hasSyntaxErrors", bool f.hasSyntaxErrors)]

/-- The facts that a data value describes. -/
def FileFacts.ofData? (j : Json) : Option FileFacts := do
  let path ← j.required "filePath" string?
  let language ← j.required "language" Language.ofData?
  let functions ← j.required "functions" (listOf Function.ofData?)
  let types ← j.required "classes" (listOf TypeDecl.ofData?)
  let imports ← j.required "imports" (listOf Import.ofData?)
  let exports ← j.required "exports" (listOf Export.ofData?)
  let calls ← j.defaulted "calls" (listOf Call.ofData?) []
  let hasSyntaxErrors ← j.defaulted "hasSyntaxErrors" bool? false
  return ⟨path, language, functions, types, imports, exports, calls, hasSyntaxErrors⟩

end Codemap
