/-
# Facts about source files

What is known of a file once its syntax tree has been read: the functions, the declared types
with their methods and properties, the imports, the exports and the calls.  The records are the
same for every language.  Types name the types they extend, so hierarchies with cycles are no
problem.
-/
import Codemap.Source.Language
import Codemap.Syntax.Node

namespace Codemap

/-! ## 1. Locations -/

/-- Where a fact stands in its file.  Lines are counted from one, columns are bytes from zero. -/
structure Location where
  file : String
  startLine : Nat
  endLine : Nat
  startColumn : Nat
  endColumn : Nat
deriving Repr, DecidableEq, Inhabited

namespace Location

/-- The location of a stretch of a file. -/
def ofSpan (file : String) (s : Syntax.Span) : Location where
  file
  startLine := s.start.line + 1
  endLine := s.stop.line + 1
  startColumn := s.start.column
  endColumn := s.stop.column

/-- File, first line and first column. -/
def text (l : Location) : String := s!"{l.file}:{l.startLine}:{l.startColumn}"

end Location

/-! ## 2. Functions and types -/

/-- A parameter of a function. -/
structure Parameter where
  name : String
  type : Option String
  isOptional : Bool
  default : Option String
deriving Repr, DecidableEq, Inhabited

/-- A parameter of which only the name is known. -/
def Parameter.named (name : String) : Parameter := ⟨name, none, false, none⟩

/-- A function.  The qualified name is `Type.method` for methods and the name itself for free
functions. -/
structure Function where
  name : String
  qualifiedName : String
  parameters : List Parameter
  returnType : Option String
  isExported : Bool
  isAsync : Bool
  location : Location
  doc : Option String
deriving Repr, DecidableEq, Inhabited

/-- The name of a member of a type. -/
def memberName (type member : String) : String := type ++ "." ++ member

/-- The function as a member of a type. -/
def Function.qualify (f : Function) (type : String) : Function :=
  { f with qualifiedName := memberName type f.name }

/-- Who may use a member. -/
inductive Visibility where
  | publicAccess
  | privateAccess
  | protectedAccess
deriving Repr, DecidableEq, Inhabited

namespace Visibility

/-- The keyword for a visibility. -/
def keyword : Visibility → String
  | publicAccess => "public"
  | privateAccess => "private"
  | protectedAccess => "protected"

/-- The visibility with a keyword. -/
def ofKeyword? (s : String) : Option Visibility :=
  [publicAccess, privateAccess, protectedAccess].find? fun v => v.keyword == s

/-- The visibility that a modifier stands for; blanks around it do not count. -/
def ofModifier? (s : String) : Option Visibility := ofKeyword? (Text.trimmed s)

end Visibility

/-- A function that a type owns. -/
structure Method where
  function : Function
  visibility : Visibility
  isStatic : Bool
  isAbstract : Bool
deriving Repr, DecidableEq, Inhabited

/-- The name of a method. -/
def Method.name (m : Method) : String := m.function.name

/-- A value that a type owns. -/
structure Property where
  name : String
  type : Option String
  visibility : Visibility
  isStatic : Bool
  isOptional : Bool
  location : Location
deriving Repr, DecidableEq, Inhabited

/-- The kinds of declared types. -/
inductive TypeKind where
  | classType
  | interfaceType
  | enumType
  | aliasType
deriving Repr, DecidableEq, Inhabited

namespace TypeKind

/-- The word for a kind. -/
def word : TypeKind → String
  | classType => "class"
  | interfaceType => "interface"
  | enumType => "enum"
  | aliasType => "type"

/-- The kind with a word. -/
def ofWord? (s : String) : Option TypeKind :=
  [classType, interfaceType, enumType, aliasType].find? fun k => k.word == s

end TypeKind

/-- A declared type: a class, an interface, an enumeration or an alias.  Supertypes and
interfaces are held by name. -/
structure TypeDecl where
  name : String
  kind : TypeKind
  isAbstract : Bool
  isExported : Bool
  methods : List Method
  properties : List Property
  supertypes : List String
  interfaces : List String
  location : Location
  doc : Option String
deriving Repr, DecidableEq, Inhabited

/-- A type without members. -/
def TypeDecl.bare (name : String) (kind : TypeKind) (location : Location) : TypeDecl where
  name
  kind
  isAbstract := false
  isExported := false
  methods := []
  properties := []
  supertypes := []
  interfaces := []
  location
  doc := none

/-- The first method of a given name. -/
def TypeDecl.method? (t : TypeDecl) (name : String) : Option Method :=
  t.methods.find? fun m => m.name == name

/-! ## 3. Imports, exports and calls -/

/-- A name bound by an import or an export. -/
structure Binding where
  name : String
  alias? : Option String
  isDefault : Bool
  isNamespace : Bool
deriving Repr, DecidableEq, Inhabited

namespace Binding

/-- A name bound as it is. -/
def named (name : String) : Binding := ⟨name, none, false, false⟩

/-- A name bound to what a module exports by default. -/
def byDefault (name : String) : Binding := { named name with isDefault := true }

/-- A name bound to everything that a module exports. -/
def everything (name : String) : Binding := { named name with isNamespace := true }

/-- The binding under another local name. -/
def withAlias (b : Binding) (name? : Option String) : Binding := { b with alias? := name? }

/-- The name by which the file itself speaks of what is bound. -/
def localName (b : Binding) : String := b.alias?.getD b.name

end Binding

/-- An import.  The source is the module as it is written. -/
structure Import where
  source : String
  bindings : List Binding
  location : Location
deriving Repr, DecidableEq, Inhabited

namespace Import

/-- Whether the module is named relative to the importing file. -/
def isRelative (i : Import) : Bool := i.source.toList.head? == some '.'

/-- The names that an import binds. -/
def names (i : Import) : List String := i.bindings.map (·.name)

end Import

/-- An export; with a source, of what another module exports. -/
structure Export where
  source : Option String
  bindings : List Binding
  location : Location
deriving Repr, DecidableEq, Inhabited

/-- A call.  The caller is the qualified name of the enclosing function; the resolved callee is
the qualified name of a function of the same file, where one is known. -/
structure Call where
  caller : String
  callee : String
  resolved : Option String
  arguments : List String
  location : Location
deriving Repr, DecidableEq, Inhabited

/-- The caller of calls outside all functions. -/
def moduleScope : String := "<module>"

/-- The name of what has none. -/
def anonymous : String := "anonymous"

/-! ## 4. Files -/

/-- All facts about one file. -/
structure FileFacts where
  path : String
  language : Language
  functions : List Function
  types : List TypeDecl
  imports : List Import
  exports : List Export
  calls : List Call
  hasSyntaxErrors : Bool
deriving Repr, DecidableEq, Inhabited

namespace FileFacts

/-- A file about which nothing is known. -/
def empty (path : String) (language : Language) : FileFacts :=
  ⟨path, language, [], [], [], [], [], false⟩

/-- The first function of a given name. -/
def function? (f : FileFacts) (name : String) : Option Function :=
  f.functions.find? fun g => g.name == name

/-- The first type of a given name. -/
def type? (f : FileFacts) (name : String) : Option TypeDecl :=
  f.types.find? fun t => t.name == name

/-- The functions that other files may use. -/
def exportedFunctions (f : FileFacts) : List Function := f.functions.filter (·.isExported)

/-- The modules that a file imports, in source order. -/
def importSources (f : FileFacts) : List String := f.imports.map (·.source)

/-- Whether anything in the file is exported. -/
def hasExports (f : FileFacts) : Bool :=
  !f.exports.isEmpty || f.functions.any (·.isExported) || f.types.any (·.isExported)

end FileFacts

end Codemap
