/-
# Resolving calls within a file

A call is resolved when it names a function that the same file declares: a free function by its
name, a method of the enclosing type through the type's own object, and a method of a named type
through that name.  A call without a receiver prefers a free function to a method of the
enclosing type.
-/
import Codemap.Facts.Basic

namespace Codemap

/-! ## 1. The symbols of a file -/

/-- The names that a file declares: the qualified names of its functions, and each type with the
names of its methods. -/
structure Symbols where
  functions : List String
  methods : List (String × String)
deriving Repr, Inhabited

namespace Symbols

/-- The symbols that functions and types declare. -/
def ofFacts (functions : List Function) (types : List TypeDecl) : Symbols where
  functions := functions.map (·.qualifiedName)
  methods := types.flatMap fun t => t.methods.map fun m => (t.name, m.name)

/-- The qualified name of a declared method. -/
def method? (s : Symbols) (type method : String) : Option String :=
  if s.methods.contains (type, method) then some (memberName type method) else none

/-- The name itself, where a function has it. -/
def function? (s : Symbols) (name : String) : Option String :=
  if s.functions.contains name then some name else none

end Symbols

/-! ## 2. Calls -/

/-- A call as it stands in the text. -/
structure CallSite where
  caller : String
  callee : String
  receiver : Option String
  receiverIsSelf : Bool
  enclosingType : Option String
  arguments : List String
  location : Location
deriving Repr, Inhabited

namespace Symbols

/-- The qualified name of the function that a call lands on. -/
def resolve? (s : Symbols) (c : CallSite) : Option String :=
  match c.receiver with
  | none => s.function? c.callee <|> c.enclosingType.bind fun t => s.method? t c.callee
  | some receiver =>
    if c.receiverIsSelf then c.enclosingType.bind fun t => s.method? t c.callee
    else s.method? receiver c.callee <|> s.function? (memberName receiver c.callee)

/-- A call with what it resolves to. -/
def call (s : Symbols) (c : CallSite) : Call where
  caller := c.caller
  callee := c.callee
  resolved := s.resolve? c
  arguments := c.arguments
  location := c.location

end Symbols

end Codemap
