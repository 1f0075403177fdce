/-
# Source languages

The languages whose files are read, their names, and the file extensions they go by.
-/
import Codemap.Text.Pieces
import Codemap.Text.Case

namespace Codemap

/-- A source language. -/
inductive Language where
  | typescript
  | tsx
  | javascript
  | python
  | java
  | go
deriving Repr, DecidableEq, Inhabited

namespace Language

/-- All languages, in their fixed order. -/
def all : List Language := [typescript, tsx, javascript, python, java, go]

/-- The name of a language. -/
def name : Language → String
  | typescript => "typescript"
  | tsx => "tsx"
  | javascript => "javascript"
  | python => "python"
  | java => "java"
  | go => "go"

/-- The language of a given name. -/
def ofName? (s : String) : Option Language := all.find? fun l => l.name == s

/-- The language that a tag stands for; tags are read without regard to case and have short
forms. -/
def ofTag? (tag : String) : Option Language :=
  match Text.lowered tag with
  | "typescript" | "ts" => some typescript
  | "tsx" => some tsx
  | "javascript" | "js" | "jsx" => some javascript
  | "python" | "py" => some python
  | "java" => some java
  | "go" | "golang" => some go
  | _ => none

/-- The language that a file extension, without its dot, stands for. -/
def ofExtension? : String → Option Language
  | "ts" | "mts" | "cts" => some typescript
  | "tsx" => some tsx
  | "js" | "jsx" | "mjs" | "cjs" => some javascript
  | "py" | "pyi" => some python
  | "java" => some java
  | "go" => some go
  | _ => none

/-- The language of a file, by what follows the last dot of its path. -/
def ofPath? (path : String) : Option Language := do
  let (_, extension) ← Text.cutLast '.' path.toList
  ofExtension? (.ofList extension)

/-- Whether a language belongs to the family that shares one grammar and one set of packages. -/
def isEcmaScript : Language → Bool
  | typescript | tsx | javascript => true
  | _ => false

/-- The languages that share packages with a language. -/
def family (l : Language) : List Language :=
  if l.isEcmaScript then [typescript, tsx, javascript] else [l]

end Language

end Codemap
