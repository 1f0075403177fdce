/-
# From source text to facts

A parsed file is a path, a language and a syntax tree.  `FileFacts.ofTree` reads all facts off
it; calls come last, since they are resolved against the functions and types of the same file.
-/
import Codemap.Facts.EcmaScript.Calls
import Codemap.Facts.Go.Calls
import Codemap.Facts.Java.Calls
import Codemap.Facts.Python.Calls
import Codemap.Grammar.EcmaScript.StatementRules
import Codemap.Grammar.Go.StatementRules
import Codemap.Grammar.Java.StatementRules
import Codemap.Grammar.Python.StatementRules

namespace Codemap

open Codemap.Syntax

/-! ## 1. Parsed files -/

/-- A source file whose text has been parsed. -/
structure ParsedFile where
  path : String
  language : Language
  tree : Node
deriving Inhabited

/-- The syntax tree of a source text. -/
def parseSource (language : Language) (source : String) : Node :=
  match language with
  | .typescript => Grammar.EcmaScript.parse .typed source
  | .tsx => Grammar.EcmaScript.parse .typedMarkup source
  | .javascript => Grammar.EcmaScript.parse .plain source
  | .python => Grammar.Python.parse source
  | .java => Grammar.Java.parse source
  | .go => Grammar.Go.parse source

/-! ## 2. Readers of facts -/

/-- What reads the facts of one language off a tree. -/
structure FactReader where
  functions : String → Node → List Function
  types : String → Node → List TypeDecl
  imports : String → Node → List Import
  exports : String → Node → List Export
  calls : String → Node → Symbols → List Call

/-- The readers of a language. -/
def factReader : Language → FactReader
  | .typescript | .tsx | .javascript =>
    ⟨Facts.EcmaScript.functions, Facts.EcmaScript.types, Facts.EcmaScript.imports,
      Facts.EcmaScript.exports, Facts.EcmaScript.calls⟩
  | .python =>
    ⟨Facts.Python.functions, Facts.Python.types, Facts.Python.imports, Facts.Python.exports,
      Facts.Python.calls⟩
  | .java =>
    ⟨fun _ _ => [], Facts.Java.types, Facts.Java.imports, Facts.Java.exports, Facts.Java.calls⟩
  | .go =>
    ⟨Facts.Go.functions, Facts.Go.types, Facts.Go.imports, Facts.Go.exports, Facts.Go.calls⟩

/-- All facts about a parsed file. -/
def FileFacts.ofTree (file : ParsedFile) : FileFacts :=
  let reader := factReader file.language
  let functions := reader.functions file.path file.tree
  let types := reader.types file.path file.tree
  { path := file.path
    language := file.language
    functions
    types
    imports := reader.imports file.path file.tree
    exports := reader.exports file.path file.tree
    calls := reader.calls file.path file.tree (.ofFacts functions types)
    hasSyntaxErrors := file.tree.hasErrors }

end Codemap
