/-
# Analyzing source files

Files are analyzed one by one, and only in languages that are at hand.  A language that is not at
hand is an error of the request, so it ends the analysis of all files.  A file that cannot be
parsed is passed over, and its path is kept with the facts about the others.
-/
import Codemap.Source.Parsers

namespace Codemap

/-! ## 1. Files -/

/-- A source file. -/
structure SourceFile where
  path : String
  language : Language
  text : String
deriving Repr, Inhabited

namespace SourceFile

/-- The file, parsed. -/
def parse (parsers : Parsers) (f : SourceFile) : Except AnalysisError ParsedFile :=
  parsers.parse f.language f.path f.text

/-- The facts about a file. -/
def analyze (parsers : Parsers) (f : SourceFile) : Except AnalysisError FileFacts :=
  (f.parse parsers).map FileFacts.ofTree

end SourceFile

/-- The language that a tag asks for. -/
def languageOfTag (tag : String) : Except AnalysisError Language :=
  match Language.ofTag? tag with
  | some l => .ok l
  | none => .error (.unsupportedLanguage tag)

/-! ## 2. Runs -/

/-- What came of the analysis of files: the facts about those that could be analyzed, how many there
were, and the paths of the others. -/
structure AnalysisRun where
  files : List FileFacts
  attempted : Nat
  failed : List String
deriving Inhabited

namespace AnalysisRun

/-- A run with what came of one more file.  A failure that concerns this file only is noted, any
other ends the run. -/
def add (run : AnalysisRun) (path : String) :
    Except AnalysisError FileFacts → Except AnalysisError AnalysisRun
  | .ok facts => .ok { run with files := run.files ++ [facts] }
  | .error e =>
    if e.isRecoverable then .ok { run with failed := run.failed ++ [path] } else .error e

/-- The analysis of files, in their order. -/
def ofSources (parsers : Parsers) (sources : List SourceFile) :
    Except AnalysisError AnalysisRun :=
  sources.foldlM (fun run f => run.add f.path (f.analyze parsers)) ⟨[], sources.length, []⟩

end AnalysisRun

/-- The facts about the files that can be analyzed, in their order. -/
def analyzeAll (parsers : Parsers) (sources : List SourceFile) :
    Except AnalysisError (List FileFacts) :=
  (AnalysisRun.ofSources parsers sources).map (·.files)

end Codemap
