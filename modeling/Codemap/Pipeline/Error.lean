/-
# What may keep a repository from being analyzed
-/
import Codemap.Decimal.Basic
import Codemap.Source.Language

namespace Codemap

/-- Why an analysis fails. -/
inductive AnalysisError where
  | unsupportedLanguage (tag : String)
  | unparsed (language : Language) (path cause : String)
  | unreadable
  | malformedConfig
  | thresholdOutOfRange (threshold : Float)
  | invalidPattern (pattern : String)
  | unknownDiagram (text : String)
deriving Repr, Inhabited

namespace AnalysisError

/-- Whether an error concerns a single file, so that the analysis of others may go on. -/
def isRecoverable : AnalysisError → Bool
  | unparsed .. | unreadable => true
  | _ => false

/-- Whether an error lies in the configuration. -/
def isConfig : AnalysisError → Bool
  | malformedConfig | thresholdOutOfRange _ | invalidPattern _ | unknownDiagram _ => true
  | _ => false

/-- What is said of an error; errors in reading speak for themselves. -/
def message? : AnalysisError → Option String
  | unsupportedLanguage tag => some ("unsupported language: " ++ tag)
  | unparsed language path cause =>
    some ("failed to parse " ++ language.name ++ " source " ++ path ++ ": " ++ cause)
  | unreadable => none
  | malformedConfig => none
  | thresholdOutOfRange threshold =>
    some ("invalid configuration: entity_confidence_threshold must be within [0, 1], got "
      ++ floatText threshold)
  | invalidPattern pattern =>
    some ("invalid configuration: invalid excluded path '" ++ pattern)
  | unknownDiagram text => some ("invalid configuration: unknown diagram kind: " ++ text)

end AnalysisError

end Codemap
