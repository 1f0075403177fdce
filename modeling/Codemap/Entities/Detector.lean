/-
# Detecting entities

A candidate file is parsed again for drafts of entities.  A draft counts when some evidence shows
by itself that its type is mapped to a table, and when the confidence in it reaches a threshold.
-/
import Codemap.Entities.Candidate
import Codemap.Entities.EcmaScript
import Codemap.Entities.Go
import Codemap.Entities.Java
import Codemap.Entities.Python
import Codemap.Source.Parsers

namespace Codemap

open Codemap.Syntax

/-! ## 1. One file -/

/-- How entities are detected: the packages that make a file a candidate, and the least
confidence that is accepted. -/
structure EntityDetector where
  packages : MappingPackages
  threshold : Float
deriving Inhabited

namespace Entities

/-- The least confidence that is accepted unless something else is said. -/
def defaultThreshold : Float := 0.5

/-- The framework that is assumed when neither a declaration nor an import names one. -/
def assumedFramework : Language → Framework
  | .typescript | .tsx | .javascript => .typeorm
  | .python => .sqlalchemy
  | .java => .jpa
  | .go => .gorm

/-- The drafts of a parsed file. -/
def drafts (file : ParsedFile) : List EntityDraft :=
  match file.language with
  | .typescript | .tsx | .javascript => EcmaScript.drafts file.path file.tree
  | .python => Python.drafts file.path file.tree
  | .java => Java.drafts file.path file.tree
  | .go => Go.drafts file.path file.tree

/-- The draft with the evidence that keys and relationships give. -/
def weighed (draft : EntityDraft) : EntityDraft :=
  (draft.markIf (draft.fields.any (·.isPrimaryKey)) .primaryKey).markIf
    (!draft.relationships.isEmpty) .relationships

/-- The entity that a draft becomes, with the evidence for its file before its own. -/
def ofDraft (facts : FileFacts) (evidence : List Evidence) (draft : EntityDraft) : Entity :=
  let signals := (evidence ++ (weighed draft).evidence).map Evidence.signal
  { name := draft.name
    service := none
    table := draft.table.getD (Facts.onString tableName draft.name)
    framework := (draft.framework <|> facts.frameworks.head?).getD (assumedFramework facts.language)
    fields := draft.fields
    relationships := draft.relationships
    confidence := confidence signals
    signals
    file := facts.path
    location := draft.location }

/-- The entities that the tree of a file may declare, before any is rejected.  A file that is no
candidate has none. -/
def candidates (packages : MappingPackages) (facts : FileFacts) (tree : Node) : List Entity :=
  match fileEvidence packages facts with
  | [] => []
  | evidence =>
    ((drafts ⟨facts.path, facts.language, tree⟩).filter (·.isStructural)).map
      (ofDraft facts evidence)

end Entities

namespace EntityDetector

/-- The detector that knows only the known packages. -/
def default : EntityDetector := ⟨.known, Entities.defaultThreshold⟩

/-- The detector with another threshold. -/
def withThreshold (d : EntityDetector) (threshold : Float) : EntityDetector := { d with threshold }

/-- Whether an entity is accepted: unless the confidence in it is below the threshold. -/
def accepts (d : EntityDetector) (e : Entity) : Bool := !(e.confidence < d.threshold)

/-- The entities of a file that is read as a given tree, in the order in which they are
declared. -/
def entitiesOfTree (d : EntityDetector) (facts : FileFacts) (tree : Node) : List Entity :=
  (Entities.candidates d.packages facts tree).filter d.accepts

/-- The entities of one file.  A file that is no candidate is not parsed. -/
def detect (d : EntityDetector) (parsers : Parsers) (facts : FileFacts) (text : String) :
    Except AnalysisError (List Entity) :=
  if (Entities.fileEvidence d.packages facts).isEmpty then .ok []
  else (parsers.parse facts.language facts.path text).map fun file =>
    d.entitiesOfTree facts file.tree

/-- The entities of one file, with the parsers of the library. -/
def entitiesOf (d : EntityDetector) (facts : FileFacts) (text : String) : List Entity :=
  d.entitiesOfTree facts (parseSource facts.language text)

/-! ## 2. Many files -/

/-- Entities are listed by file and then by line. -/
def comesFirst (a b : Entity) : Bool :=
  a.file < b.file || (a.file == b.file && a.location.startLine ≤ b.location.startLine)

/-- The entities of many files.  `sources` are paths with texts; of a path that is given twice the
last text counts.  Files that cannot be parsed again are passed over. -/
def entitiesAmong (d : EntityDetector) (parsers : Parsers) (files : List FileFacts)
    (sources : List (String × String)) : List Entity :=
  let latest := sources.reverse
  (files.flatMap fun facts =>
    match latest.find? fun s => s.1 == facts.path with
    | some (_, text) =>
      match d.detect parsers facts text with
      | .ok entities => entities
      | .error _ => []
    | none => []).mergeSort comesFirst

/-- The entities of many files, with the parsers of the library. -/
def entitiesOfAll (d : EntityDetector) (files : List FileFacts) (sources : List (String × String)) :
    List Entity :=
  d.entitiesAmong Language.all files sources

end EntityDetector

end Codemap
