/-
# Files that may declare entities

A file is a candidate when it imports a package that maps objects to tables, or when its path
follows the conventions for models.  Further packages may be added to the known ones; languages
of one family share them.
-/
import Codemap.Entities.Basic
import Codemap.Order.Distinct

namespace Codemap

open Codemap.Text

/-! ## 1. Packages that map objects to tables -/

/-- The packages, beyond the known ones, that map objects to tables, by language. -/
structure MappingPackages where
  added : List (Language × String)
deriving Repr, Inhabited

namespace MappingPackages

/-- The known packages only. -/
def known : MappingPackages := ⟨[]⟩

/-- Adds packages for a language and the others of its family. -/
def add (m : MappingPackages) (language : Language) (packages : List String) : MappingPackages :=
  ⟨m.added ++ language.family.flatMap fun l => packages.map fun p => (l, p)⟩

/-- Whether a module of a language maps objects to tables. -/
def maps (m : MappingPackages) (language : Language) (source : String) : Bool :=
  (Packages.framework? language source).isSome ||
    m.added.any fun (l, p) => l == language && Packages.belongsTo source p

end MappingPackages

/-- The frameworks that a file imports, in the order of the imports. -/
def FileFacts.frameworks (f : FileFacts) : List Framework :=
  Order.distinct (f.importSources.filterMap (Packages.framework? f.language))

/-! ## 2. Candidates -/

namespace Entities

/-- Names of directories that hold models. -/
def modelDirectories : List String := ["models", "entities", "schemas", "model", "entity"]

/-- Parts of file names that mark a model. -/
def modelParts : List String := ["model", "models", "entity", "entities", "schema", "schemas"]

/-- Whether a file is named for a model: it lies in a directory of models, or a part of its name
other than the last, which is the extension, marks it as one. -/
def namedForModel (path : String) : Bool :=
  let segments := (pieces (fun c => c == '/' || c == '\\') path.toList).filter (!·.isEmpty)
  match segments.getLast? with
  | none => false
  | some file =>
    let isOne (words : List String) (s : List Char) : Bool := words.contains (.ofList (lower s))
    segments.dropLast.any (isOne modelDirectories) ||
      (piecesAt '.' file).dropLast.any (isOne modelParts)

/-- What speaks for entities in a file as a whole; nothing if the file is no candidate. -/
def fileEvidence (packages : MappingPackages) (f : FileFacts) : List Evidence :=
  (if f.importSources.any (packages.maps f.language) then [.ormImport] else []) ++
    (if namedForModel f.path then [.namingConvention] else [])

end Entities

end Codemap
