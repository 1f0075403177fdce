/-
# Manifests

A manifest is a file that declares a project: its name, the packages that it depends on, and
patterns for the directories of its members.  The kind of a manifest is told by the name of its
file.
-/
import Codemap.Text.Pieces

namespace Codemap

/-! ## 1. Kinds -/

/-- The kinds of manifests. -/
inductive ManifestKind where
  | packageFile
  | pyProject
  | requirements
  | setupScript
  | goModule
  | projectModel
  | gradleBuild
deriving Repr, DecidableEq, Inhabited

namespace ManifestKind

/-- All kinds of manifests. -/
def all : List ManifestKind :=
  [packageFile, pyProject, requirements, setupScript, goModule, projectModel, gradleBuild]

/-- The name of a kind. -/
def name : ManifestKind → String
  | packageFile => "package-json"
  | pyProject => "py-project"
  | requirements => "requirements"
  | setupScript => "setup-py"
  | goModule => "go-mod"
  | projectModel => "pom-xml"
  | gradleBuild => "gradle"

/-- The kind of a given name. -/
def ofName? (s : String) : Option ManifestKind := all.find? fun k => k.name == s

/-- The usual name of a file of some kind. -/
def fileName : ManifestKind → String
  | packageFile => "package.json"
  | pyProject => "pyproject.toml"
  | requirements => "requirements.txt"
  | setupScript => "setup.py"
  | goModule => "go.mod"
  | projectModel => "pom.xml"
  | gradleBuild => "build.gradle"

/-- The kind of a file with some name. -/
def ofFileName? (s : String) : Option ManifestKind :=
  match all.find? fun k => k.fileName == s with
  | some k => some k
  | none =>
    let cs := s.toList
    if s == "build.gradle.kts" then some gradleBuild
    else if "requirements".toList.isPrefixOf cs && ".txt".toList.isSuffixOf cs then
      some requirements
    else none

end ManifestKind

/-! ## 2. Contents -/

/-- What a manifest declares. -/
structure Declarations where
  name : Option String
  dependencies : List String
  workspaces : List String
deriving Repr, DecidableEq, Inhabited

/-- Why a manifest cannot be read. -/
inductive ManifestError where
  | malformed
  | noModule
deriving Repr, DecidableEq, Inhabited

/-- What is said of an error. -/
def ManifestError.message? : ManifestError → Option String
  | malformed => none
  | noModule => some "no module declaration found in go.mod"

/-! ## 3. Manifests of a repository -/

/-- A manifest, the directory that it lies in, and its path. -/
structure Manifest where
  kind : ManifestKind
  directory : String
  path : String
  declared : Declarations
deriving Repr, DecidableEq, Inhabited

/-- The path of a file in a directory; the root has no name. -/
def pathIn (directory file : String) : String :=
  if directory.isEmpty then file else directory ++ "/" ++ file

/-- A manifest of some kind in a directory, in a file with the usual name. -/
def Manifest.inDirectory (kind : ManifestKind) (directory : String) (declared : Declarations) :
    Manifest :=
  ⟨kind, directory, pathIn directory kind.fileName, declared⟩

end Codemap
