/-
# Lists of requirements

Each line names a package and, after it, the versions that will do.  What follows `#` is a comment,
and lines that start with a hyphen are options.
-/
import Codemap.Manifests.Basic
import Codemap.Order.Ascending
import Codemap.Text.Case

namespace Codemap.Manifests

open Codemap.Text

/-- What may stand after the name of a package. -/
def endsName (c : Char) : Bool := ['=', '<', '>', '!', '~', '[', ';', '@', ' ', '('].contains c

/-- The name of the package that is required, in lower case. -/
def requirementName (spec : List Char) : List Char :=
  lower (trim ((trim spec).takeWhile (!endsName ·)))

/-- The package that is required, unless it has no name. -/
def requirement? (spec : List Char) : Option String :=
  let name := requirementName spec
  if name.isEmpty then none else some (.ofList name)

/-- The package that a line requires. -/
def lineRequirement? (line : List Char) : Option String :=
  let spec := trim (line.takeWhile (· != '#'))
  if spec.isEmpty || spec.head? == some '-' then none else requirement? spec

/-- What a list of requirements declares. -/
def readRequirements (text : List Char) : Declarations where
  name := none
  dependencies := Order.ascending ((lines text).filterMap lineRequirement?)
  workspaces := []

end Codemap.Manifests
