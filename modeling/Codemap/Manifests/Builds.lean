/-
# Build files

Projects and their dependencies are named by artifacts.  In a project model the names stand
between tags; in a build script they are the second part of a coordinate in quotes.
-/
import Codemap.Manifests.SetupScript

namespace Codemap.Manifests

open Codemap.Text

/-! ## 1. Project models -/

/-- The name of an artifact between its tags: one word, which blanks may surround, and what
follows. -/
def artifact? (s : List Char) : Option (List Char × List Char) := do
  let inside := trimStart (← after? "<artifactId>".toList s)
  let name := inside.takeWhile fun c => !(c == '<' || isBlank c)
  if name.isEmpty then none
  let rest ← after? "</artifactId>".toList (trimStart (inside.drop name.length))
  return (name, rest)

/-- What a project model declares: the first artifact outside dependencies, and those inside.  The
parent of a project does not count. -/
def readProjectModel (text : List Char) : Declarations :=
  let own := outside "<parent>".toList "</parent>".toList text
  let opening := "<dependencies>".toList
  let closing := "</dependencies>".toList
  let blocks := insides opening closing own
  { name := (firstMatch? artifact? (outside opening closing own)).map fun a => .ofList a.1
    dependencies := Order.ascending
      (blocks.flatMap fun b => (allMatches (fun _ => artifact?) b).map String.ofList)
    workspaces := [] }

/-! ## 2. Build scripts -/

/-- The words that declare a dependency. -/
def dependencyWords : List (List Char) :=
  ["implementation", "api", "compile", "compileOnly", "runtimeOnly", "testImplementation"].map
    String.toList

/-- A part of a coordinate and what follows; it is not empty. -/
def coordinate? (s : List Char) : Option (List Char × List Char) :=
  let part := s.takeWhile fun c => !(c == ':' || isMark c)
  if part.isEmpty then none else some (part, s.drop part.length)

/-- The coordinate that follows a word, with or without a bracket before it: its second part and
what follows. -/
def declared? (s : List Char) : Option (List Char × List Char) := do
  let s := trimStart s
  let s := match s with
    | '(' :: r => trimStart r
    | _ => s
  match s with
  | mark :: r =>
    if !isMark mark then none
    let (_, r) ← coordinate? r
    match r with
    | ':' :: r => coordinate? r
    | _ => none
  | [] => none

/-- The artifact that the lines from here on declare; only the start of a line will do. -/
def dependencyLine? (before : Option Char) (s : List Char) : Option (List Char × List Char) :=
  if before.isSome && before != some '\n' then none
  else
    let s := trimStart s
    dependencyWords.findSome? fun w => (after? w s).bind declared?

/-- What a build script declares. -/
def readBuildScript (text : List Char) : Declarations where
  name := none
  dependencies := Order.ascending ((allMatches dependencyLine? text).map String.ofList)
  workspaces := []

end Codemap.Manifests
