/-
# Names of modules and packages

A module name says which package the module lies in: the package's own name, then a slash or a
dot, then the way to the module.  Modules that come with the runtime may be written `node:name`.
-/
import Codemap.Source.Language

namespace Codemap.Packages

open Codemap.Text

/-! ## 1. Membership -/

/-- What is written before the names of modules that come with the runtime. -/
def builtInMark : List Char := ['n', 'o', 'd', 'e', ':']

/-- Whether a text starts where a package name ends: with a slash or a dot. -/
def startsWithin : List Char → Bool
  | c :: _ => c == '/' || c == '.'
  | [] => false

/-- Whether the module `source` is the package itself or lies in it. -/
def belongs (source package : List Char) : Bool :=
  source == package ||
    match after? package source with
    | some rest => startsWithin rest
    | none => after? builtInMark source == some package

/-- `belongs` on strings. -/
def belongsTo (source package : String) : Bool := belongs source.toList package.toList

/-! ## 2. The package of a module -/

/-- The package of a module of the npm registry: the first part of its path, or the first two if
the name has a scope. -/
def npmPackage (source : List Char) : List Char :=
  match piecesAt '/' source with
  | [] => source
  | scope :: rest =>
    if scope.head? == some '@' then
      match rest with
      | name :: _ => scope ++ '/' :: name
      | [] => source
    else scope

/-- The module that a Go package lies in: the first three parts of its path, if the first of
them names a host. -/
def goModule (source : List Char) : List Char :=
  match piecesAt '/' source with
  | host :: owner :: name :: _ =>
    if host.contains '.' then join ['/'] [host, owner, name] else source
  | _ => source

/-- The package that an import refers to, unless the import is relative. -/
def external? (language : Language) (source : String) : Option String :=
  let s := source.toList
  if s.head? == some '.' then none
  else some <| .ofList <| match language with
    | .typescript | .tsx | .javascript => npmPackage (dropCopiesStart builtInMark s)
    | .python => s.takeWhile (· != '.')
    | .go => goModule s
    | .java => s

end Codemap.Packages
