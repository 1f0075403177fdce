/-
# Resolving imports

Only relative imports are resolved, and only to files that are known.  A specifier is joined to the
directory of the importing file and tried with one extension after the other, as it is, as the
index of a directory and as the root of a package.  A specifier without slashes is a dotted module
name: one dot is the directory itself, and each further dot climbs one level.
-/
import Codemap.Imports.Path

namespace Codemap.Imports

open Codemap.Text

/-- The extensions that are tried, in this order. -/
def extensions : List (List Char) :=
  [".ts", ".tsx", ".js", ".jsx", ".mjs", ".cjs", ".py", ".java", ".go"].map String.toList

/-- Compiled endings and the source endings that are tried in their place. -/
def sourceEndings : List (List Char × List Char) :=
  [(".js", ".ts"), (".jsx", ".tsx"), (".mjs", ".mts")].map fun (a, b) => (a.toList, b.toList)

/-- The way that a relative specifier describes: a dotted name becomes a path. -/
def way (specifier : List Char) : List Char :=
  if specifier.contains '/' then specifier
  else
    let dots := (specifier.takeWhile (· == '.')).length
    let rest := replaceChar (· == '.') '/' (specifier.drop dots)
    let climb := if dots ≤ 1 then ['.', '/']
      else (List.replicate (dots - 1) ['.', '.', '/']).flatten
    climb ++ rest

/-- The normal form of the place that a specifier points to. -/
def place (source specifier : List Char) : List Char :=
  let directory := Path.directory (replaceChar (· == '\\') '/' source)
  Path.normal (directory ++ '/' :: way specifier)

/-- The paths that are tried for a place, in this order. -/
def candidates (place : List Char) : List (List Char) :=
  extensions.map (place ++ ·) ++ [place] ++
    extensions.map (fun e => Path.normal (place ++ "/index".toList ++ e)) ++
    [Path.normal (place ++ "/__init__.py".toList)] ++
    sourceEndings.filterMap fun (compiled, source) => (before? compiled place).map (· ++ source)

/-- The known file that a specifier in a file names.  Known paths are in normal form. -/
def resolve? (source specifier : String) (known : List String) : Option String :=
  if specifier.toList.head? == some '.' then
    ((candidates (place source.toList specifier.toList)).map String.ofList).find? known.contains
  else none

end Codemap.Imports
