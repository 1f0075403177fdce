/-
# The graph of imports

An edge leads from a file to a file that it imports or re-exports from, and carries the names
that it takes.  There is one edge for each pair of files, and the edges are in ascending order.
Files that no edge leads to are entry points.
-/
import Codemap.Facts.Basic
import Codemap.Imports.Resolve
import Codemap.Order.Ascending

namespace Codemap

open Codemap.Order

/-! ## 1. Edges -/

/-- An edge between two files, with the names taken along it. -/
structure Dependency where
  source : String
  target : String
  names : List String
deriving Repr, DecidableEq, Inhabited

namespace Imports

/-- Whether a specifier names the package itself, by dots only. -/
def isBare (specifier : String) : Bool :=
  !specifier.isEmpty && specifier.toList.all (· == '.')

/-- The files that one import leads to, each with the names taken from it.  From a bare package,
every name may be a module of its own; those that are not are taken from the package. -/
def targets (known : List String) (source specifier : String) (bindings : List Binding) :
    List (String × List String) :=
  let whole := resolve? source specifier known
  if isBare specifier then
    bindings.filterMap fun b =>
      (resolve? source (specifier ++ b.name) known <|> whole).map (·, [b.name])
  else (whole.map fun t => (t, bindings.map (·.name))).toList

/-- The specifiers of a file with the names that it takes: imports, then re-exports. -/
def references (f : FileFacts) : List (String × List Binding) :=
  f.imports.map (fun i => (i.source, i.bindings)) ++
    f.exports.filterMap fun e => e.source.map (·, e.bindings)

/-- Everything that a file takes from known files, in normal form. -/
def taken (known : List String) (f : FileFacts) : List (String × List String) :=
  (references f).flatMap fun (specifier, bindings) =>
    targets known (Path.normalized f.path) specifier bindings

/-- The path by which the files given speak of a path in normal form; of several, the last. -/
def spelling (files : List FileFacts) (normal : String) : String :=
  match files.reverse.find? fun f => Path.normalized f.path == normal with
  | some f => f.path
  | none => normal

/-- The edges that join the given links: one for each pair of ends, in ascending order. -/
def edges (links : List ((String × String) × List String)) : List Dependency :=
  (ascendingBy pairBefore (links.map (·.1))).map fun ends =>
    { source := ends.1
      target := ends.2
      names := ascending ((links.filter fun l => l.1 == ends).flatMap (·.2)) }

/-- The edges between the files given. -/
def dependencies (files : List FileFacts) : List Dependency :=
  let known := files.map fun f => Path.normalized f.path
  edges (files.flatMap fun f =>
    (taken known f).map fun (target, names) => ((f.path, spelling files target), names))

/-- The files that no edge leads to, in the order in which they are given. -/
def entryPoints (files : List FileFacts) (ds : List Dependency) : List String :=
  (files.map (·.path)).filter fun p => !ds.any fun d => d.target == p

end Imports

/-! ## 2. Neighbours -/

/-- A graph of imports, as the pairs of files that its edges join. -/
structure ImportGraph where
  edges : List (String × String)
deriving Repr, Inhabited

namespace ImportGraph

/-- The graph with the given edges. -/
def ofDependencies (ds : List Dependency) : ImportGraph := ⟨ds.map fun d => (d.source, d.target)⟩

/-- The files that a file imports. -/
def dependenciesOf (g : ImportGraph) (path : String) : List String :=
  ascending ((g.edges.filter fun e => e.1 == path).map (·.2))

/-- The files that import a file. -/
def dependentsOf (g : ImportGraph) (path : String) : List String :=
  ascending ((g.edges.filter fun e => e.2 == path).map (·.1))

end ImportGraph

/-! ## 3. The search for circles

Tarjan's algorithm: a depth-first search that meets every file once.  Files that have been met wait
on a stack until it is known which of them reach each other; the file of such a group that was met
first is the one whose low link is its own index. -/

/-- How far the search has come.  Files are numbered in the order in which they are met; the low
link of a file is the least number that it is known to reach among the files that wait.  The latest
entry for a file counts. -/
structure Search where
  counter : Nat
  index : List (String × Nat)
  low : List (String × Nat)
  stack : List String
  onStack : List String
  components : List (List String)
deriving Repr, Inhabited

/-- The files on top of a stack, down to and including the given one, and those that stay. -/
def popTo (file : String) : List String → List String × List String
  | [] => ([], [])
  | top :: rest =>
    if top == file then ([top], rest)
    else
      let (popped, below) := popTo file rest
      (top :: popped, below)

namespace Search

/-- The search before any file has been met. -/
def start : Search := ⟨0, [], [], [], [], []⟩

/-- The number of a file that has been met. -/
def index? (s : Search) (file : String) : Option Nat := s.index.lookup file

/-- The low link of a file that has been met. -/
def low? (s : Search) (file : String) : Option Nat := s.low.lookup file

/-- The search when a file is met. -/
def meet (s : Search) (file : String) : Search :=
  { s with
    counter := s.counter + 1
    index := (file, s.counter) :: s.index
    low := (file, s.counter) :: s.low
    stack := file :: s.stack
    onStack := file :: s.onStack }

/-- The search with the low link of a file lowered to a bound. -/
def lower (s : Search) (file : String) (bound : Option Nat) : Search :=
  match bound, s.low? file with
  | some a, some b => { s with low := (file, min a b) :: s.low }
  | _, _ => s

/-- The search when all that a file leads to has been met.  If the file was the first of its group,
the group is complete and leaves the stack. -/
def leave (s : Search) (file : String) : Search :=
  if s.low? file == s.index? file then
    let (group, rest) := popTo file s.stack
    { s with
      stack := rest
      onStack := s.onStack.filter fun f => !group.contains f
      components := s.components ++ [group] }
  else s

/-- The search after a file has looked at one that it imports, which `visit` visits. -/
def look (visit : String → Search → Search) (file : String) (s : Search) (target : String) :
    Search :=
  if (s.index? target).isNone then
    let s := visit target s
    s.lower file (s.low? target)
  else if s.onStack.contains target then s.lower file (s.index? target)
  else s

end Search

namespace ImportGraph

/-- The files that edges start from or lead to. -/
def files (g : ImportGraph) : List String :=
  ascending (g.edges.map (·.1) ++ g.edges.map (·.2))

/-- The search after visiting a file that has not been met.  Every visit meets one file more, so
visits are nested no deeper than there are files. -/
def visit (g : ImportGraph) : Nat → String → Search → Search
  | 0, _, s => s
  | depth + 1, file, s =>
    ((g.dependenciesOf file).foldl (Search.look (visit g depth) file) (s.meet file)).leave file

/-- The search after every file that imports another has been met. -/
def search (g : ImportGraph) : Search :=
  (ascending (g.edges.map (·.1))).foldl
    (fun s file => if (s.index? file).isNone then g.visit g.files.length file s else s)
    .start

/-! ## 4. Cycles -/

/-- Whether the files of a group import each other in a circle: unless it is a single file that
does not import itself. -/
def isCircle (g : ImportGraph) (group : List String) : Bool :=
  1 < group.length || group.head?.any fun file => (g.dependenciesOf file).contains file

/-- The groups of files that import each other in circles, in ascending order. -/
def cycles (g : ImportGraph) : List (List String) :=
  let groups := (g.search.components.filter g.isCircle).map fun c => c.mergeSort fun a b => a ≤ b
  groups.mergeSort fun a b => !listBefore b a

end ImportGraph

end Codemap
