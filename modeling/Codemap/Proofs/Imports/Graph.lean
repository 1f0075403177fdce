/-
# The graph of imports does not depend on the order of the files

Edges are sets that are written as ascending lists, so only the links that they are made of count
(`edges_congr`).  The links of a file depend on which normal forms are known, not on their order,
and on the file by which a normal form is spelled.  Where normal forms are pairwise distinct, that
file does not depend on the order either.
-/
import Codemap.Imports.Graph
import Codemap.Proofs.Order.Ascending
import Codemap.Proofs.Order.Permutation

namespace Codemap.Imports

open Codemap.Order

/-! ## 1. Links and edges -/

/-- The edges depend only on the set of links that they are made of. -/
theorem edges_congr {links links' : List ((String × String) × List String)}
    (h : ∀ x, x ∈ links ↔ x ∈ links') : edges links = edges links' := by
  have hends : ascendingBy pairBefore (links.map (·.1)) =
      ascendingBy pairBefore (links'.map (·.1)) := by
    refine ascendingBy_congr strictOrder_pairBefore fun z => ?_
    simp only [List.mem_map, h]
  rw [edges, edges, hends]
  refine List.map_congr_left fun ends _ => ?_
  rw [Dependency.mk.injEq]
  refine ⟨rfl, rfl, ascending_congr fun z => ?_⟩
  simp only [List.mem_flatMap, List.mem_filter, h]

/-! ## 2. What a file takes -/

section Known

variable {known known' : List String}

/-- What a specifier names depends only on the set of known paths. -/
theorem resolve?_congr (h : ∀ p, p ∈ known ↔ p ∈ known') (source specifier : String) :
    resolve? source specifier known = resolve? source specifier known' := by
  have hcontains : known.contains = known'.contains := by
    funext p
    rw [Bool.eq_iff_iff, List.contains_iff_mem, List.contains_iff_mem]
    exact h p
  rw [resolve?, resolve?, hcontains]

theorem taken_congr (h : ∀ p, p ∈ known ↔ p ∈ known') (f : FileFacts) :
    taken known f = taken known' f := by
  have hresolve : ∀ source specifier,
      resolve? source specifier known = resolve? source specifier known' := resolve?_congr h
  simp only [taken, targets, hresolve]

end Known

/-! ## 3. The order of the files -/

section Order

variable {files files' : List FileFacts}

theorem spelling_eq_of_perm (hp : files.Perm files')
    (hd : (files.map fun f => Path.normalized f.path).Nodup) (normal : String) :
    spelling files normal = spelling files' normal := by
  rw [spelling, spelling, find?_reverse_eq_of_perm hp hd]

/-- **The edges do not depend on the order of the files**, when these have distinct normal
forms. -/
theorem dependencies_eq_of_perm (hp : files.Perm files')
    (hd : (files.map fun f => Path.normalized f.path).Nodup) :
    dependencies files = dependencies files' := by
  have hknown : ∀ p, p ∈ files.map (fun f => Path.normalized f.path) ↔
      p ∈ files'.map fun f => Path.normalized f.path := fun p => (hp.map _).mem_iff
  have hspelling : spelling files = spelling files' := funext (spelling_eq_of_perm hp hd)
  refine edges_congr fun x => ?_
  simp only [List.mem_flatMap, hp.mem_iff, taken_congr hknown, hspelling]

end Order

end Codemap.Imports
