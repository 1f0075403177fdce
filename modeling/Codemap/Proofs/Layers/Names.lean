/-
# The layer that a name tells

Names are looked up in a list in which later entries stand before earlier ones.  So overrides count
before what is said by default, and of several layers that a name is given to, the last one counts
(`layer?_withOverrides`).
-/
import Codemap.Layers.Classify
import Mathlib.Data.List.Induction

namespace Codemap

open Text

variable {overrides : Layer → List String} {name : List Char} {l : Layer}

namespace Layers

/-- A layer's overrides name it, in whatever case. -/
def isListed (overrides : Layer → List String) (name : List Char) (l : Layer) : Bool :=
  (overrides l).any fun w => lower w.toList == lower name

/-- The layer that a name tells: the last one whose overrides name it, and otherwise the one that
it tells by default. -/
def toldLayer? (overrides : Layer → List String) (name : List Char) : Option Layer :=
  (Layer.ranked.reverse.find? (isListed overrides name)).or
    (Layer.ranked.find? fun l => (words l).contains (.ofList (lower name)))

end Layers

namespace LayerNames

open Layers

variable {n : LayerNames}

theorem layer?_assign (n : LayerNames) (l : Layer) (w : String) (name : List Char) :
    (n.assign l w).layer? name =
      if lower w.toList == lower name then some l else n.layer? name := by
  have hbeq : (lowered w == String.ofList (lower name)) = (lower w.toList == lower name) := by
    rw [Bool.eq_iff_iff, beq_iff_eq, beq_iff_eq, lowered, String.ofList_inj]
  rw [layer?, assign, List.find?_cons, hbeq]
  cases lower w.toList == lower name <;> rfl

theorem layer?_foldl_assign (ws : List String) (n : LayerNames) :
    (ws.foldl (fun n w => n.assign l w) n).layer? name =
      if ws.any fun w => lower w.toList == lower name then some l else n.layer? name := by
  induction ws generalizing n with
  | nil => rfl
  | cons w ws ih =>
    rw [List.foldl_cons, ih, layer?_assign, List.any_cons]
    cases lower w.toList == lower name <;> simp

/-- The last of the layers whose overrides name it counts. -/
theorem layer?_foldl_overrides (ls : List Layer) (n : LayerNames) :
    (ls.foldl (fun n l => (overrides l).foldl (fun n w => n.assign l w) n) n).layer? name =
      (ls.reverse.find? (isListed overrides name)).or (n.layer? name) := by
  induction ls using List.reverseRecOn with
  | nil => rfl
  | append_singleton ls l ih =>
    rw [List.foldl_append, List.foldl_cons, List.foldl_nil, layer?_foldl_assign, ih,
      List.reverse_append, List.reverse_singleton, List.singleton_append, List.find?_cons,
      ← isListed]
    cases isListed overrides name l <;> rfl

/-- A name tells the first of the layers that it is a word for. -/
theorem map_find?_words (ls : List Layer) (x : String) :
    ((ls.flatMap fun l => (words l).map fun w => (w, l)).find? fun e => e.1 == x).map (·.2) =
      ls.find? fun l => (words l).contains x := by
  induction ls with
  | nil => rfl
  | cons l ls ih =>
    have hword : (((words l).map fun w => (w, l)).find? fun e => e.1 == x).map (·.2) =
        if (words l).contains x then some l else none := by
      rw [List.find?_map, Option.map_map]
      cases hfind : (words l).find? ((fun e => e.1 == x) ∘ fun w => (w, l)) with
      | none =>
        have hnot : x ∉ words l := fun hx => by simpa using List.find?_eq_none.mp hfind x hx
        simp [hnot]
      | some w =>
        have hx : w = x := by simpa using List.find?_some hfind
        simp [← hx, List.mem_of_find?_eq_some hfind]
    rw [List.flatMap_cons, List.find?_append, Option.map_or, hword, ih, List.find?_cons]
    cases (words l).contains x <;> rfl

/-- **Overrides count before words, and of several overrides the one of the last layer counts.** -/
theorem layer?_withOverrides (overrides : Layer → List String) (name : List Char) :
    (default.withOverrides overrides).layer? name = toldLayer? overrides name := by
  rw [withOverrides, layer?_foldl_overrides, toldLayer?, layer?, default, map_find?_words]

end LayerNames

namespace Layers

/-- Names tell layers that files are voted into. -/
theorem mem_ranked_of_toldLayer? (h : toldLayer? overrides name = some l) : l ∈ Layer.ranked := by
  rcases Option.or_eq_some_iff.mp h with h | ⟨-, h⟩
  · exact List.mem_reverse.mp (List.mem_of_find?_eq_some h)
  · exact List.mem_of_find?_eq_some h

end Layers

end Codemap
