/-
# Objects whose members have distinct names

A reader may take the first member of a name, take the last one, or refuse an object that has two.
All of them read the same from a value in which no object has two members of one name
(`distinctKeys`).
-/
import Codemap.Json.Value
import Mathlib.Data.List.Nodup

namespace Codemap.Json

mutual

/-- Whether no object in a value has two members of one name. -/
def distinctKeys : Json → Bool
  | array items => itemsDistinctKeys items
  | object members => decide (members.map (·.1)).Nodup && membersDistinctKeys members
  | _ => true

/-- Whether no object in the items of a list has two members of one name. -/
def itemsDistinctKeys : List Json → Bool
  | [] => true
  | v :: vs => v.distinctKeys && itemsDistinctKeys vs

/-- Whether no object in the members of an object has two members of one name. -/
def membersDistinctKeys : List (String × Json) → Bool
  | [] => true
  | (_, v) :: ms => v.distinctKeys && membersDistinctKeys ms

end

@[simp] theorem distinctKeys_bool (b : Bool) : (bool b).distinctKeys = true := rfl

@[simp] theorem distinctKeys_whole (n : Int) : (whole n).distinctKeys = true := rfl

@[simp] theorem distinctKeys_string (s : String) : (string s).distinctKeys = true := rfl

theorem distinctKeys_object {ms : List (String × Json)} :
    (object ms).distinctKeys ↔ (ms.map (·.1)).Nodup ∧ ∀ m ∈ ms, m.2.distinctKeys := by
  have hmembers : membersDistinctKeys ms ↔ ∀ m ∈ ms, m.2.distinctKeys := by
    induction ms with
    | nil => simp [membersDistinctKeys]
    | cons m ms ih => rw [membersDistinctKeys, Bool.and_eq_true, ih, List.forall_mem_cons]
  rw [distinctKeys, Bool.and_eq_true, decide_eq_true_iff, hmembers]

theorem distinctKeys_array_map {α : Type} {enc : α → Json} {as : List α}
    (h : ∀ a ∈ as, (enc a).distinctKeys) : (array (as.map enc)).distinctKeys := by
  suffices hitems : itemsDistinctKeys (as.map enc) from hitems
  induction as with
  | nil => rfl
  | cons a as ih =>
    obtain ⟨ha, has⟩ := List.forall_mem_cons.mp h
    rw [List.map_cons, itemsDistinctKeys, ha, ih has]
    rfl

@[simp] theorem distinctKeys_ofStrings (xs : List String) : (ofStrings xs).distinctKeys = true :=
  distinctKeys_array_map fun _ _ => rfl

end Codemap.Json
