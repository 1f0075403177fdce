/-
# Data values with members left out

`Json.without` leaves members out of a data value, wherever they stand: a member goes when the way
to it, through members and items, is one of those to be dropped.  A member that stays is found as
before, with what is to be dropped inside it left out (`member?_without`).

Which members a record can do without is told by a table: the members of the record itself that
have defaults, and the lists of records that it holds, each with the table of its records
(`mayLack`).  Whatever a table allows to be dropped, the members that it does not name stay as they
are (`inMember_of_kept`), and a list of records is read record by record (`listOf_without`).
-/
import Codemap.Json.Value
import Mathlib.Data.List.Basic

namespace Codemap.Json

/-! ## 1. Ways into a value -/

/-- A step into a value: to a member of an object or to an item of a list. -/
inductive Step where
  | member (key : String)
  | item (index : Nat)
deriving Repr, DecidableEq, Inhabited

/-- The way from a value to another one inside it. -/
abbrev Way := List Step

/-- The ways to drop inside a member. -/
def inMember (drop : Way → Bool) (key : String) : Way → Bool := fun way => drop (.member key :: way)

/-- The ways to drop inside an item of a list that is a member. -/
def inItem (drop : Way → Bool) (key : String) (index : Nat) : Way → Bool :=
  fun way => drop (.member key :: .item index :: way)

mutual

/-- The value without the members at the ways to drop. -/
def without (drop : Way → Bool) : Json → Json
  | array items => array (itemsWithout drop 0 items)
  | object members => object (membersWithout drop members)
  | v => v

/-- The items of a list, from a position on, without the members at the ways to drop. -/
def itemsWithout (drop : Way → Bool) (index : Nat) : List Json → List Json
  | [] => []
  | v :: vs => v.without (fun way => drop (.item index :: way)) :: itemsWithout drop (index + 1) vs

/-- The members of an object that stay. -/
def membersWithout (drop : Way → Bool) : List (String × Json) → List (String × Json)
  | [] => []
  | (key, v) :: ms =>
    if drop [.member key] then membersWithout drop ms
    else (key, v.without (inMember drop key)) :: membersWithout drop ms

end

variable {drop : Way → Bool} {key : String}

@[simp] theorem without_bool (b : Bool) : without drop (bool b) = bool b := rfl

@[simp] theorem without_string (s : String) : without drop (string s) = string s := rfl

@[simp] theorem inMember_never (key : String) :
    inMember (fun _ => false) key = fun _ => false := rfl

@[simp] theorem inItem_never (key : String) (index : Nat) :
    inItem (fun _ => false) key index = fun _ => false := rfl

mutual

/-- Nothing changes when nothing is dropped. -/
theorem without_never : ∀ j : Json, without (fun _ => false) j = j
  | array items => congrArg array (itemsWithout_never 0 items)
  | object members => congrArg object (membersWithout_never members)
  | null | bool _ | whole _ | decimal _ | string _ => rfl

theorem itemsWithout_never : ∀ (index : Nat) (items : List Json),
    itemsWithout (fun _ => false) index items = items
  | _, [] => rfl
  | index, v :: vs => by
    rw [itemsWithout, without_never v, itemsWithout_never (index + 1) vs]

theorem membersWithout_never : ∀ members : List (String × Json),
    membersWithout (fun _ => false) members = members
  | [] => rfl
  | (key, v) :: ms => by
    rw [membersWithout, inMember_never, without_never v, membersWithout_never ms, if_neg (by simp)]

end

/-! ## 2. Finding members -/

@[simp] theorem member?_cons (key k : String) (v : Json) (ms : List (String × Json)) :
    member? key (object ((k, v) :: ms)) =
      if k == key then some v else member? key (object ms) := by
  simp only [member?, List.find?_cons]
  split <;> simp [*]

@[simp] theorem member?_nil (key : String) : member? key (object []) = none := rfl

/-- Behind a member that may be missing, other members are found as if it were not there. -/
@[simp] theorem member?_omitted_append {α : Type} (key k : String) (f : α → Json) (o : Option α)
    (ms : List (String × Json)) :
    member? key (object (omitted k f o ++ ms)) =
      if k == key then (o.map f).or (member? key (object ms)) else member? key (object ms) := by
  cases o with
  | none => simp [omitted]
  | some a =>
    rw [omitted, List.singleton_append, member?_cons]
    split <;> simp

@[simp] theorem member?_omitted {α : Type} (key k : String) (f : α → Json) (o : Option α) :
    member? key (object (omitted k f o)) = if k == key then o.map f else none := by
  have h := member?_omitted_append key k f o []
  simpa using h

/-- **A member that stays is found as before**, without what is dropped inside it. -/
theorem member?_without (drop : Way → Bool) (key : String) (j : Json) :
    (j.without drop).member? key =
      if drop [.member key] then none else (j.member? key).map (without (inMember drop key)) := by
  match j with
  | null | bool _ | whole _ | decimal _ | string _ | array _ => simp [without, member?]
  | object [] => simp [without, membersWithout]
  | object ((k, v) :: ms) =>
    have ih := member?_without drop key (object ms)
    rw [without] at ih ⊢
    by_cases hdrop : drop [.member k]
    · rw [membersWithout, if_pos hdrop, ih, member?_cons]
      by_cases hk : k = key
      · rw [if_pos (hk ▸ hdrop), if_pos (hk ▸ hdrop)]
      · simp [hk]
    · rw [membersWithout, if_neg hdrop, member?_cons, member?_cons, ih]
      by_cases hk : k = key
      · subst hk
        simp [hdrop]
      · simp [hk]

/-! ## 3. What may be dropped -/

/-- What a record can do without: its own members that have defaults, and whatever the records in
the lists that it holds can do without. -/
def mayLack (own : List String) (lists : List (String × (Way → Bool))) : Way → Bool
  | [.member key] => own.contains key
  | .member key :: .item _ :: way => ((lists.lookup key).map (· way)).getD false
  | _ => false

section Kept

variable {own : List String} {lists : List (String × (Way → Bool))}

/-- A member that a table does not name stays as it is. -/
theorem inMember_of_kept (hdrop : ∀ way, drop way → mayLack own lists way) (key : String)
    (hown : own.contains key = false) (hlists : lists.lookup key = none) :
    inMember drop key = fun _ => false := by
  funext way
  refine Bool.eq_false_iff.mpr fun h => ?_
  have hmay := hdrop _ h
  match way with
  | [] => exact absurd hmay (by rw [mayLack, hown]; simp)
  | .member _ :: _ => exact absurd hmay (by simp [mayLack])
  | .item _ :: _ => exact absurd hmay (by simp [mayLack, hlists])

/-- A member with a list of records stays, unless it has a default itself. -/
theorem drop_member_of_kept (hdrop : ∀ way, drop way → mayLack own lists way) (key : String)
    (hown : own.contains key = false) : drop [.member key] = false :=
  Bool.eq_false_iff.mpr fun h => absurd (hdrop _ h) (by rw [mayLack, hown]; simp)

/-- What is dropped inside a record of a list is what such a record can do without. -/
theorem mayLack_of_inItem (hdrop : ∀ way, drop way → mayLack own lists way) {key : String}
    {inner : Way → Bool} (hlists : lists.lookup key = some inner) (i : Nat) :
    ∀ way, inItem drop key i way → inner way := by
  intro way h
  have hmay := hdrop _ h
  simpa [mayLack, hlists] using hmay

end Kept

/-! ## 4. Reading members that may be left out -/

/-- What is read for a member with a default. -/
def defaultAt {α : Type} (drop : Way → Bool) (key : String) (default a : α) : α :=
  if drop [.member key] then default else a

@[simp] theorem defaultAt_never {α : Type} (key : String) (default a : α) :
    defaultAt (fun _ => false) key default a = a := rfl

variable {α : Type} {j : Json} {f : Json → Option α}

/-- A member that must be there is read as before if the table does not name it. -/
theorem required_without {own : List String} {lists : List (String × (Way → Bool))}
    (hdrop : ∀ way, drop way → mayLack own lists way) (hown : own.contains key = false)
    (hlists : lists.lookup key = none) :
    (j.without drop).required key f = j.required key f := by
  have hkept := inMember_of_kept hdrop key hown hlists
  have hstays : drop [.member key] = false := congrFun hkept []
  have hsame : without (fun _ => false) = id := funext without_never
  rw [required, required, member?_without, hstays, hkept, hsame, Option.map_id]
  rfl

/-- A member that may be missing or null reads as missing when it is dropped. -/
theorem optional_without {o : Option String} (h : j.member? key = o.map string) :
    (j.without drop).optional key string? = some (defaultAt drop key none o) := by
  rw [optional, member?_without, h, defaultAt]
  by_cases hdrop : drop [.member key]
  · simp [hdrop]
  · cases o <;> simp [hdrop, string?]

/-- A truth value reads as its default when it is dropped. -/
theorem defaulted_without {b default : Bool} (h : j.member? key = some (bool b)) :
    (j.without drop).defaulted key bool? default = some (defaultAt drop key default b) := by
  rw [defaulted, member?_without, h, defaultAt]
  by_cases hdrop : drop [.member key] <;> simp [hdrop, bool?]

section Lists

@[simp] theorem mapIdx_same (as : List α) : (as.mapIdx fun _ a => a) = as := by
  induction as with
  | nil => rfl
  | cons a as ih => rw [List.mapIdx_cons, ih]

variable {enc : α → Json} {reset : (Way → Bool) → α → α} {as : List α}

/-- **A list of records is read record by record**, each without what is dropped inside it. -/
theorem listOf_without
    (h : ∀ a ∈ as, ∀ i, f ((enc a).without (inItem drop key i)) =
      some (reset (inItem drop key i) a)) :
    listOf f ((array (as.map enc)).without (inMember drop key)) =
      some (as.mapIdx fun i a => reset (inItem drop key i) a) := by
  -- positions count from the first item of the whole list
  suffices hfrom : ∀ start, (itemsWithout (inMember drop key) start (as.map enc)).mapM f =
      some (as.mapIdx fun i a => reset (inItem drop key (start + i)) a) by
    simpa [listOf, array?, without] using hfrom 0
  induction as with
  | nil => intro start; rfl
  | cons a as ih =>
    intro start
    obtain ⟨ha, has⟩ := List.forall_mem_cons.mp h
    have hrest := ih has (start + 1)
    simp only [Nat.add_assoc, Nat.add_comm 1] at hrest
    rw [List.map_cons, itemsWithout, List.mapM_cons, hrest, List.mapIdx_cons]
    exact congrArg (· >>= _) (ha start)

/-- A list of records that must be there. -/
theorem required_listOf_without (hkept : drop [.member key] = false)
    (hmember : j.member? key = some (array (as.map enc)))
    (h : ∀ a ∈ as, ∀ i, f ((enc a).without (inItem drop key i)) =
      some (reset (inItem drop key i) a)) :
    (j.without drop).required key (listOf f) =
      some (as.mapIdx fun i a => reset (inItem drop key i) a) := by
  rw [required, member?_without, hkept, hmember]
  exact listOf_without h

/-- A list of records that is empty when it is dropped. -/
theorem defaulted_listOf_without (hmember : j.member? key = some (array (as.map enc)))
    (h : ∀ a ∈ as, ∀ i, f ((enc a).without (inItem drop key i)) =
      some (reset (inItem drop key i) a)) :
    (j.without drop).defaulted key (listOf f) [] =
      some (defaultAt drop key [] (as.mapIdx fun i a => reset (inItem drop key i) a)) := by
  rw [defaulted, member?_without, hmember, defaultAt]
  by_cases hdrop : drop [.member key]
  · rw [if_pos hdrop, if_pos hdrop]
  · rw [if_neg hdrop, if_neg hdrop]
    exact listOf_without h

end Lists

@[simp] theorem string?_string (s : String) : string? (string s) = some s := rfl

@[simp] theorem bool?_bool (b : Bool) : bool? (bool b) = some b := rfl

@[simp] theorem listOf_ofStrings (xs : List String) : listOf string? (ofStrings xs) = some xs := by
  suffices h : (xs.map string).mapM string? = some xs by simpa [listOf, ofStrings, array?] using h
  induction xs with
  | nil => rfl
  | cons x xs ih => rw [List.map_cons, List.mapM_cons, ih]; rfl

end Codemap.Json
