/-
# Data values

The values that data files are made of: null, truth values, numbers, texts, lists, and objects
whose members keep their order.  A number is whole or decimal; the two are told apart, since a
count written as `1.0` is not a count.

Reading members of an object distinguishes a member that is missing from one that is null.
-/
import Codemap.Decimal.Basic

namespace Codemap

/-! ## 1. Values -/

/-- A data value. -/
inductive Json where
  | null
  | bool (b : Bool)
  | whole (n : Int)
  | decimal (d : Decimal)
  | string (s : String)
  | array (items : List Json)
  | object (members : List (String × Json))
deriving Repr, Inhabited

namespace Json

/-- The member of an object under a key. -/
def member? (key : String) : Json → Option Json
  | object members => (members.find? fun m => m.1 == key).map (·.2)
  | _ => none

/-- A floating point number as a data value; what is no finite number is null. -/
def ofFloat (f : Float) : Json :=
  match Decimal.ofFloat? f with
  | some d => decimal d
  | none => null

/-- A count. -/
def ofNat (n : Nat) : Json := whole n

/-- A list of texts. -/
def ofStrings (xs : List String) : Json := array (xs.map string)

/-! ## 2. Reading values -/

/-- The text that a value is. -/
def string? : Json → Option String
  | string s => some s
  | _ => none

/-- The truth value that a value is. -/
def bool? : Json → Option Bool
  | bool b => some b
  | _ => none

/-- The list that a value is. -/
def array? : Json → Option (List Json)
  | array xs => some xs
  | _ => none

/-- The members of the object that a value is. -/
def object? : Json → Option (List (String × Json))
  | object ms => some ms
  | _ => none

/-- The count that a value is: a whole number of at most 64 bits. -/
def nat? : Json → Option Nat
  | whole (.ofNat n) => if n < UInt64.size then some n else none
  | _ => none

/-- The floating point number that a value is. -/
def float? : Json → Option Float
  | whole n => some (Float.ofInt n)
  | decimal d => some d.toFloat
  | _ => none

/-- Each item of a list read by `f`. -/
def listOf {α : Type} (f : Json → Option α) (j : Json) : Option (List α) := do
  (← j.array?).mapM f

/-- A member that must be there. -/
def required {α : Type} (j : Json) (key : String) (f : Json → Option α) : Option α := do
  f (← j.member? key)

/-- A member with a default; null is not the default. -/
def defaulted {α : Type} (j : Json) (key : String) (f : Json → Option α) (default : α) :
    Option α :=
  match j.member? key with
  | none => some default
  | some v => f v

/-- A member that may be missing or null. -/
def optional {α : Type} (j : Json) (key : String) (f : Json → Option α) : Option (Option α) :=
  match j.member? key with
  | none => some none
  | some null => some none
  | some v => (f v).map some

/-! ## 3. Building objects -/

/-- A member that is left out when there is no value. -/
def omitted {α : Type} (key : String) (f : α → Json) : Option α → List (String × Json)
  | none => []
  | some a => [(key, f a)]

/-- A value, or null. -/
def orNull {α : Type} (f : α → Json) : Option α → Json
  | none => null
  | some a => f a

end Json

end Codemap
