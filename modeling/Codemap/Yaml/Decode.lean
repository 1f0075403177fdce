/-
# Reading values off nodes

What a scalar stands for depends on what is asked for: every scalar is a text, and a plain one may
be a truth value or a number as well.  A node that is left out is an empty list or an empty
mapping, but no truth value and no number.
-/
import Codemap.Yaml.Node

namespace Codemap.Yaml

/-! ## 1. Scalars -/

/-- The text of a scalar. -/
def text? : Yaml → Option String
  | scalar _ t => some t
  | _ => none

/-- The text of a plain scalar. -/
def plain? : Yaml → Option String
  | scalar true t => some t
  | _ => none

/-- The truth value that a node stands for. -/
def bool? (y : Yaml) : Option Bool := do
  match ← y.plain? with
  | "true" | "True" | "TRUE" => some true
  | "false" | "False" | "FALSE" => some false
  | _ => none

/-- The value of the digits of some base. -/
def digits? (base : Nat) (s : List Char) : Option Nat :=
  if s.isEmpty then none
  else s.foldlM
    (fun n c => (Json.hexValue? c).bind fun d => if d < base then some (base * n + d) else none) 0

/-- The bases that are marked after a zero. -/
def bases : List (Char × Nat) := [('x', 16), ('o', 8), ('b', 2)]

/-- The text without a plus sign before it. -/
def dropPlus (s : List Char) : List Char :=
  match s with
  | '+' :: r => r
  | _ => s

/-- The count of at most 64 bits that a text stands for.  Zeros may not stand before other
digits. -/
def natText? (s : List Char) : Option Nat := do
  let n ← match dropPlus s with
    | '0' :: b :: r =>
      match bases.lookup b with
      | some base => digits? base r
      | none => none
    | r => digits? 10 r
  if n < UInt64.size then some n else none

/-- The count that a node stands for. -/
def nat? (y : Yaml) : Option Nat := do natText? (← y.plain?).toList

/-- The exponent of ten after the digits of a number. -/
def exponentText? : List Char → Option Int
  | [] => some 0
  | e :: r =>
    if e == 'e' || e == 'E' then
      match r with
      | '-' :: ds => (digits? 10 ds).map fun n => -(n : Int)
      | _ => (digits? 10 (dropPlus r)).map fun n => (n : Int)
    else none

/-- The decimal number without a sign that a text stands for. -/
def decimalText? (negative : Bool) (s : List Char) : Option Decimal := do
  let (whole, r) := Json.digitsOf s
  let (fraction, r) := match r with
    | '.' :: r => Json.digitsOf r
    | r => ([], r)
  if whole.isEmpty && fraction.isEmpty then none
  let e ← exponentText? r
  return ⟨negative, Json.ofDigits (whole ++ fraction), e - (fraction.length : Int)⟩

/-- The floating point number nearest to a decimal, unless that is infinite. -/
def finite? (d : Decimal) : Option Float :=
  let digits : Int := ((Nat.toDigits 10 d.units).length : Int)
  let d := if d.units == 0 || digits + d.exponent < -400 then ⟨d.negative, 0, 0⟩ else d
  if digits + d.exponent > 400 && d.units != 0 then none
  else
    let f := d.toFloat
    if f.isInf then none else some f

/-- The floating point number that a text stands for. -/
def floatText? (s : String) : Option Float :=
  match s with
  | ".nan" | ".NaN" | ".NAN" => some (0.0 / 0.0)
  | ".inf" | ".Inf" | ".INF" | "+.inf" | "+.Inf" | "+.INF" => some (1.0 / 0.0)
  | "-.inf" | "-.Inf" | "-.INF" => some (-1.0 / 0.0)
  | _ =>
    match s.toList with
    | '+' :: r => (decimalText? false r).bind finite?
    | '-' :: r => (decimalText? true r).bind finite?
    | r => (decimalText? false r).bind finite?

/-- The floating point number that a node stands for. -/
def float? (y : Yaml) : Option Float := do floatText? (← y.plain?)

/-! ## 2. Collections -/

/-- The items of a sequence, each read by `f`. -/
def listOf {α : Type} (f : Yaml → Option α) : Yaml → Option (List α)
  | sequence items => items.mapM f
  | scalar true "" => some []
  | _ => none

/-- The entries of a mapping. -/
def entries? : Yaml → Option (List (Yaml × Yaml))
  | mapping es => some es
  | scalar true "" => some []
  | _ => none

/-- The entries of a mapping, keys and values read by `f` and `g`. -/
def mapOf {κ α : Type} (f : Yaml → Option κ) (g : Yaml → Option α) (y : Yaml) :
    Option (List (κ × α)) := do
  (← y.entries?).mapM fun (k, v) => do
    let k ← f k
    let v ← g v
    return (k, v)

/-- The members of a record: the entries of a mapping whose keys are texts.  Of the members with
known names, none may be given twice. -/
def record? (known : List String) (y : Yaml) : Option (List (String × Yaml)) := do
  let members ← y.mapOf text? some
  let named := (members.map (·.1)).filter known.contains
  if named.eraseDups.length == named.length then some members else none

/-- The member of a record, read by `f`, or the default if it is not there. -/
def memberOr {α : Type} (members : List (String × Yaml)) (name : String) (f : Yaml → Option α)
    (default : α) : Option α :=
  match members.lookup name with
  | some y => f y
  | none => some default

end Codemap.Yaml
