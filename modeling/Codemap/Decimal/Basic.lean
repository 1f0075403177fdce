/-
# Decimal numbers and the texts of binary floating point numbers

A decimal is a sign, a natural number of units and a power of ten that says what one unit is
worth.  `Decimal.shortest` finds the decimal with the fewest digits that lies closer to a given
floating point number than to any other, which is the text such numbers are written with;
`Decimal.fixed` rounds to a fixed number of places, where a tie goes to the even neighbour.
-/

namespace Codemap

/-! ## 1. Decimals -/

/-- The number `±units · 10 ^ exponent`. -/
structure Decimal where
  negative : Bool
  units : Nat
  exponent : Int
deriving Repr, DecidableEq, Inhabited

namespace Decimal

/-- The floating point number nearest to a decimal. -/
def toFloat (d : Decimal) : Float :=
  let f := match d.exponent with
    | .ofNat e => Float.ofScientific d.units false e
    | .negSucc e => Float.ofScientific d.units true (e + 1)
  if d.negative then -f else f

/-- The decimal without zeros at the end of its units. -/
def trimZeros : Nat → Decimal → Decimal
  | 0, d => d
  | fuel + 1, d =>
    if d.units != 0 && d.units % 10 == 0 then
      trimZeros fuel { d with units := d.units / 10, exponent := d.exponent + 1 }
    else d

end Decimal

/-! ## 2. Floating point numbers as binary fractions -/

/-- What the bits of a floating point number stand for. -/
inductive Binary where
  | finite (negative : Bool) (significand : Nat) (exponent : Int)
  | infinite (negative : Bool)
  | notANumber
deriving Repr

namespace Binary

/-- Reads the sign, the exponent and the significand off the bits. -/
def ofFloat (f : Float) : Binary :=
  let bits : Nat := f.toBits.toNat
  let negative := bits / Nat.pow 2 63 == 1
  let exponent : Nat := bits / Nat.pow 2 52 % Nat.pow 2 11
  let fraction : Nat := bits % Nat.pow 2 52
  if exponent == 2047 then
    if fraction == 0 then .infinite negative else .notANumber
  else if exponent == 0 then .finite negative fraction (-1074)
  else .finite negative (Nat.pow 2 52 + fraction) ((exponent : Int) - 1075)

end Binary

namespace Decimal

/-! ## 3. Fewest digits -/

/-- `10 ^ e` as a fraction. -/
def tenPower (e : Int) : Nat × Nat :=
  match e with
  | .ofNat n => (Nat.pow 10 n, 1)
  | .negSucc n => (1, Nat.pow 10 (n + 1))

/-- `2 ^ e` as a fraction. -/
def twoPower (e : Int) : Nat × Nat :=
  match e with
  | .ofNat n => (Nat.pow 2 n, 1)
  | .negSucc n => (1, Nat.pow 2 (n + 1))

/-- The points of the grid with unit `10 ^ e` that lie within half a step of the number
`significand · 2 ^ q`, the nearer first. -/
def onGrid (significand : Nat) (q e : Int) : List Nat :=
  let (tn, td) := tenPower e
  let (bn, bd) := twoPower q
  -- the number is `num / den` units of the grid, and its half steps are `low` and `high`
  let den := 4 * bd * tn
  let num := 4 * significand * bn * td
  let high := 2 * bn * td
  let low := if significand == Nat.pow 2 52 && q != -1074 then bn * td else high
  let even := significand % 2 == 0
  let fits (x : Nat) : Bool :=
    let p := x * den
    if p ≤ num then (if even then num - p ≤ low else num - p < low)
    else (if even then p - num ≤ high else p - num < high)
  let below := num / den
  let above := below + 1
  let order := if num - below * den ≤ above * den - num then [below, above] else [above, below]
  order.filter fun x => x != 0 && fits x

/-- The first grid, from coarse to fine, with a point within half a step. -/
def search (significand : Nat) (q : Int) (top : Int) : Nat → Nat → Option (Nat × Int)
  | 0, _ => none
  | fuel + 1, digits =>
    let e := top - digits
    match onGrid significand q e with
    | x :: _ => some (x, e)
    | [] => search significand q top fuel (digits + 1)

/-- A power of ten above the number `significand · 2 ^ q`. -/
def magnitude (significand : Nat) (q : Int) : Int :=
  let (bn, bd) := twoPower q
  let whole := significand * bn / bd
  if whole > 0 then ((Nat.toDigits 10 whole).length : Int)
  else
    let inverse := bd / (significand * bn)
    1 - ((Nat.toDigits 10 inverse).length : Int)

/-- The shortest decimal that reads back as the given finite number. -/
def shortest (negative : Bool) (significand : Nat) (q : Int) : Decimal :=
  if significand == 0 then ⟨negative, 0, 0⟩
  else
    match search significand q (magnitude significand q) 20 0 with
    | some (x, e) => trimZeros 400 ⟨negative, x, e⟩
    | none => ⟨negative, significand, 0⟩

/-! ## 4. Texts -/

/-- The digits of the units. -/
def digits (d : Decimal) : List Char := Nat.toDigits 10 d.units

/-- A minus sign before negative numbers. -/
def signed (negative : Bool) (s : List Char) : List Char := if negative then '-' :: s else s

/-- The digits with the point where it belongs; `whole` is written after a point that would stand
at the end. -/
def positional (whole : List Char) (d : Decimal) : List Char :=
  let ds := d.digits
  match d.exponent with
  | .ofNat e => ds ++ List.replicate e '0' ++ whole
  | .negSucc e =>
    let places := e + 1
    if places < ds.length then
      ds.take (ds.length - places) ++ '.' :: ds.drop (ds.length - places)
    else '0' :: '.' :: (List.replicate (places - ds.length) '0' ++ ds)

/-- One digit, the point and the rest, and the power of ten. -/
def scientific (d : Decimal) : List Char :=
  let ds := d.digits
  let power : Int := d.exponent + (ds.length - 1 : Nat)
  let head := match ds with
    | [] => []
    | [c] => [c]
    | c :: rest => c :: '.' :: rest
  head ++ 'e' :: (toString power).toList

/-- The number in the notation of data files: positional from `0.00001` up to sixteen digits
before the point, and with a digit after the point; else scientific. -/
def dataText (d : Decimal) : List Char :=
  let point : Int := d.exponent + d.digits.length
  signed d.negative <|
    if d.units == 0 then ['0', '.', '0']
    else if -5 < point && point ≤ 16 then positional ['.', '0'] d
    else scientific d

/-- The number written out in full. -/
def plainText (d : Decimal) : List Char := signed d.negative (positional [] d)

/-- A quotient rounded to the nearest number; a tie goes to the even one. -/
def roundDiv (num den : Nat) : Nat :=
  let q := num / den
  let r := num % den
  if 2 * r < den then q
  else if 2 * r > den then q + 1
  else if q % 2 == 0 then q else q + 1

/-- The number `significand · 2 ^ q` with exactly `places` digits after the point. -/
def fixed (places : Nat) (negative : Bool) (significand : Nat) (q : Int) : List Char :=
  let (bn, bd) := twoPower q
  let n := roundDiv (significand * bn * Nat.pow 10 places) bd
  let ds := Nat.toDigits 10 n
  let ds := List.replicate (places + 1 - ds.length) '0' ++ ds
  signed negative (ds.take (ds.length - places) ++ '.' :: ds.drop (ds.length - places))

end Decimal

/-- The shortest decimal that reads back as a number; `none` for infinities and what is no
number. -/
def Decimal.ofFloat? (f : Float) : Option Decimal :=
  match Binary.ofFloat f with
  | .finite negative significand q => some (.shortest negative significand q)
  | _ => none

/-- A number in full, as messages show it. -/
def floatText (f : Float) : String :=
  match Binary.ofFloat f with
  | .finite negative significand q => .ofList (Decimal.shortest negative significand q).plainText
  | .infinite negative => if negative then "-inf" else "inf"
  | .notANumber => "NaN"

/-- A number with a fixed count of places after the point. -/
def floatFixed (places : Nat) (f : Float) : String :=
  match Binary.ofFloat f with
  | .finite negative significand q => .ofList (Decimal.fixed places negative significand q)
  | .infinite negative => if negative then "-inf" else "inf"
  | .notANumber => "NaN"

end Codemap
