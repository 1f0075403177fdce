/-
# The order of floating point numbers

Floating point numbers other than the one that is no number are linearly ordered by their `place`:
by class from negative to positive infinity, then by exponent and mantissa, for negative numbers in
reverse.  So among them `≤` is transitive and the opposite of `>` (`float_le_trans`,
`not_lt_iff_le`).

Sums of numbers stay numbers as long as what is added is finite (`IsNumber.add`): only opposite
infinities, and what is no number already, have a sum that is none.
-/
import Mathlib

namespace Codemap.Floats

open Float.Model Float.Model.UnpackedFloat

/-! ## 1. Places -/

/-- The place of a floating point number among the others. -/
def place : UnpackedFloat → ℤ ×ₗ ℤ ×ₗ ℤ
  | .infinity .negative => toLex (-2, toLex (0, 0))
  | .finite .negative m e _ => toLex (-1, toLex (-e, -(m : ℤ)))
  | .zero _ => toLex (0, toLex (0, 0))
  | .finite .positive m e _ => toLex (1, toLex (e, (m : ℤ)))
  | .infinity .positive => toLex (2, toLex (0, 0))
  | .notANumber => toLex (3, toLex (0, 0))

/-- Positive numbers are compared by exponent, then by mantissa. -/
theorem then_compare_eq_cmp (c e f : ℤ) (m n : ℕ) : (compare e f).then (compare m n) =
    cmp (toLex (c, toLex (e, (m : ℤ)))) (toLex (c, toLex (f, (n : ℤ)))) := by
  simp only [cmp, cmpUsing, Prod.Lex.toLex_lt_toLex, lt_irrefl, true_and, false_or, Nat.cast_lt]
  rcases lt_trichotomy e f with h | rfl | h
  · simp [h, Int.compare_eq_lt.mpr h]
  · rcases lt_trichotomy m n with h | rfl | h
    · simp [h, Nat.compare_eq_lt.mpr h]
    · simp
    · simp [h, Nat.compare_eq_gt.mpr h, h.not_gt]
  · simp [h, Int.compare_eq_gt.mpr h, h.not_gt, h.ne']

/-- Negative numbers are compared the other way round. -/
theorem swap_then_compare_eq_cmp (c e f : ℤ) (m n : ℕ) :
    ((compare e f).then (compare m n)).swap =
      cmp (toLex (c, toLex (-e, -(m : ℤ)))) (toLex (c, toLex (-f, -(n : ℤ)))) := by
  rw [then_compare_eq_cmp c, cmp_swap]
  simp only [cmp, cmpUsing, Prod.Lex.toLex_lt_toLex, lt_irrefl, true_and, false_or,
    neg_lt_neg_iff, neg_inj, eq_comm (a := f)]

/-- **Numbers are compared by their places.** -/
theorem compare_eq_cmp_place {a b : UnpackedFloat} (ha : a ≠ .notANumber) (hb : b ≠ .notANumber) :
    a.compare b = some (cmp (place a) (place b)) := by
  cases a with
  | notANumber => exact absurd rfl ha
  | infinity s =>
    cases b with
    | notANumber => exact absurd rfl hb
    | infinity t => cases s <;> cases t <;> rfl
    | zero t | finite t =>
      cases s <;> cases t <;>
        simp [UnpackedFloat.compare, place, cmp, cmpUsing, Prod.Lex.toLex_lt_toLex]
  | zero s =>
    cases b with
    | notANumber => exact absurd rfl hb
    | infinity t | zero t | finite t =>
      cases t <;> simp [UnpackedFloat.compare, place, cmp, cmpUsing, Prod.Lex.toLex_lt_toLex]
  | finite s m e h =>
    cases b with
    | notANumber => exact absurd rfl hb
    | infinity t | zero t =>
      cases s <;> cases t <;>
        simp [UnpackedFloat.compare, place, cmp, cmpUsing, Prod.Lex.toLex_lt_toLex]
    | finite t n f =>
      cases s <;> cases t
      · exact congrArg some (swap_then_compare_eq_cmp (-1) e f m n)
      · simp [UnpackedFloat.compare, place, cmp, cmpUsing, Prod.Lex.toLex_lt_toLex]
      · simp [UnpackedFloat.compare, place, cmp, cmpUsing, Prod.Lex.toLex_lt_toLex]
      · exact congrArg some (then_compare_eq_cmp 1 e f m n)

/-! ## 2. The order of numbers -/

/-- A floating point number that is a number. -/
def IsNumber (x : Float) : Prop := x.toModel.unpack ≠ .notANumber

variable {a b c : Float}

theorem lt_iff_place_lt (ha : IsNumber a) (hb : IsNumber b) :
    a < b ↔ place a.toModel.unpack < place b.toModel.unpack := by
  show decide (UnpackedFloat.lt _ _ = true) = true ↔ _
  simp [UnpackedFloat.lt, compare_eq_cmp_place ha hb]

theorem le_iff_place_le (ha : IsNumber a) (hb : IsNumber b) :
    a ≤ b ↔ place a.toModel.unpack ≤ place b.toModel.unpack := by
  show decide (UnpackedFloat.le _ _ = true) = true ↔ _
  simp [UnpackedFloat.le, compare_eq_cmp_place ha hb, Ordering.isLE_iff_ne_gt]

/-- What is no number is not compared. -/
theorem isNumber_of_le (h : a ≤ b) : IsNumber a ∧ IsNumber b := by
  replace h : UnpackedFloat.le a.toModel.unpack b.toModel.unpack = true := of_decide_eq_true h
  constructor
  · intro ha
    rw [ha] at h
    exact absurd h Bool.false_ne_true
  · intro hb
    rw [hb, UnpackedFloat.le] at h
    cases hu : a.toModel.unpack <;> simp [hu, UnpackedFloat.compare] at h

/-- **Of two numbers, one is at most the other unless it is greater.** -/
theorem not_lt_iff_le (ha : IsNumber a) (hb : IsNumber b) : ¬ a < b ↔ b ≤ a := by
  rw [lt_iff_place_lt ha hb, le_iff_place_le hb ha, not_lt]

theorem float_le_trans (hab : a ≤ b) (hbc : b ≤ c) : a ≤ c := by
  obtain ⟨ha, hb⟩ := isNumber_of_le hab
  have hc : IsNumber c := (isNumber_of_le hbc).2
  rw [le_iff_place_le ha hb] at hab
  rw [le_iff_place_le hb hc] at hbc
  exact (le_iff_place_le ha hc).mpr (hab.trans hbc)

/-! ## 3. Sums -/

/-- A floating point number that is neither infinite nor no number. -/
def IsFinite (x : Float) : Prop := x.toModel.unpack.isFinite

instance (x : Float) : Decidable (IsFinite x) := inferInstanceAs (Decidable (_ = true))

theorem IsFinite.isNumber (h : IsFinite a) : IsNumber a := by
  intro hnan
  rw [IsFinite, hnan] at h
  exact Bool.false_ne_true h

/-- A pattern of bits is no number when its exponent is the greatest and its mantissa is not
zero. -/
theorem unpack_eq_notANumber_iff (spec : Format) (bits : BitVec spec.numBits) :
    UnpackedFloat.unpack spec bits = .notANumber ↔
      unpackExponent bits = -1#_ ∧ unpackMantissa bits ≠ 0#_ := by
  simp only [UnpackedFloat.unpack]
  split
  next he => split <;> simp [*]
  next he =>
    split
    · split <;> simp [he]
    · simp [he]

/-- A number that is packed is a number. -/
theorem unpack_pack_ne_notANumber {x : UnpackedFloat} (hx : x ≠ .notANumber) :
    (Float.Model.pack x).unpack ≠ .notANumber := by
  intro hnan
  obtain ⟨hexponent, hmantissa⟩ := (unpack_eq_notANumber_iff Format.binary64 _).mp hnan
  revert hexponent hmantissa
  show unpackExponent (UnpackedFloat.pack Format.binary64 x) = _ →
    ¬ unpackMantissa (UnpackedFloat.pack Format.binary64 x) = _ → False
  fun_cases UnpackedFloat.pack Format.binary64 x with
  | case1 => exact absurd rfl hx
  | case2 | case4 => simp [packedInfinity, unpackMantissa_packComponents]
  | case3 => simp [packedZero, unpackMantissa_packComponents]
  | case5 s m e hm log biased hfits =>
    intro hexponent
    rw [unpackExponent_packComponents] at hexponent
    have htoNat : biased % 2 ^ 11 = 2 ^ 11 - 1 := by
      simpa using congrArg BitVec.toNat hexponent
    have hlt : ¬ 2 ^ 11 ≤ biased + 1 := hfits
    omega
  | case6 => simp [unpackExponent_packComponents]

theorem round_ne_notANumber (spec : Format) (s : Sign) (m : Nat) (e : Int) :
    UnpackedFloat.round spec s m e ≠ .notANumber := by
  simp only [UnpackedFloat.round, roundWithAccuracy]
  split <;> simp

theorem normalize_ne_notANumber (spec : Format) (m e : Int) (s : Sign) :
    UnpackedFloat.normalize spec m e s ≠ .notANumber := by
  rw [UnpackedFloat.normalize]
  split
  · exact round_ne_notANumber _ _ _ _
  · simp
  · exact round_ne_notANumber _ _ _ _

theorem add_ne_notANumber (spec : Format) {x y : UnpackedFloat} (hx : x ≠ .notANumber)
    (hy : y.isFinite) : UnpackedFloat.add spec x y ≠ .notANumber := by
  cases y with
  | notANumber | infinity => exact absurd hy Bool.false_ne_true
  | zero t =>
    cases x with
    | notANumber => exact absurd rfl hx
    | zero s =>
      rw [UnpackedFloat.add]
      split <;> simp
    | infinity s | finite s => simp [UnpackedFloat.add]
  | finite t n f =>
    cases x with
    | notANumber => exact absurd rfl hx
    | infinity s | zero s => simp [UnpackedFloat.add]
    | finite s => exact normalize_ne_notANumber _ _ _ _

/-- **A number and a finite one have a number as their sum.** -/
theorem IsNumber.add (ha : IsNumber a) (hb : IsFinite b) : IsNumber (a + b) :=
  unpack_pack_ne_notANumber (add_ne_notANumber _ ha hb)

end Codemap.Floats
