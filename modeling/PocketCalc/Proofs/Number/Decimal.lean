import Mathlib.Algebra.Order.Field.Power
import Mathlib.Data.Int.Log
import Mathlib.Data.Rat.Floor
import Mathlib.Tactic.NormNum
import Mathlib.Tactic.Positivity
import PocketCalc.Number.Shortest

/-!
Contract: decimals and finite magnitudes as rational numbers.

Owns:
- the rational value of a decimal and of a finite magnitude;
- the powers of ten between which a finite magnitude lies;
- the bound of a decimal's magnitude is the exponent of its leading digit.

Does not own: which word is nearest to a decimal; see `Number/Halfway`.
-/

namespace PocketCalc.Number

/-- The value of a finite magnitude. -/
def magnitude (word : Nat) : ℚ := units word / unitsPerOne

/-! ## Finite magnitudes -/

theorem significand_pos {word : Nat} (nonzero : word ≠ 0) : 0 < significand word := by
  unfold significand
  split <;> omega

theorem le_significand {word : Nat} (normal : 0x10000000000000 ≤ word) :
    0x10000000000000 ≤ significand word := by
  unfold significand
  rw [if_neg (by omega)]
  exact Nat.le_add_right _ _

theorem units_eq (word : Nat) : units word = significand word * 2 ^ doublings word := rfl

theorem units_pos {word : Nat} (nonzero : word ≠ 0) : 0 < units word :=
  Nat.mul_pos (significand_pos nonzero) (Nat.two_pow_pos _)

private theorem mul_two_pow_lt {number exponent bits most total : Nat} (small : number < 2 ^ bits)
    (le : exponent ≤ most) (sum : bits + most = total) : number * 2 ^ exponent < 2 ^ total := by
  have grown := Nat.mul_le_mul_left number (Nat.pow_le_pow_right (by decide : 0 < 2) le)
  have bounded := Nat.mul_lt_mul_of_pos_right small (Nat.two_pow_pos most)
  rw [← Nat.pow_add, sum] at bounded
  exact Nat.lt_of_le_of_lt grown bounded

theorem units_lt {word : Nat} (finite : word < infinityWord) : units word < 2 ^ 2098 := by
  have significandLt : significand word < 2 ^ 53 := by
    unfold significand
    split <;> omega
  have doublingsLe : doublings word ≤ 2045 := by
    unfold infinityWord at finite
    unfold doublings
    omega
  rw [units_eq]
  exact mul_two_pow_lt significandLt doublingsLe rfl

theorem unitsPerOne_pos : (0 : ℚ) < unitsPerOne := by
  have positive : 0 < unitsPerOne := by decide +kernel
  exact Nat.cast_pos.mpr positive

theorem magnitude_nonneg (word : Nat) : 0 ≤ magnitude word :=
  div_nonneg (Nat.cast_nonneg _) unitsPerOne_pos.le

theorem magnitude_zero : magnitude 0 = 0 := by
  have noUnits : units 0 = 0 := by decide
  rw [magnitude, noUnits, Nat.cast_zero, zero_div]

theorem magnitude_pos {word : Nat} (nonzero : word ≠ 0) : 0 < magnitude word := by
  have unitsPositive : (0 : ℚ) < units word := by
    exact_mod_cast units_pos nonzero
  exact div_pos unitsPositive unitsPerOne_pos

/-- No finite magnitude reaches 10 ^ 309. -/
theorem log_magnitude_lt {word : Nat} (nonzero : word ≠ 0) (finite : word < infinityWord) :
    Int.log 10 (magnitude word) < 309 := by
  have enough : 2 ^ 2098 ≤ 10 ^ 309 * unitsPerOne := by
    decide +kernel
  have bounded : (units word : ℚ) < 10 ^ 309 * unitsPerOne := by
    exact_mod_cast Nat.lt_of_lt_of_le (units_lt finite) enough
  rw [← Int.lt_zpow_iff_log_lt (by decide) (magnitude_pos nonzero), magnitude,
    div_lt_iff₀ unitsPerOne_pos]
  exact_mod_cast bounded

/-- Every finite magnitude but zero is above 10 ^ -324. -/
theorem le_log_magnitude {word : Nat} (nonzero : word ≠ 0) :
    -324 ≤ Int.log 10 (magnitude word) := by
  have enough : unitsPerOne ≤ 1 * 10 ^ 324 := by
    decide +kernel
  have bounded : (unitsPerOne : ℚ) ≤ units word * 10 ^ 324 := by
    exact_mod_cast enough.trans (Nat.mul_le_mul_right _ (units_pos nonzero))
  rw [← Int.zpow_le_iff_le_log (by decide) (magnitude_pos nonzero), magnitude,
    le_div_iff₀ unitsPerOne_pos, Nat.cast_ofNat, zpow_neg, inv_mul_le_iff₀ (by positivity),
    zpow_ofNat, mul_comm]
  exact bounded

namespace Decimal

def toRat (decimal : Decimal) : ℚ := decimal.coefficient * 10 ^ decimal.exponent

theorem numerator_eq (decimal : Decimal) :
    decimal.numerator = decimal.coefficient * 10 ^ decimal.exponent.toNat :=
  rfl

theorem denominator_eq (decimal : Decimal) :
    decimal.denominator = 10 ^ (-decimal.exponent).toNat :=
  rfl

theorem denominator_pos (decimal : Decimal) : 0 < decimal.denominator :=
  Nat.pow_pos (by decide)

theorem toRat_eq_div (decimal : Decimal) :
    decimal.toRat = (decimal.numerator : ℚ) / decimal.denominator := by
  rw [toRat, numerator_eq, denominator_eq]
  rcases Int.eq_nat_or_neg decimal.exponent with ⟨places, positive | negative⟩
  · rw [positive]
    simp
  · rw [negative]
    simp [zpow_neg, div_eq_mul_inv]

theorem toRat_pos_iff {decimal : Decimal} : 0 < decimal.toRat ↔ decimal.coefficient ≠ 0 := by
  have tenPositive : (0 : ℚ) < 10 ^ decimal.exponent := by positivity
  rw [toRat, mul_pos_iff_of_pos_right tenPositive, Nat.cast_pos, Nat.pos_iff_ne_zero]

/-- A whole number that is not zero lies between the powers of ten that its digits name. -/
theorem digits_bounds {number : Nat} (nonzero : number ≠ 0) :
    ∃ further, (digits number).length = further + 1 ∧ 10 ^ further ≤ number ∧
      number < 10 ^ (further + 1) := by
  have present : (digits number).length ≠ 0 := Nat.ne_of_gt Nat.length_toDigits_pos
  obtain ⟨further, lengthEq⟩ := Nat.exists_eq_succ_of_ne_zero present
  have upper : number < 10 ^ (further + 1) :=
    (Nat.length_toDigits_le_iff (by decide) (Nat.succ_pos further)).mp (Nat.le_of_eq lengthEq)
  refine ⟨further, lengthEq, ?_, upper⟩
  by_contra less
  by_cases single : further = 0
  · rw [single] at less
    omega
  · have shorter := (Nat.length_toDigits_le_iff (n := number) (by decide : 1 < 10)
      (Nat.pos_of_ne_zero single)).mpr (Nat.lt_of_not_le less)
    rw [digits] at lengthEq
    omega

/-- The bound of a decimal's magnitude is the exponent of its leading digit plus one. -/
theorem magnitudeBound_eq_log {decimal : Decimal} (nonzero : decimal.coefficient ≠ 0) :
    decimal.magnitudeBound = Int.log 10 decimal.toRat + 1 := by
  have tenPositive : (0 : ℚ) < 10 ^ decimal.exponent := by positivity
  obtain ⟨further, lengthEq, leadingLe, coefficientLt⟩ := digits_bounds nonzero
  have boundEq : decimal.magnitudeBound = further + 1 + decimal.exponent := by
    rw [magnitudeBound, lengthEq]
    rfl
  have lower : ((10 : ℕ) : ℚ) ^ (further + decimal.exponent) ≤ decimal.toRat := by
    have leadingLe' : (10 : ℚ) ^ further ≤ decimal.coefficient := by
      exact_mod_cast leadingLe
    rw [Nat.cast_ofNat, zpow_add₀ (by norm_num), zpow_natCast, toRat]
    exact mul_le_mul_of_nonneg_right leadingLe' tenPositive.le
  have upper : decimal.toRat < ((10 : ℕ) : ℚ) ^ ((further + 1 : ℕ) + decimal.exponent) := by
    have coefficientLt' : (decimal.coefficient : ℚ) < 10 ^ (further + 1) := by
      exact_mod_cast coefficientLt
    rw [Nat.cast_ofNat, zpow_add₀ (by norm_num), zpow_natCast, toRat]
    exact mul_lt_mul_of_pos_right coefficientLt' tenPositive
  have atLeast := (Int.zpow_le_iff_le_log (by decide : 1 < 10) (toRat_pos_iff.mpr nonzero)).mp lower
  have below := (Int.lt_zpow_iff_log_lt (by decide : 1 < 10) (toRat_pos_iff.mpr nonzero)).mp upper
  rw [boundEq]
  omega

end Decimal

end PocketCalc.Number
