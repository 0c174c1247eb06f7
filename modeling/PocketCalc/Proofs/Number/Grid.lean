import PocketCalc.Proofs.Number.Decimal

/-!
Contract: the neighbours of a magnitude on a grid of decimals, as rational numbers.

Owns:
- which multiples of a power of ten are at most a magnitude, and the two that enclose it;
- the nearest of them is within half a step;
- the decade of a magnitude is the exponent of its leading decimal digit, and counts the digits of
  the neighbours on a grid.

Does not own: which grids are searched; see `Number/Shortest` and `Number/Exponential`.
-/

namespace PocketCalc.Number

/-! ## Neighbours -/

theorem stepsDenominator_pos (exponent : Int) : 0 < stepsDenominator exponent := by
  have unitsPositive : 0 < unitsPerOne := by exact_mod_cast unitsPerOne_pos
  exact Nat.mul_pos unitsPositive (Nat.pow_pos (by decide))

/-- Counting in steps of a power of ten divides by that power. -/
theorem stepsNumerator_mul (word : Nat) (exponent : Int) :
    (stepsNumerator word exponent : ℚ) * 10 ^ exponent =
      magnitude word * stepsDenominator exponent := by
  have unitsNonzero := unitsPerOne_pos.ne'
  rw [stepsNumerator, stepsDenominator, magnitude, Nat.pow_eq, Nat.pow_eq]
  rcases Int.eq_nat_or_neg exponent with ⟨places, rfl | rfl⟩
  · rw [Int.toNat_natCast, Int.toNat_neg_natCast]
    push_cast
    rw [zpow_natCast]
    field_simp
  · rw [neg_neg, Int.toNat_natCast, Int.toNat_neg_natCast]
    push_cast
    rw [zpow_neg, zpow_natCast]
    field_simp

/-- The multiples of a step up to the lower neighbour are those that are at most the magnitude. -/
theorem le_coefficient_lowerNeighbour_iff {word count : Nat} {exponent : Int} :
    count ≤ (lowerNeighbour word exponent).coefficient ↔
      (count : ℚ) * 10 ^ exponent ≤ magnitude word := by
  have denominatorPositive : (0 : ℚ) < stepsDenominator exponent := by
    exact_mod_cast stepsDenominator_pos exponent
  have stepPositive : (0 : ℚ) < 10 ^ exponent := by positivity
  rw [lowerNeighbour, Nat.le_div_iff_mul_le (stepsDenominator_pos exponent),
    ← mul_le_mul_iff_left₀ denominatorPositive, ← stepsNumerator_mul, mul_right_comm,
    mul_le_mul_iff_left₀ stepPositive]
  exact_mod_cast Iff.rfl

theorem lowerNeighbour_le (word : Nat) (exponent : Int) :
    (lowerNeighbour word exponent).toRat ≤ magnitude word :=
  le_coefficient_lowerNeighbour_iff.mp (Nat.le_refl _)

theorem lt_upperNeighbour (word : Nat) (exponent : Int) :
    magnitude word < (upperNeighbour word exponent).toRat := by
  rw [← not_le]
  exact mt le_coefficient_lowerNeighbour_iff.mpr (Nat.not_succ_le_self _)

/-- The nearest neighbour is within half a step. -/
theorem abs_nearestNeighbour_sub_le (word : Nat) (exponent : Int) :
    |(nearestNeighbour word exponent).toRat - magnitude word| ≤ 10 ^ exponent / 2 := by
  have denominatorPositive : (0 : ℚ) < stepsDenominator exponent := by
    exact_mod_cast stepsDenominator_pos exponent
  have stepPositive : (0 : ℚ) < 10 ^ exponent := by positivity
  have counted := stepsNumerator_mul word exponent
  obtain ⟨atMost, atLeast⟩ :=
    @roundHalfEven_within_half (stepsNumerator word exponent) _ (stepsDenominator_pos exponent)
  rw [nearestNeighbour, Decimal.toRat]
  dsimp only
  generalize roundHalfEven (stepsNumerator word exponent) (stepsDenominator exponent) = rounded at *
  generalize stepsNumerator word exponent = steps at *
  generalize stepsDenominator exponent = denominator at *
  -- Both laws of the rounding, counted in steps and not in units.
  have notBelow : 2 * magnitude word ≤ (2 * rounded + 1) * 10 ^ exponent := by
    have atMost' : (2 * steps : ℚ) ≤ (2 * rounded + 1) * denominator := by exact_mod_cast atMost
    refine le_of_mul_le_mul_right ?_ denominatorPositive
    calc 2 * magnitude word * denominator = 2 * steps * 10 ^ exponent := by
          rw [mul_assoc, ← counted, mul_assoc]
      _ ≤ (2 * rounded + 1) * denominator * 10 ^ exponent :=
          mul_le_mul_of_nonneg_right atMost' stepPositive.le
      _ = (2 * rounded + 1) * 10 ^ exponent * denominator := mul_right_comm _ _ _
  have notAbove : (2 * rounded : ℚ) * 10 ^ exponent ≤ 2 * magnitude word + 10 ^ exponent := by
    have atLeast' : (2 * rounded * denominator : ℚ) ≤ 2 * steps + denominator := by
      exact_mod_cast atLeast
    refine le_of_mul_le_mul_right ?_ denominatorPositive
    calc (2 * rounded : ℚ) * 10 ^ exponent * denominator
        = 2 * rounded * denominator * 10 ^ exponent := mul_right_comm _ _ _
      _ ≤ (2 * steps + denominator) * 10 ^ exponent :=
          mul_le_mul_of_nonneg_right atLeast' stepPositive.le
      _ = (2 * magnitude word + 10 ^ exponent) * denominator := by
          rw [add_mul, mul_assoc, counted, ← mul_assoc, mul_comm (denominator : ℚ), ← add_mul]
  rw [abs_le]
  constructor <;> linarith

/-! ## The leading digit -/

/-- The decade of a magnitude is the exponent of its leading decimal digit. -/
theorem decade_eq_log {word : Nat} (nonzero : word ≠ 0) :
    decade word = Int.log 10 (magnitude word) := by
  have positive := magnitude_pos nonzero
  -- The power of ten is named, since nothing here depends on its digits.
  obtain ⟨finest, finestEq⟩ : ∃ finest : Nat, finest = 324 := ⟨324, rfl⟩
  have scaled (further : Nat) :
      ((10 ^ further : ℕ) : ℚ) * 10 ^ (-finest : ℤ) = ((10 : ℕ) : ℚ) ^ (further - finest : ℤ) := by
    rw [Nat.cast_pow, Nat.cast_ofNat, ← zpow_natCast, ← zpow_add₀ (by norm_num), Int.sub_eq_add_neg]
  have wholeEq :
      units word * Nat.pow 10 finest / unitsPerOne =
        (lowerNeighbour word (-finest)).coefficient := by
    rw [lowerNeighbour, stepsNumerator, stepsDenominator, neg_neg, Int.toNat_natCast,
      Int.toNat_neg_natCast, Nat.pow_eq (n := 0), pow_zero, Nat.mul_one]
  have present : (lowerNeighbour word (-finest)).coefficient ≠ 0 := by
    have least := le_log_magnitude nonzero
    have oneStep : 10 ^ 0 ≤ (lowerNeighbour word (-finest)).coefficient := by
      rw [le_coefficient_lowerNeighbour_iff, scaled, Int.zpow_le_iff_le_log (by decide) positive]
      omega
    exact Nat.one_le_iff_ne_zero.mp oneStep
  obtain ⟨further, lengthEq, lower, upper⟩ := Decimal.digits_bounds present
  rw [le_coefficient_lowerNeighbour_iff, scaled, Int.zpow_le_iff_le_log (by decide) positive]
    at lower
  rw [← Nat.not_le, le_coefficient_lowerNeighbour_iff, scaled, not_le,
    Int.lt_zpow_iff_log_lt (by decide) positive] at upper
  rw [decade, if_neg nonzero, ← finestEq, wholeEq, lengthEq]
  omega

theorem pow_decade_le {word : Nat} (nonzero : word ≠ 0) :
    (10 : ℚ) ^ decade word ≤ magnitude word := by
  rw [decade_eq_log nonzero]
  exact Int.zpow_log_le_self (by decide : 1 < 10) (magnitude_pos nonzero)

/-- On the grid that is `places` digits finer than the decade, the lower neighbour has one digit
more than that. -/
theorem coefficient_lowerNeighbour_bounds {word : Nat} (nonzero : word ≠ 0) (places : Nat) :
    10 ^ places ≤ (lowerNeighbour word (decade word - places)).coefficient ∧
      (lowerNeighbour word (decade word - places)).coefficient < 10 ^ (places + 1) := by
  have positive := magnitude_pos nonzero
  have scaled (further : Nat) :
      ((10 ^ further : ℕ) : ℚ) * 10 ^ (decade word - places) =
        ((10 : ℕ) : ℚ) ^ (decade word + further - places) := by
    rw [Nat.cast_pow, Nat.cast_ofNat, ← zpow_natCast, ← zpow_add₀ (by norm_num)]
    congr 1
    omega
  constructor
  · rw [le_coefficient_lowerNeighbour_iff, scaled, Int.zpow_le_iff_le_log (by decide) positive,
      decade_eq_log nonzero]
    omega
  · rw [← Nat.not_le, le_coefficient_lowerNeighbour_iff, scaled, not_le,
      Int.lt_zpow_iff_log_lt (by decide) positive, decade_eq_log nonzero]
    omega

theorem coefficient_upperNeighbour (word : Nat) (exponent : Int) :
    (upperNeighbour word exponent).coefficient = (lowerNeighbour word exponent).coefficient + 1 :=
  rfl

/-- The nearest neighbour has as many digits as the lower one, or is the least number with one
more. -/
theorem coefficient_nearestNeighbour_bounds {word : Nat} (nonzero : word ≠ 0) (places : Nat) :
    10 ^ places ≤ (nearestNeighbour word (decade word - places)).coefficient ∧
      (nearestNeighbour word (decade word - places)).coefficient ≤ 10 ^ (places + 1) := by
  obtain ⟨lower, upper⟩ := coefficient_lowerNeighbour_bounds nonzero places
  rcases nearestNeighbour_eq_or word (decade word - places) with isLower | isUpper
  · rw [isLower]
    omega
  · rw [isUpper, coefficient_upperNeighbour]
    omega

end PocketCalc.Number
