import PocketCalc.Proofs.Number.Decimal

/-!
Contract: the values that separate neighbouring magnitudes.

Owns:
- the step from a magnitude to the next one, and the value halfway between the two;
- the words that a rounded value does not exceed: those whose halfway value it does not pass, and
  which it may meet only if the word is even.

Does not own: what follows for the order of rounded values and for their distance; see
`Number/Order` and `Number/Rounded`.

The law of the halfway values says all about the nearest word, for subnormal words and normal ones,
across powers of two and up to infinity, so nothing else opens the definition of the nearest word.
-/

namespace PocketCalc.Number

/-! ## Neighbouring words -/

theorem units_succ (word : Nat) : units (word + 1) = units word + 2 ^ doublings word := by
  have sameExponent : word % 0x10000000000000 ≠ 0xfffffffffffff →
      doublings (word + 1) = doublings word ∧ significand (word + 1) = significand word + 1 := by
    intro notLast
    unfold doublings significand
    split_ifs <;> omega
  have nextExponent : word % 0x10000000000000 = 0xfffffffffffff → 0x10000000000000 ≤ word →
      doublings (word + 1) = doublings word + 1 ∧
        significand (word + 1) = 0x10000000000000 ∧ significand word = 0x1fffffffffffff := by
    intro last normal
    unfold doublings significand
    split_ifs <;> omega
  rw [units_eq, units_eq]
  by_cases last : word % 0x10000000000000 = 0xfffffffffffff
  · by_cases normal : 0x10000000000000 ≤ word
    · obtain ⟨doublingsEq, significandEq, fullEq⟩ := nextExponent last normal
      rw [doublingsEq, significandEq, fullEq, Nat.pow_succ]
      omega
    · -- The greatest subnormal word is followed by the least normal one.
      obtain rfl : word = 0xfffffffffffff := by omega
      decide
  · obtain ⟨doublingsEq, significandEq⟩ := sameExponent last
    rw [doublingsEq, significandEq, Nat.succ_mul]

theorem units_strictMono : StrictMono units :=
  strictMono_nat_of_lt_succ fun word => by
    rw [units_succ]
    exact Nat.lt_add_of_pos_right (Nat.two_pow_pos _)

theorem magnitude_succ (word : Nat) :
    magnitude (word + 1) = magnitude word + ((2 ^ doublings word : ℕ) : ℚ) / unitsPerOne := by
  rw [magnitude, magnitude, units_succ, Nat.cast_add, add_div]

theorem magnitude_strictMono : StrictMono magnitude := by
  intro smaller greater less
  have unitsLt : (units smaller : ℚ) < units greater := by
    exact_mod_cast units_strictMono less
  exact div_lt_div_of_pos_right unitsLt unitsPerOne_pos

/-- The value halfway between a magnitude and the next one. -/
def halfway (word : Nat) : ℚ := (magnitude word + magnitude (word + 1)) / 2

theorem magnitude_lt_halfway (word : Nat) : magnitude word < halfway word := by
  have step := magnitude_strictMono (Nat.lt_add_one word)
  unfold halfway
  linarith

theorem halfway_lt_magnitude_succ (word : Nat) : halfway word < magnitude (word + 1) := by
  have step := magnitude_strictMono (Nat.lt_add_one word)
  unfold halfway
  linarith

theorem halfway_strictMono : StrictMono halfway :=
  strictMono_nat_of_lt_succ fun word =>
    (halfway_lt_magnitude_succ word).trans (magnitude_lt_halfway (word + 1))

theorem halfway_pos (word : Nat) : 0 < halfway word :=
  (magnitude_nonneg word).trans_lt (magnitude_lt_halfway word)

/-- Half of the least positive double. -/
theorem halfway_zero : halfway 0 = 1 / (2 * unitsPerOne) := by
  have oneUnit : units (0 + 1) = 1 := by decide
  rw [halfway, magnitude_zero, magnitude, oneUnit, zero_add, Nat.cast_one, div_div, mul_comm]

/-! ## Rounding to a significand -/

/-- Halfway between two whole numbers the even one is taken. -/
private theorem roundHalfEven_even_of_half {numerator denominator whole : Nat}
    (positive : 0 < denominator) (half : 2 * numerator = (2 * whole + 1) * denominator) :
    roundHalfEven numerator denominator % 2 = 0 := by
  have expanded : (2 * whole + 1) * denominator = 2 * (denominator * whole) + denominator := by
    ring
  obtain ⟨remainder, numeratorEq⟩ : ∃ remainder, numerator = denominator * whole + remainder :=
    ⟨numerator - denominator * whole, by omega⟩
  refine roundHalfEven_even_of_tie ?_
  rw [numeratorEq, Nat.mul_add_mod, Nat.mod_eq_of_lt (by omega)]
  omega

/-- The places that a significand keeps: no more than it has room for, and all of them if any is
dropped. -/
theorem kept_places_bounds (scaled denominator : Nat) :
    let dropped := (scaled / denominator).log2 - 52
    (0 < dropped → 2 ^ 52 ≤ scaled / (denominator * 2 ^ dropped)) ∧
      scaled / (denominator * 2 ^ dropped) < 2 ^ 53 := by
  intro dropped
  rw [← Nat.div_div_eq_div_mul]
  constructor
  · intro someDropped
    have nonzero : scaled / denominator ≠ 0 := by
      intro zero
      simp [dropped, zero] at someDropped
    have exponents : 52 + dropped = (scaled / denominator).log2 := by omega
    rw [Nat.le_div_iff_mul_le (Nat.two_pow_pos dropped), ← Nat.pow_add, exponents]
    exact Nat.log2_self_le nonzero
  · rw [Nat.div_lt_iff_lt_mul (Nat.two_pow_pos dropped), ← Nat.pow_add]
    refine Nat.lt_of_lt_of_le Nat.lt_log2_self (Nat.pow_le_pow_right Nat.two_pos ?_)
    omega

/-- A significand that fits, or is rounded up to the first one that does not, stands for a word by
plain addition to the exponent. -/
private theorem units_of_significand {dropped kept : Nat} (full : 0 < dropped → 2 ^ 52 ≤ kept)
    (fits : kept ≤ 2 ^ 53) :
    units (dropped * 0x10000000000000 + kept) = kept * 2 ^ dropped ∧
      dropped ≤ doublings (dropped * 0x10000000000000 + kept) := by
  rw [units_eq]
  by_cases carry : kept = 2 ^ 53
  · have doublingsEq : doublings (dropped * 0x10000000000000 + kept) = dropped + 1 := by
      unfold doublings
      omega
    have significandEq : significand (dropped * 0x10000000000000 + kept) = 2 ^ 52 := by
      unfold significand
      split <;> omega
    rw [doublingsEq, significandEq, carry, Nat.pow_succ 2 dropped]
    omega
  · have doublingsEq : doublings (dropped * 0x10000000000000 + kept) = dropped := by
      unfold doublings
      omega
    have significandEq : significand (dropped * 0x10000000000000 + kept) = kept := by
      unfold significand
      split <;> omega
    rw [doublingsEq, significandEq]
    exact ⟨rfl, le_rfl⟩

/-! ## The nearest word -/

/-- The word that a ratio of units is rounded to, before the bound of infinity. -/
def unboundedWord (scaled denominator : Nat) : Nat :=
  let dropped := (scaled / denominator).log2 - 52
  dropped * 0x10000000000000 + roundHalfEven scaled (denominator * 2 ^ dropped)

theorem nearestWord_eq_min (numerator denominator : Nat) :
    nearestWord numerator denominator =
      min (unboundedWord (numerator * unitsPerOne) denominator) infinityWord :=
  rfl

section

variable {scaled denominator : Nat} (positive : 0 < denominator)

include positive

/-- A value does not pass the halfway value of the word that it is rounded to. -/
private theorem twice_le_of_unboundedWord {word : Nat}
    (rounded : unboundedWord scaled denominator = word) :
    2 * scaled ≤ (units word + units (word + 1)) * denominator ∧
      (2 * scaled = (units word + units (word + 1)) * denominator → word % 2 = 0) := by
  obtain ⟨full, fits⟩ := kept_places_bounds scaled denominator
  unfold unboundedWord at rounded
  dsimp only at rounded full fits
  generalize (scaled / denominator).log2 - 52 = dropped at *
  have stepPositive : 0 < denominator * 2 ^ dropped :=
    Nat.mul_pos positive (Nat.two_pow_pos dropped)
  obtain ⟨atMost, -⟩ := @roundHalfEven_within_half scaled _ stepPositive
  have even := @roundHalfEven_even_of_half scaled _
    (roundHalfEven scaled (denominator * 2 ^ dropped)) stepPositive
  have neighbours := roundHalfEven_eq_or scaled (denominator * 2 ^ dropped)
  generalize roundHalfEven scaled (denominator * 2 ^ dropped) = kept at *
  subst rounded
  have keptFull : 0 < dropped → 2 ^ 52 ≤ kept := fun someDropped => by
    have := full someDropped
    omega
  obtain ⟨unitsEq, droppedLe⟩ := units_of_significand keptFull (by omega)
  -- The step above the word is no smaller than the one that the value was rounded by.
  have stepLe := Nat.pow_le_pow_right Nat.two_pos droppedLe
  rw [units_succ, unitsEq]
  generalize 2 ^ doublings (dropped * 0x10000000000000 + kept) = step at *
  have expanded : (2 * kept + 1) * (denominator * 2 ^ dropped) =
      (kept * 2 ^ dropped + kept * 2 ^ dropped + 2 ^ dropped) * denominator := by
    ring
  have regrouped : kept * 2 ^ dropped + (kept * 2 ^ dropped + step) =
      kept * 2 ^ dropped + kept * 2 ^ dropped + step := by
    ring
  have grown := Nat.mul_le_mul_right denominator
    (Nat.add_le_add_left stepLe (kept * 2 ^ dropped + kept * 2 ^ dropped))
  rw [regrouped]
  refine ⟨by omega, fun same => ?_⟩
  have keptEven := even (by omega)
  omega

/-- A value passes the halfway value below the word that it is rounded to, or meets it. -/
private theorem le_twice_of_unboundedWord {word : Nat}
    (rounded : unboundedWord scaled denominator = word + 1) :
    (units word + units (word + 1)) * denominator ≤ 2 * scaled ∧
      ((units word + units (word + 1)) * denominator = 2 * scaled → word % 2 = 1) := by
  obtain ⟨full, fits⟩ := kept_places_bounds scaled denominator
  unfold unboundedWord at rounded
  dsimp only at rounded full fits
  generalize (scaled / denominator).log2 - 52 = dropped at *
  have stepPositive : 0 < denominator * 2 ^ dropped :=
    Nat.mul_pos positive (Nat.two_pow_pos dropped)
  obtain ⟨-, atLeast⟩ := @roundHalfEven_within_half scaled _ stepPositive
  have even := fun whole =>
    @roundHalfEven_even_of_half scaled _ whole stepPositive
  have neighbours := roundHalfEven_eq_or scaled (denominator * 2 ^ dropped)
  have notBelow := Nat.div_mul_le_self scaled (denominator * 2 ^ dropped)
  generalize roundHalfEven scaled (denominator * 2 ^ dropped) = kept at *
  have keptFull : 0 < dropped → 2 ^ 52 ≤ kept := fun someDropped => by
    have := full someDropped
    omega
  have unitsEq : units (word + 1) = kept * 2 ^ dropped := by
    rw [← rounded]
    exact (units_of_significand keptFull (by omega)).1
  have stepEq := units_succ word
  have expanded : 2 * kept * (denominator * 2 ^ dropped) =
      (units (word + 1) + units (word + 1)) * denominator := by
    rw [unitsEq]
    ring
  by_cases sameStep : dropped ≤ doublings word
  · have stepLe := Nat.pow_le_pow_right Nat.two_pos sameStep
    have grown := Nat.mul_le_mul_right denominator stepLe
    have shifted : (units word + units (word + 1)) * denominator +
        2 ^ doublings word * denominator =
          (units (word + 1) + units (word + 1)) * denominator := by
      rw [stepEq]
      ring
    rw [Nat.mul_comm (2 ^ dropped)] at grown
    refine ⟨by omega, fun same => ?_⟩
    have keptPositive : 0 < kept := by
      by_contra none
      have noUnits : units (word + 1) = 0 := by
        rw [unitsEq, Nat.eq_zero_of_not_pos none, Nat.zero_mul]
      have := units_pos (Nat.succ_ne_zero word)
      omega
    have keptSplit : 2 * kept * (denominator * 2 ^ dropped) =
        (2 * (kept - 1) + 1) * (denominator * 2 ^ dropped) + denominator * 2 ^ dropped := by
      rw [← Nat.succ_mul]
      congr 1
      omega
    have half : 2 * scaled = (2 * (kept - 1) + 1) * (denominator * 2 ^ dropped) := by
      omega
    have keptEven := even _ half
    omega
  · -- The word starts a binade, so the step below it is the smaller one; but the value that was
    -- rounded is not below the start of the binade.
    have start : kept = 2 ^ 52 := by
      have := full (by omega)
      unfold doublings at sameStep
      omega
    have reached : units (word + 1) * denominator ≤ scaled := by
      have least := Nat.mul_le_mul_right (denominator * 2 ^ dropped) (full (by omega))
      rw [unitsEq, start]
      calc 2 ^ 52 * 2 ^ dropped * denominator = 2 ^ 52 * (denominator * 2 ^ dropped) := by ring
        _ ≤ scaled / (denominator * 2 ^ dropped) * (denominator * 2 ^ dropped) := least
        _ ≤ scaled := notBelow
    have less : units word * denominator < units (word + 1) * denominator :=
      Nat.mul_lt_mul_of_pos_right (units_strictMono (Nat.lt_add_one word)) positive
    rw [Nat.add_mul]
    exact ⟨by omega, fun same => by omega⟩

/-- The words that a rounded value does not exceed, counted in units. -/
private theorem unboundedWord_le_iff {word : Nat} :
    unboundedWord scaled denominator ≤ word ↔
      2 * scaled < (units word + units (word + 1)) * denominator ∨
        (2 * scaled = (units word + units (word + 1)) * denominator ∧ word % 2 = 0) := by
  have halfwayLt {smaller greater : Nat} (less : smaller < greater) :
      (units smaller + units (smaller + 1)) * denominator <
        (units greater + units (greater + 1)) * denominator :=
    Nat.mul_lt_mul_of_pos_right
      (Nat.add_lt_add (units_strictMono less) (units_strictMono (Nat.add_lt_add_right less 1)))
      positive
  constructor
  · intro le
    rcases Nat.lt_or_eq_of_le le with less | same
    · exact Or.inl ((twice_le_of_unboundedWord positive rfl).1.trans_lt (halfwayLt less))
    · obtain ⟨atMost, evenOfSame⟩ := twice_le_of_unboundedWord positive same
      rcases Nat.lt_or_eq_of_le atMost with below | meets
      · exact Or.inl below
      · exact Or.inr ⟨meets, evenOfSame meets⟩
  · intro notPassed
    by_contra greater
    obtain ⟨below, next⟩ : ∃ below, unboundedWord scaled denominator = below + 1 :=
      ⟨unboundedWord scaled denominator - 1, by omega⟩
    obtain ⟨atLeast, oddOfSame⟩ := le_twice_of_unboundedWord positive next
    rcases Nat.lt_or_eq_of_le (show word ≤ below by omega) with less | rfl
    · have := halfwayLt less
      omega
    · rcases notPassed with passed | ⟨meets, even⟩
      · omega
      · have := oddOfSame meets.symm
        omega

/-- The finite words that a rounded ratio does not exceed. -/
theorem nearestWord_le_iff {numerator word : Nat} (finite : word < infinityWord) :
    nearestWord numerator denominator ≤ word ↔
      (numerator : ℚ) / denominator < halfway word ∨
        ((numerator : ℚ) / denominator = halfway word ∧ word % 2 = 0) := by
  have denominatorPositive : (0 : ℚ) < denominator := by
    exact_mod_cast positive
  have twicePositive : (0 : ℚ) < 2 * unitsPerOne := mul_pos two_pos unitsPerOne_pos
  have halfwayEq : halfway word =
      ((units word + units (word + 1) : ℕ) : ℚ) / (2 * unitsPerOne) := by
    rw [halfway, magnitude, magnitude, ← add_div, div_div, mul_comm (unitsPerOne : ℚ), Nat.cast_add]
  have twiceEq : 2 * (numerator * unitsPerOne) = numerator * (2 * unitsPerOne) :=
    Nat.mul_left_comm _ _ _
  have bounded : nearestWord numerator denominator ≤ word ↔
      unboundedWord (numerator * unitsPerOne) denominator ≤ word := by
    rw [nearestWord_eq_min, min_le_iff]
    exact or_iff_left (Nat.not_le.mpr finite)
  rw [bounded, unboundedWord_le_iff positive, halfwayEq, div_lt_div_iff₀ denominatorPositive
    twicePositive, div_eq_div_iff denominatorPositive.ne' twicePositive.ne', twiceEq]
  exact_mod_cast Iff.rfl

end

/-! ## The word of a decimal -/

namespace Decimal

/-- The finite words that a rounded decimal does not exceed. -/
theorem word_le_iff {decimal : Decimal} {word : Nat} (finite : word < infinityWord) :
    decimal.word ≤ word ↔
      decimal.toRat < halfway word ∨ (decimal.toRat = halfway word ∧ word % 2 = 0) := by
  by_cases zero : decimal.coefficient = 0
  · have noValue : decimal.toRat = 0 := by
      rw [toRat, zero, Nat.cast_zero, zero_mul]
    rw [Decimal.word, if_pos zero, noValue]
    exact iff_of_true (Nat.zero_le word) (Or.inl (halfway_pos word))
  · have boundEq := magnitudeBound_eq_log zero
    have positive := toRat_pos_iff.mpr zero
    rw [Decimal.word, if_neg zero]
    split
    · -- The decimal is beyond every finite magnitude and beyond the value halfway to infinity.
      have large : halfway word < decimal.toRat := by
        have enough : units infinityWord ≤ 10 ^ 309 * unitsPerOne := by
          decide +kernel
        have atLeast : ((10 : ℕ) : ℚ) ^ (309 : ℤ) ≤ decimal.toRat := by
          rw [Int.zpow_le_iff_le_log (by decide) positive]
          omega
        have infinityLe : magnitude infinityWord ≤ ((10 : ℕ) : ℚ) ^ (309 : ℤ) := by
          rw [magnitude, div_le_iff₀ unitsPerOne_pos]
          exact_mod_cast enough
        exact (halfway_lt_magnitude_succ word).trans_le
          ((magnitude_strictMono.monotone finite).trans (infinityLe.trans atLeast))
      refine iff_of_false (Nat.not_le.mpr finite) ?_
      rintro (less | ⟨meets, -⟩)
      · exact absurd less (not_lt.mpr large.le)
      · exact absurd meets large.ne'
    · split
      · -- The decimal is below half of the least positive magnitude.
        have small : decimal.toRat < halfway word := by
          have enough : 2 * unitsPerOne ≤ 10 ^ 324 * 1 := by
            decide +kernel
          have below : decimal.toRat < ((10 : ℕ) : ℚ) ^ (-324 : ℤ) := by
            rw [Int.lt_zpow_iff_log_lt (by decide) positive]
            omega
          have leastLe : ((10 : ℕ) : ℚ) ^ (-324 : ℤ) ≤ halfway 0 := by
            have enough' : (2 * unitsPerOne : ℚ) ≤ 10 ^ 324 * 1 := by
              exact_mod_cast enough
            rw [halfway_zero, Nat.cast_ofNat, le_div_iff₀ (mul_pos two_pos unitsPerOne_pos),
              zpow_neg, inv_mul_le_iff₀ (by positivity), zpow_ofNat]
            exact enough'
          exact below.trans_le
            (leastLe.trans (halfway_strictMono.monotone (Nat.zero_le word)))
        exact iff_of_true (Nat.zero_le word) (Or.inl small)
      · rw [nearestWord_le_iff decimal.denominator_pos finite, ← toRat_eq_div]

end Decimal

end PocketCalc.Number
