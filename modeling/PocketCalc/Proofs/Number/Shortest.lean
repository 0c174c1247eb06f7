import PocketCalc.Proofs.Number.Grid
import PocketCalc.Proofs.Number.Rounded
import PocketCalc.Proofs.Number.Significant

/-!
Contract: the text of a finite double is the shortest one that rounds to it.

Owns:
- seventeen digits tell all doubles apart;
- a grid has a decimal that reads back if any decimal of as many digits does, so the search over
  grids ends with the fewest digits;
- the form of a positional text, with no zero that could be left out;
- the text has that form, rounds to its double, and no decimal that does has fewer digits.

Does not own: the texts of doubles that are not finite.
-/

namespace PocketCalc.Number

open PocketCalc.Lexeme

/-! ## Decimals around a magnitude -/

namespace Decimal

/-- A decimal reads back if it is no farther from the magnitude than one on its side that does. -/
theorem word_of_between {decimal other : Decimal} {word : Nat} (finite : word < infinityWord)
    (readsBack : other.word = word)
    (between : (other.toRat ≤ decimal.toRat ∧ decimal.toRat ≤ magnitude word) ∨
      (magnitude word ≤ decimal.toRat ∧ decimal.toRat ≤ other.toRat)) : decimal.word = word := by
  have exactEq := word_exactDecimal finite
  rw [← toRat_exactDecimal] at between
  rcases between with ⟨atLeast, atMost⟩ | ⟨atLeast, atMost⟩
  · have notBelow := word_mono atLeast
    have notAbove := word_mono atMost
    omega
  · have notBelow := word_mono atLeast
    have notAbove := word_mono atMost
    omega

end Decimal

/-- A magnitude is less than 2 ^ 53 of the steps that lead up to it. -/
private theorem magnitude_succ_le (word : Nat) :
    magnitude (word + 1) ≤ 2 ^ 53 * (magnitude (word + 1) - magnitude word) := by
  have significandLt : significand word + 1 ≤ 2 ^ 53 := by
    unfold significand
    split <;> omega
  have bounded : units (word + 1) ≤ 2 ^ 53 * 2 ^ doublings word := by
    rw [units_succ, units_eq, ← Nat.succ_mul]
    exact Nat.mul_le_mul_right _ significandLt
  have bounded' : (units (word + 1) : ℚ) ≤ 2 ^ 53 * (2 ^ doublings word : ℕ) := by
    exact_mod_cast bounded
  rw [magnitude_succ, add_sub_cancel_left, ← magnitude_succ, magnitude, mul_div_assoc']
  exact div_le_div_of_nonneg_right bounded' unitsPerOne_pos.le

/-- The steps between magnitudes do not get smaller. -/
private theorem step_le_step (word : Nat) :
    magnitude (word + 1) - magnitude word ≤ magnitude (word + 1 + 1) - magnitude (word + 1) := by
  have doublingsLe : doublings word ≤ doublings (word + 1) := by
    unfold doublings
    omega
  have grown : ((2 ^ doublings word : ℕ) : ℚ) ≤ (2 ^ doublings (word + 1) : ℕ) := by
    exact_mod_cast Nat.pow_le_pow_right Nat.two_pos doublingsLe
  rw [magnitude_succ (word + 1), magnitude_succ word, add_sub_cancel_left, add_sub_cancel_left]
  exact div_le_div_of_nonneg_right grown unitsPerOne_pos.le

/-- Seventeen digits tell a magnitude apart from its neighbours. -/
theorem word_nearestNeighbour_seventeen {word : Nat} (nonzero : word ≠ 0)
    (finite : word < infinityWord) :
    (nearestNeighbour word (decade word - (16 : ℕ))).word = word := by
  obtain ⟨previous, rfl⟩ := Nat.exists_eq_succ_of_ne_zero nonzero
  have previousFinite : previous < infinityWord := by omega
  have close := abs_nearestNeighbour_sub_le (previous + 1) (decade (previous + 1) - (16 : ℕ))
  have leading := pow_decade_le nonzero
  have scaled : (10 : ℚ) ^ decade (previous + 1) =
      10 ^ (decade (previous + 1) - (16 : ℕ)) * 10 ^ 16 := by
    rw [← zpow_natCast, ← zpow_add₀ (by norm_num), sub_add_cancel]
  have gridPositive : (0 : ℚ) < 10 ^ (decade (previous + 1) - (16 : ℕ)) := by positivity
  have stepsLe := magnitude_succ_le previous
  have stepLe := step_le_step previous
  generalize (nearestNeighbour (previous + 1) (decade (previous + 1) - (16 : ℕ))) = nearest at *
  generalize (10 : ℚ) ^ (decade (previous + 1) - (16 : ℕ)) = grid at *
  -- 10 ^ 16 exceeds 2 ^ 53, so the grid is finer than the steps on both sides.
  have finer : grid < magnitude (previous + 1) - magnitude previous := by
    rw [scaled] at leading
    linarith
  obtain ⟨notBelow, notAbove⟩ := abs_le.mp close
  refine le_antisymm ?_ ?_
  · rw [Decimal.word_le_iff finite, halfway]
    left
    linarith
  · by_contra less
    have passed := (Decimal.word_le_iff previousFinite).mp (Nat.le_of_lt_succ (not_le.mp less))
    rw [halfway] at passed
    rcases passed with below | ⟨meets, -⟩
    · linarith
    · linarith

/-! ## One grid -/

/-- On a grid with a decimal that reads back, a neighbour of the magnitude does too. -/
private theorem isSome_closestOnGrid? {word count : Nat} {exponent : Int}
    (finite : word < infinityWord) (readsBack : (⟨count, exponent⟩ : Decimal).word = word) :
    (closestOnGrid? word exponent).isSome = true := by
  have neighbour : (lowerNeighbour word exponent).word = word ∨
      (upperNeighbour word exponent).word = word := by
    have gridPositive : (0 : ℚ) < 10 ^ exponent := by positivity
    rcases le_or_gt (count : ℚ) (lowerNeighbour word exponent).coefficient with below | above
    · refine Or.inl (Decimal.word_of_between finite readsBack (Or.inl ⟨?_, lowerNeighbour_le _ _⟩))
      exact mul_le_mul_of_nonneg_right below gridPositive.le
    · refine Or.inr (Decimal.word_of_between finite readsBack
        (Or.inr ⟨(lt_upperNeighbour _ _).le, ?_⟩))
      refine mul_le_mul_of_nonneg_right ?_ gridPositive.le
      rw [coefficient_upperNeighbour]
      exact_mod_cast above
  rw [closestOnGrid?, List.find?_isSome]
  rcases neighbour with lower | upper
  · exact ⟨lowerNeighbour word exponent, by simp, beq_iff_eq.mpr lower⟩
  · exact ⟨upperNeighbour word exponent, by simp, beq_iff_eq.mpr upper⟩

/-- If a decimal reads back, so does one on the grid with as many digits. -/
private theorem isSome_closestOnGrid?_of_word_eq {word places : Nat} {decimal : Decimal}
    (nonzero : word ≠ 0) (finite : word < infinityWord)
    (small : decimal.coefficient < 10 ^ (places + 1)) (readsBack : decimal.word = word) :
    (closestOnGrid? word (decade word - places)).isSome = true := by
  rcases le_or_gt (decade word - places) decimal.exponent with onGrid | finer
  · obtain ⟨zeros, exponentEq⟩ := Int.le.dest onGrid
    have same : (⟨decimal.coefficient * 10 ^ zeros, decade word - places⟩ : Decimal).toRat =
        decimal.toRat := by
      rw [Decimal.toRat_mul_pow, Int.add_comm, exponentEq]
    exact isSome_closestOnGrid? finite ((Decimal.word_congr same).trans readsBack)
  · -- The decimal is below the power of ten at the leading digit, which is on every grid.
    have leading : (⟨10 ^ places, decade word - places⟩ : Decimal).toRat = 10 ^ decade word := by
      rw [Decimal.toRat, Nat.cast_pow, ← zpow_natCast, Nat.cast_ofNat,
        ← zpow_add₀ (by norm_num), add_sub_cancel]
    have smallRat : (decimal.coefficient : ℚ) ≤ 10 ^ (places + 1) := by
      exact_mod_cast small.le
    have above : decimal.toRat ≤ (⟨10 ^ places, decade word - places⟩ : Decimal).toRat := by
      rw [leading, Decimal.toRat]
      calc (decimal.coefficient : ℚ) * 10 ^ decimal.exponent
          ≤ 10 ^ (places + 1) * 10 ^ decimal.exponent :=
            mul_le_mul_of_nonneg_right smallRat (by positivity)
        _ = 10 ^ (((places + 1 : ℕ) : ℤ) + decimal.exponent) := by
            rw [zpow_add₀ (by norm_num), zpow_natCast]
        _ ≤ 10 ^ decade word := zpow_le_zpow_right₀ (by norm_num) (by omega)
    have below : (⟨10 ^ places, decade word - places⟩ : Decimal).toRat ≤ magnitude word := by
      rw [leading]
      exact pow_decade_le nonzero
    exact isSome_closestOnGrid? finite
      (Decimal.word_of_between finite readsBack (Or.inl ⟨above, below⟩))

/-- What a grid gives has no more digits than the grid has between the leading digit and its
step. -/
private theorem hasDigits_of_closestOnGrid? {word places : Nat} {decimal : Decimal}
    (nonzero : word ≠ 0) (found : closestOnGrid? word (decade word - places) = some decimal) :
    HasDigits (places + 1) decimal.toRat := by
  have atMost : decimal.coefficient ≤ 10 ^ (places + 1) := by
    obtain ⟨-, lower⟩ := coefficient_lowerNeighbour_bounds nonzero places
    obtain ⟨-, nearest⟩ := coefficient_nearestNeighbour_bounds nonzero places
    have member := List.mem_of_find?_eq_some found
    rcases List.mem_cons.mp member with rfl | member
    · exact nearest
    · rcases List.mem_cons.mp member with rfl | member
      · exact lower.le
      · rw [List.mem_singleton.mp member, coefficient_upperNeighbour]
        exact lower
  rcases atMost.lt_or_eq with less | carried
  · exact ⟨decimal, less, rfl⟩
  · refine ⟨⟨1, (places + 1 : ℕ) + decimal.exponent⟩, Nat.one_lt_pow (by omega) (by decide), ?_⟩
    rw [← Decimal.toRat_mul_pow, Nat.one_mul, ← carried]

/-! ## The search -/

/-- The search ends at the first grid that has a decimal that reads back. -/
private theorem exists_closestOnGrid?_eq_shortestDecimal {word places : Nat}
    (searched : places < 17)
    (present : (closestOnGrid? word (decade word - places)).isSome = true) :
    ∃ further ≤ places,
      closestOnGrid? word (decade word - further) = some (shortestDecimal word) := by
  obtain ⟨beyond, splitEq⟩ : ∃ beyond, 17 = places + 1 + beyond := ⟨17 - (places + 1), by omega⟩
  have early : ((List.range (places + 1)).findSome? fun (further : Nat) =>
      closestOnGrid? word (decade word - further)).isSome = true :=
    List.findSome?_isSome_iff.mpr ⟨places, List.mem_range.mpr (Nat.lt_add_one places), present⟩
  obtain ⟨decimal, found⟩ := Option.isSome_iff_exists.mp early
  obtain ⟨further, member, foundThere⟩ := List.exists_of_findSome?_eq_some found
  refine ⟨further, Nat.le_of_lt_succ (List.mem_range.mp member), ?_⟩
  rw [shortestDecimal, splitEq, List.range_add, List.findSome?_append, found, foundThere]
  rfl

/-- The decimal that is written has no more digits than any that reads back. -/
theorem hasDigits_shortestDecimal {word count : Nat} {decimal : Decimal}
    (finite : word < infinityWord) (small : decimal.coefficient < 10 ^ count)
    (readsBack : decimal.word = word) : HasDigits count (shortestDecimal word).toRat := by
  by_cases zero : word = 0
  · have zeroEq : shortestDecimal 0 = ⟨0, 0⟩ := by decide +kernel
    rw [zero, zeroEq]
    exact ⟨⟨0, 0⟩, Nat.pow_pos (by decide), rfl⟩
  · have someDigits : count ≠ 0 := by
      rintro rfl
      have noCoefficient : decimal.coefficient = 0 := by simpa using small
      rw [Decimal.word, if_pos noCoefficient] at readsBack
      exact zero readsBack.symm
    obtain ⟨places, rfl⟩ := Nat.exists_eq_succ_of_ne_zero someDigits
    obtain ⟨enough, enoughLe, searched, present⟩ : ∃ enough ≤ places, enough < 17 ∧
        (closestOnGrid? word (decade word - enough)).isSome = true := by
      by_cases searched : places < 17
      · exact ⟨places, le_rfl, searched,
          isSome_closestOnGrid?_of_word_eq zero finite small readsBack⟩
      · exact ⟨16, by omega, by decide,
          isSome_closestOnGrid? finite (word_nearestNeighbour_seventeen zero finite)⟩
    obtain ⟨further, furtherLe, found⟩ := exists_closestOnGrid?_eq_shortestDecimal searched present
    exact (hasDigits_of_closestOnGrid? zero found).mono (by omega)

/-! ## The text -/

/-- Whether digits are a whole part: a lone zero, or digits that start with no zero. -/
def IsWholePart (whole : List Char) : Prop :=
  whole = ['0'] ∨ (whole ≠ [] ∧ AllDigits whole ∧ whole.head? ≠ some '0')

/-- Unsigned positional texts without a zero that could be left out: a whole part, or one before a
point and digits behind it that do not end in a zero. -/
inductive IsPositional : List Char → Prop
  | whole {whole : List Char} (wholePart : IsWholePart whole) : IsPositional whole
  | pointed {whole fraction : List Char} (wholePart : IsWholePart whole)
      (behindPoint : fraction ≠ []) (fractionDigits : AllDigits fraction)
      (noTrailing : fraction.getLast? ≠ some '0') : IsPositional (whole ++ '.' :: fraction)

theorem isWholePart_digits (number : Nat) : IsWholePart (digits number) := by
  by_cases zero : number = 0
  · rw [zero]
    exact Or.inl rfl
  · refine Or.inr ⟨digits_ne_nil number, allDigits_digits number, fun isZero => ?_⟩
    obtain ⟨rest, textEq⟩ := List.head?_eq_some_iff.mp isZero
    obtain ⟨further, lengthEq, enough, -⟩ := Decimal.digits_bounds zero
    have restDigits : AllDigits rest := by
      have allDigits := allDigits_digits number
      rw [textEq] at allDigits
      exact allDigits.tail
    have numberEq : Nat.ofDigitChars 10 rest 0 = number := by
      rw [← ofDigitChars_digits number, textEq, Nat.ofDigitChars_cons]
      rfl
    have short := ofDigitChars_lt restDigits
    rw [textEq, List.length_cons, Nat.add_right_cancel_iff] at lengthEq
    rw [numberEq, lengthEq] at short
    omega

theorem Decimal.isPositional_positional (decimal : Decimal) : IsPositional decimal.positional := by
  have wholePart := isWholePart_digits (decimal.numerator / decimal.denominator)
  have noTrailing : decimal.fraction.getLast? ≠ some '0' := getLast?_withoutTrailingZeros _
  have fractionDigits := decimal.allDigits_fraction
  unfold positional
  cases fractionEq : decimal.fraction with
  | nil => exact .whole wholePart
  | cons c rest =>
      rw [fractionEq] at noTrailing fractionDigits
      exact .pointed wholePart (List.cons_ne_nil c rest) fractionDigits noTrailing

/-- The text of a finite double is a minus, if the sign bit is set, and a positional text that
rounds to the double; no decimal of fewer significant digits rounds to it. -/
theorem positionalText_is_shortest {value : Float} (finite : isFinite value = true) :
    ∃ body size,
      positionalText value = String.ofList (signText (isNegative value) ++ body) ∧
      IsPositional body ∧
      WritesSize body size ∧
      RoundsTo (signed (isNegative value) size) value ∧
      ∀ (negative : Bool) (decimal : Decimal),
        RoundsTo (signed negative decimal.toRat) value →
          (significantDigits body).length ≤
            (significantDigits (digits decimal.coefficient)).length := by
  have wordFinite : magnitudeWord value < infinityWord := of_decide_eq_true finite
  have readsBack := word_shortestDecimal wordFinite
  refine ⟨(shortestDecimal (magnitudeWord value)).positional, _, positionalText_of_finite finite,
    Decimal.isPositional_positional _, writesSize_positional _, ?_, ?_⟩
  · have rounds := (shortestDecimal (magnitudeWord value)).roundsTo_ofMagnitude_word
      (isNegative value)
    rwa [readsBack, ofMagnitude_magnitudeWord] at rounds
  · intro negative decimal rounds
    have sameWord := Decimal.magnitudeWord_of_roundsTo rounds
    -- The decimal may be written with zeros at its end, so its least form is taken first.
    have needed := (length_significantDigits_le_iff (allDigits_digits decimal.coefficient)
      decimal.exponent).mp le_rfl
    rw [ofDigitChars_digits] at needed
    obtain ⟨least, small, sameSize⟩ := needed
    rw [Decimal.length_significantDigits_positional_le_iff]
    exact hasDigits_shortestDecimal wordFinite small
      ((Decimal.word_congr sameSize).trans sameWord.symm)

/-- The negative double nearest to zero is written with a single significant digit, since 5 behind
323 zeros rounds to it. -/
theorem least_negative_double_has_one_digit :
    let value := ofMagnitude true 1
    isFinite value = true ∧ RoundsTo (signed true (⟨5, -324⟩ : Decimal).toRat) value ∧
      ∃ body, positionalText value = String.ofList ('-' :: body) ∧ IsPositional body ∧
        (significantDigits body).length ≤ 1 := by
  intro value
  have finite : isFinite value = true := by decide +kernel
  have negative : isNegative value = true := by decide +kernel
  have wordEq : (⟨5, -324⟩ : Decimal).word = 1 := by decide +kernel
  have rounds := (⟨5, -324⟩ : Decimal).roundsTo_ofMagnitude_word true
  rw [wordEq] at rounds
  obtain ⟨body, size, textEq, positional, -, -, fewest⟩ := positionalText_is_shortest finite
  rw [negative] at textEq
  exact ⟨finite, rounds, body, textEq, positional, fewest true ⟨5, -324⟩ rounds⟩

end PocketCalc.Number
