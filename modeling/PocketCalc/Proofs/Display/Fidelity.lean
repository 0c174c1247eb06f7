import PocketCalc.Display
import PocketCalc.Proofs.Number.Notation
import PocketCalc.Proofs.Number.Order

/-!
Contract: how faithfully the display shows a finite result.

Owns:
- the decimals that are shown in positional notation are near to their magnitudes, and neither
  too large nor too small for the digits that are kept;
- what is kept of a positional text that is cut is near to the whole of it;
- what the display shows of a finite double is a decimal within a hundredth of the double.

Does not own: what the display shows of texts that are not results.
-/

namespace PocketCalc.Display

open PocketCalc.Lexeme PocketCalc.Number

/-! ## Decimals in the range of positional notation -/

private theorem toRat_powerOfTen (exponent : Int) :
    (⟨1, exponent⟩ : Decimal).toRat = 10 ^ exponent := by
  rw [Decimal.toRat, Nat.cast_one, one_mul]

/-- A magnitude that needs no exponent is written as a decimal from 10 ^ -7 up to 10 ^ 9. -/
private theorem toRat_bounds_of_not_needsExponent {word : Nat} (nonzero : word ≠ 0)
    (finite : word < infinityWord) (notBeyond : needsExponent word = false) :
    (10 : ℚ) ^ (-7 : ℤ) ≤ (shortestDecimal word).toRat ∧
      (shortestDecimal word).toRat < 10 ^ (9 : ℤ) := by
  have readsBack := word_shortestDecimal finite
  simp only [needsExponent, Bool.or_eq_false_iff, decide_eq_false_iff_not, not_lt,
    Bool.and_eq_false_iff] at notBeyond
  obtain ⟨notGreat, zero | notSmall⟩ := notBeyond
  · exact absurd nonzero zero
  refine ⟨?_, ?_⟩
  · rcases Nat.lt_or_eq_of_le notSmall with above | atLeast
    · rw [← toRat_powerOfTen]
      refine (Decimal.toRat_lt_of_word_lt ?_).le
      rw [readsBack]
      exact above
    · -- The least word is that of 10 ^ -7, but a decimal that reads back as it could be smaller.
      have leastEq : shortestDecimal leastWord = ⟨10, -8⟩ := by decide +kernel
      rw [← atLeast, leastEq, Decimal.toRat]
      norm_num
  · have magnitudeLe : magnitude word ≤ (⟨greatest, 0⟩ : Decimal).toRat := by
      have valueEq : (⟨greatest, 0⟩ : Decimal).toRat = greatest := by
        rw [Decimal.toRat, zpow_zero, mul_one]
      rw [magnitude, div_le_iff₀ unitsPerOne_pos, valueEq, ← Nat.cast_mul, Nat.cast_le]
      exact notGreat
    rw [← toRat_exactDecimal] at magnitudeLe
    have wordLe := Decimal.word_mono magnitudeLe
    have greatestLt : (⟨greatest, 0⟩ : Decimal).word < (⟨1, 9⟩ : Decimal).word := by
      decide +kernel
    rw [Decimal.word_exactDecimal finite] at wordLe
    rw [← toRat_powerOfTen]
    refine Decimal.toRat_lt_of_word_lt ?_
    rw [readsBack]
    exact Nat.lt_of_le_of_lt wordLe greatestLt

/-- Zero, or a number that nine digits before a point and nine behind it can tell from zero. -/
def Moderate (number : ℚ) : Prop :=
  number = 0 ∨ (10 : ℚ) ^ (-9 : ℤ) ≤ number ∧ number < 10 ^ (9 : ℤ)

private theorem moderate_of_bounds {number : ℚ} (least : (10 : ℚ) ^ (-7 : ℤ) ≤ number)
    (below : number < 10 ^ (9 : ℤ)) : Moderate number := by
  have wider : (10 : ℚ) ^ (-9 : ℤ) ≤ 10 ^ (-7 : ℤ) :=
    zpow_le_zpow_right₀ (by norm_num) (by norm_num)
  exact Or.inr ⟨wider.trans least, below⟩

/-- A positional text of at most nine characters writes a moderate number. -/
private theorem moderate_of_length {decimal : Decimal}
    (short : decimal.positional.length ≤ plainWidth) : Moderate decimal.toRat := by
  have wholeDigits := allDigits_digits (decimal.numerator / decimal.denominator)
  have fractionDigits := decimal.allDigits_fraction
  have valueEq := decimal.toRat_ofDigits_fraction
  have lengths : (digits (decimal.numerator / decimal.denominator)).length ≤ 9 ∧
      decimal.fraction.length ≤ 9 := by
    unfold plainWidth at short
    rcases decimal.positional_eq_or with ⟨noFraction, whole⟩ | pointed
    · rw [whole] at short
      rw [noFraction]
      exact ⟨short, Nat.zero_le 9⟩
    · rw [pointed, List.length_append, List.length_cons] at short
      omega
  obtain ⟨wholeLength, fractionLength⟩ := lengths
  generalize digits (decimal.numerator / decimal.denominator) = whole at *
  generalize decimal.fraction = fraction at *
  rw [← valueEq]
  by_cases noCoefficient : (Decimal.ofDigits whole fraction).coefficient = 0
  · left
    rw [Decimal.toRat, noCoefficient, Nat.cast_zero, zero_mul]
  · right
    refine ⟨?_, ?_⟩
    · have coefficientLe : (1 : ℚ) ≤ (Decimal.ofDigits whole fraction).coefficient := by
        exact_mod_cast Nat.one_le_iff_ne_zero.mpr noCoefficient
      have exponentLe : (-9 : ℤ) ≤ (Decimal.ofDigits whole fraction).exponent := by
        show (-9 : ℤ) ≤ -fraction.length
        omega
      calc (10 : ℚ) ^ (-9 : ℤ) ≤ 10 ^ (Decimal.ofDigits whole fraction).exponent :=
            zpow_le_zpow_right₀ (by norm_num) exponentLe
        _ ≤ (Decimal.ofDigits whole fraction).toRat :=
            le_mul_of_one_le_left (by positivity) coefficientLe
    · have wholeLt : Nat.ofDigitChars 10 whole 0 + 1 ≤ 10 ^ 9 :=
        (ofDigitChars_lt wholeDigits).trans_le (Nat.pow_le_pow_right (by decide) wholeLength)
      have wholeLt' : (Nat.ofDigitChars 10 whole 0 + 1 : ℚ) ≤ 10 ^ (9 : ℤ) := by
        exact_mod_cast wholeLt
      have fractionLt := fractionValue_lt_one fractionDigits
      rw [Decimal.toRat_ofDigits]
      linarith

/-- A moderate decimal is near to the magnitude that it reads back as. -/
private theorem close_of_moderate {decimal : Decimal} {word : Nat} (readsBack : decimal.word = word)
    (moderate : Moderate decimal.toRat) :
    |decimal.toRat - magnitude word| ≤ magnitude word / 2 ^ 52 := by
  rcases moderate with zero | ⟨lower, upper⟩
  · have noCoefficient : decimal.coefficient = 0 := by
      by_contra nonzero
      exact (Decimal.toRat_pos_iff.mpr nonzero).ne' zero
    have wordZero : word = 0 := by
      rw [← readsBack, Decimal.word, if_pos noCoefficient]
    rw [zero, wordZero, magnitude_zero]
    simp
  · rw [← toRat_powerOfTen] at lower upper
    have least : 0x10000000000000 ≤ (⟨1, -9⟩ : Decimal).word := by decide +kernel
    have greatest : (⟨1, 9⟩ : Decimal).word + 1 < infinityWord := by decide +kernel
    have atLeast := Decimal.word_mono lower
    have atMost := Decimal.word_mono upper.le
    rw [readsBack] at atLeast atMost
    exact Decimal.abs_toRat_sub_magnitude_le (by omega) (by omega) readsBack

/-! ## Cut texts -/

/-- What is kept of a decimal is near to the magnitude that the decimal is near to, if less than a
unit is left out and at least a hundred units are kept. -/
private theorem abs_kept_sub_le {kept whole size unit : ℚ} (keptLe : kept ≤ whole)
    (wholeLt : whole < kept + unit) (three : 100 * unit ≤ kept)
    (close : |whole - size| ≤ size / 2 ^ 52) : |kept - size| ≤ size / 100 := by
  rw [abs_le] at close ⊢
  obtain ⟨notAbove, notBelow⟩ := close
  norm_num at *
  constructor <;> linarith

/-- Digits that are kept around a point count at least a hundred units of the last place: if they
start with a zero, there are at least nine places and a decimal from 10 ^ -7 on to fill them. -/
private theorem hundred_units_le {number kept : Nat} {fraction : List Char} {whole : ℚ}
    (room : 10 ≤ (digits number).length + kept) (keptLe : kept ≤ fraction.length)
    (least : (10 : ℚ) ^ (-7 : ℤ) ≤ whole)
    (wholeLt : whole <
      (Decimal.ofDigits (digits number) (fraction.take kept)).toRat + 1 / 10 ^ kept) :
    100 * (1 / 10 ^ kept) ≤ (Decimal.ofDigits (digits number) (fraction.take kept)).toRat := by
  have powerPositive : (0 : ℚ) < 10 ^ kept := by positivity
  by_cases zero : number = 0
  · -- The digits are a whole number of units, which is above 99.
    have nine : 9 ≤ kept := by
      rw [zero] at room
      have single : (digits 0).length = 1 := rfl
      omega
    have exponentEq : (Decimal.ofDigits (digits number) (fraction.take kept)).exponent = -kept := by
      rw [Decimal.ofDigits, List.length_take, Nat.min_eq_left keptLe]
    rw [Decimal.toRat, exponentEq, zpow_neg, zpow_natCast, ← div_eq_mul_inv] at wholeLt ⊢
    generalize (Decimal.ofDigits (digits number) (fraction.take kept)).coefficient = units at *
    have hundredLe : (100 : ℚ) ≤ 10 ^ (-7 : ℤ) * 10 ^ kept := by
      calc (100 : ℚ) = 10 ^ (-7 : ℤ) * 10 ^ 9 := by norm_num
        _ ≤ 10 ^ (-7 : ℤ) * 10 ^ kept :=
            mul_le_mul_of_nonneg_left (pow_le_pow_right₀ (by norm_num) nine) (by positivity)
    have unitsGt : (100 : ℚ) < units + 1 := by
      rw [← add_div, lt_div_iff₀ powerPositive] at wholeLt
      have leastScaled := mul_le_mul_of_nonneg_right least powerPositive.le
      exact hundredLe.trans_lt (leastScaled.trans_lt wholeLt)
    have unitsGt' : 100 < units + 1 := by exact_mod_cast unitsGt
    have unitsGe : (100 : ℚ) ≤ units := by exact_mod_cast Nat.le_of_lt_succ unitsGt'
    rw [mul_one_div]
    exact div_le_div_of_nonneg_right unitsGe powerPositive.le
  · obtain ⟨further, lengthEq, leadingLe, -⟩ := Decimal.digits_bounds zero
    have leadingLe' : (10 : ℚ) ^ further ≤ number := by exact_mod_cast leadingLe
    have wholeLe : (number : ℚ) ≤
        (Decimal.ofDigits (digits number) (fraction.take kept)).toRat := by
      rw [Decimal.toRat_ofDigits, ofDigitChars_digits]
      exact le_add_of_nonneg_right (fractionValue_nonneg _)
    have hundredLe : (100 : ℚ) ≤ 10 ^ further * 10 ^ kept := by
      rw [← pow_add]
      calc (100 : ℚ) = 10 ^ 2 := by norm_num
        _ ≤ 10 ^ (further + kept) := pow_le_pow_right₀ (by norm_num) (by omega)
    rw [mul_one_div]
    exact ((div_le_iff₀ powerPositive).mpr hundredLe).trans (leadingLe'.trans wholeLe)

/-- A positional text that is longer than the room for it is cut behind the point, and the digits
that are kept are near to the magnitude. -/
private theorem exists_writesSize_cut {decimal : Decimal} {word room : Nat}
    (readsBack : decimal.word = word) (least : (10 : ℚ) ^ (-7 : ℤ) ≤ decimal.toRat)
    (below : decimal.toRat < 10 ^ (9 : ℤ)) (roomLe : 11 ≤ room)
    (long : room < decimal.positional.length) :
    ∃ size, WritesSize (decimal.positional.take room) size ∧
      |size - magnitude word| ≤ magnitude word / 100 := by
  have wholeLength : (digits (decimal.numerator / decimal.denominator)).length ≤ 9 := by
    have wholeLt : decimal.numerator / decimal.denominator < 10 ^ 9 := by
      exact_mod_cast decimal.whole_le_toRat.trans_lt below
    exact (Nat.length_toDigits_le_iff (by decide) (by decide)).mpr wholeLt
  obtain ⟨-, noPoint⟩ | pointed := decimal.positional_eq_or
  · rw [noPoint] at long
    omega
  rw [pointed, List.length_append, List.length_cons] at long
  obtain ⟨kept, roomEq⟩ :
      ∃ kept, room = (digits (decimal.numerator / decimal.denominator)).length + (kept + 1) :=
    ⟨room - (digits (decimal.numerator / decimal.denominator)).length - 1, by omega⟩
  have keptLe : kept ≤ decimal.fraction.length := by omega
  have keptPresent : decimal.fraction.take kept ≠ [] := by
    rw [← List.length_pos_iff, List.length_take]
    omega
  have keptDigits : AllDigits (decimal.fraction.take kept) := fun c member =>
    decimal.allDigits_fraction c (List.mem_of_mem_take member)
  obtain ⟨notMore, lessLeftOut⟩ := decimal.toRat_take_fraction_bounds keptLe
  have hundred := hundred_units_le (by omega) keptLe least lessLeftOut
  have close := close_of_moderate readsBack (moderate_of_bounds least below)
  rw [pointed, roomEq, List.take_length_add_append, List.take_succ_cons]
  refine ⟨_, .pointed (digits_ne_nil _) (allDigits_digits _) keptPresent keptDigits, ?_⟩
  rw [← Decimal.toRat_ofDigits]
  exact abs_kept_sub_le notMore lessLeftOut hundred close

/-! ## What is shown of a magnitude -/

/-- A magnitude that is shown in positional notation is near to what is shown of it. -/
private theorem exists_writesSize_positional {word room : Nat} (finite : word < infinityWord)
    (roomLe : 11 ≤ room)
    (plain : (shortestDecimal word).positional.length ≤ plainWidth ∨
      needsExponent word = false) :
    ∃ size, WritesSize ((shortestDecimal word).positional.take room) size ∧
      |size - magnitude word| ≤ magnitude word / 100 := by
  have readsBack := word_shortestDecimal finite
  have zeroDecimal : shortestDecimal 0 = ⟨0, 0⟩ := by decide +kernel
  by_cases fits : (shortestDecimal word).positional.length ≤ room
  · have moderate : Moderate (shortestDecimal word).toRat := by
      rcases plain with short | notBeyond
      · exact moderate_of_length short
      · by_cases zero : word = 0
        · left
          rw [zero, zeroDecimal, Decimal.toRat, Nat.cast_zero, zero_mul]
        · obtain ⟨least, below⟩ := toRat_bounds_of_not_needsExponent zero finite notBeyond
          exact moderate_of_bounds least below
    rw [List.take_of_length_le fits]
    refine ⟨_, writesSize_positional _, (close_of_moderate readsBack moderate).trans ?_⟩
    exact div_le_div_of_nonneg_left (magnitude_nonneg word) (by norm_num) (by norm_num)
  · have long : room < (shortestDecimal word).positional.length := Nat.lt_of_not_le fits
    have nonzero : word ≠ 0 := by
      rintro rfl
      have single : (⟨0, 0⟩ : Decimal).positional.length = 1 := by decide
      rw [zeroDecimal, single] at long
      omega
    have notBeyond : needsExponent word = false := by
      refine plain.resolve_left fun short => ?_
      unfold plainWidth at short
      omega
    obtain ⟨least, below⟩ := toRat_bounds_of_not_needsExponent nonzero finite notBeyond
    exact exists_writesSize_cut readsBack least below roomLe long

/-- A magnitude that is shown with an exponent is near to what is shown of it. -/
private theorem exists_writesSize_exponential {word : Nat} (finite : word < infinityWord)
    (beyond : needsExponent word = true) :
    (roundedExponential 2 word).length ≤ 9 ∧
      ∃ size, WritesSize (roundedExponential 2 word) size ∧
        |size - magnitude word| ≤ magnitude word / 100 := by
  have nonzero : word ≠ 0 := by
    rintro rfl
    exact absurd beyond (by decide +kernel)
  obtain ⟨short, size, writes, close⟩ := exists_writesSize_roundedExponential nonzero finite
  refine ⟨short, size, writes, close.trans ?_⟩
  have leading : (10 : ℚ) ^ decade word ≤ magnitude word := by
    have atMost := Int.zpow_log_le_self (by decide : 1 < 10) (magnitude_pos nonzero)
    rw [← decade_eq_log nonzero, Nat.cast_ofNat] at atMost
    exact atMost
  have positive := magnitude_pos nonzero
  have step : (10 : ℚ) ^ (decade word - 2) = 10 ^ decade word / 100 := by
    rw [zpow_sub₀ (by norm_num)]
    norm_num
  rw [step]
  linarith

/-! ## What is shown of a double -/

/-- The text of a finite double is shown with an exponent if it is long and the double needs one. -/
theorem ofText_positionalText {value : Float} (finite : isFinite value = true) :
    ofText (positionalText value) =
      if plainWidth < (positionalText value).length ∧
          needsExponent (magnitudeWord value) = true then
        exponentialText value
      else String.ofList ((positionalText value).toList.take width) := by
  have filtered :
      (some value).filter (fun read => isFinite read && needsExponent (magnitudeWord read)) =
        if needsExponent (magnitudeWord value) = true then some value else none := by
    rw [Option.filter_some, finite, Bool.true_and]
  unfold ofText exponentialValue?
  by_cases long : plainWidth < (positionalText value).length
  · rw [if_pos long, read?_positionalText finite, filtered]
    by_cases beyond : needsExponent (magnitudeWord value) = true
    · rw [if_pos beyond, if_pos ⟨long, beyond⟩]
    · rw [if_neg beyond, if_neg fun both => beyond both.2]
  · rw [if_neg long, if_neg fun both => long both.1]

/-- What the display shows of a finite double is its sign and a text, which fits the display behind
the sign and writes a number that is near to the double's magnitude. -/
private theorem exists_ofText_eq {value : Float} (finite : isFinite value = true) :
    ∃ body size, (ofText (positionalText value)).toList = signText (isNegative value) ++ body ∧
      (signText (isNegative value) ++ body).length ≤ width ∧ WritesSize body size ∧
      |size - magnitude (magnitudeWord value)| ≤ magnitude (magnitudeWord value) / 100 := by
  have wordFinite : magnitudeWord value < infinityWord := of_decide_eq_true finite
  have signLength : (signText (isNegative value)).length ≤ 1 := by
    cases isNegative value <;> decide
  have textLength := congrArg String.length (positionalText_of_finite finite)
  rw [String.length_ofList, List.length_append] at textLength
  rw [ofText_positionalText finite, width]
  by_cases exponent :
      plainWidth < (positionalText value).length ∧ needsExponent (magnitudeWord value) = true
  · obtain ⟨short, size, writes, close⟩ := exists_writesSize_exponential wordFinite exponent.2
    refine ⟨_, size, ?_, ?_, writes, close⟩
    · rw [if_pos exponent, exponentialText, String.toList_ofList]
    · rw [List.length_append]
      omega
  · have plain : (shortestDecimal (magnitudeWord value)).positional.length ≤ plainWidth ∨
        needsExponent (magnitudeWord value) = false := by
      rcases not_and_or.mp exponent with short | notBeyond
      · left
        omega
      · exact Or.inr (Bool.eq_false_iff.mpr notBeyond)
    obtain ⟨size, writes, close⟩ := exists_writesSize_positional wordFinite
      (by omega : 11 ≤ 12 - (signText (isNegative value)).length) plain
    refine ⟨_, size, ?_, ?_, writes, close⟩
    · rw [if_neg exponent, positionalText_of_finite finite, String.toList_ofList,
        String.toList_ofList, List.take_append, List.take_of_length_le (by omega)]
    · rw [List.length_append, List.length_take]
      omega

/-- The display never misrepresents a result. What it shows of a finite double has at most twelve
characters and a minus exactly for a set sign bit, and it is a decimal that writes one number, which
differs from the double by at most a hundredth and is zero for the two zeros only. -/
theorem shown_result_is_close {value : Float} (finite : isFinite value = true) :
    (ofText (positionalText value)).length ≤ 12 ∧
      ((ofText (positionalText value)).toList.head? = some '-' ↔ isNegative value = true) ∧
      ∃ number, Writes (ofText (positionalText value)).toList number ∧
        (∀ other, Writes (ofText (positionalText value)).toList other → other = number) ∧
        |number - exactValue value| ≤ |exactValue value| / 100 ∧
        (number = 0 → value = ofMagnitude false 0 ∨ value = ofMagnitude true 0) := by
  obtain ⟨body, size, shownEq, fits, writes, close⟩ := exists_ofText_eq finite
  have sameLength : (ofText (positionalText value)).length =
      (signText (isNegative value) ++ body).length := by
    rw [← shownEq, String.length_toList]
  rw [shownEq, sameLength]
  have writesSigned : Writes (signText (isNegative value) ++ body)
      (signed (isNegative value) size) :=
    ⟨isNegative value, body, size, rfl, writes, rfl⟩
  refine ⟨fits, ?_, _, writesSigned, fun other writesOther => writesSigned.unique writesOther,
    ?_, ?_⟩
  · obtain ⟨c, rest, rfl, isDigit⟩ := writes.exists_digit_cons
    cases isNegative value with
    | true => exact ⟨fun _ => rfl, fun _ => rfl⟩
    | false =>
        refine ⟨fun isMinus => ?_, fun impossible => by cases impossible⟩
        cases isMinus
        exact absurd isDigit (by decide)
  · rw [abs_exactValue, exactValue, abs_signed_sub_signed]
    exact close
  · intro isZero
    have sizeZero : size = 0 := signed_eq_zero_iff.mp isZero
    have wordZero : magnitudeWord value = 0 := by
      by_contra nonzero
      have positive := magnitude_pos nonzero
      rw [sizeZero, zero_sub, abs_neg, abs_of_pos positive] at close
      linarith
    have restored := ofMagnitude_magnitudeWord value
    rw [wordZero] at restored
    cases negative : isNegative value with
    | false =>
        rw [negative] at restored
        exact Or.inl restored.symm
    | true =>
        rw [negative] at restored
        exact Or.inr restored.symm

/-- The double nearest to -1.00999e-7 is shown with three digits that stand for -1e-7, which is
almost a hundredth less. -/
theorem three_digits_are_close_enough :
    isFinite (ofMagnitude true 0x3e7b1c9932c3c975) = true ∧
      ofText (positionalText (ofMagnitude true 0x3e7b1c9932c3c975)) = "-0.000000100" ∧
      Writes "-0.000000100".toList (-1 / 10 ^ 7) ∧
      |-1 / 10 ^ 7 - exactValue (ofMagnitude true 0x3e7b1c9932c3c975)| ≤
        |exactValue (ofMagnitude true 0x3e7b1c9932c3c975)| / 100 := by
  have finite : isFinite (ofMagnitude true 0x3e7b1c9932c3c975) = true := by decide +kernel
  have shownEq :
      ofText (positionalText (ofMagnitude true 0x3e7b1c9932c3c975)) = "-0.000000100" := by
    decide +kernel
  have writes : Writes "-0.000000100".toList (-1 / 10 ^ 7) := by
    refine ⟨true, "0.000000100".toList, 1 / 10 ^ 7, by decide, ?_, ?_⟩
    · have pointed := @WritesSize.pointed ['0'] "000000100".toList (by decide) (by decide)
        (by decide) (by decide)
      have valueEq : (Nat.ofDigitChars 10 ['0'] 0 + fractionValue "000000100".toList : ℚ) =
          1 / 10 ^ 7 := by
        have noWhole : Nat.ofDigitChars 10 ['0'] 0 = 0 := by decide
        have hundred : Nat.ofDigitChars 10 "000000100".toList 0 = 100 := by decide
        have nine : "000000100".toList.length = 9 := by decide
        rw [fractionValue, noWhole, hundred, nine]
        norm_num
      rw [valueEq] at pointed
      exact pointed
    · rw [signed, if_pos rfl, neg_div]
  obtain ⟨-, -, number, -, unique, close, -⟩ := shown_result_is_close finite
  rw [shownEq] at unique
  rw [← unique _ writes] at close
  exact ⟨finite, shownEq, writes, close⟩

end PocketCalc.Display
