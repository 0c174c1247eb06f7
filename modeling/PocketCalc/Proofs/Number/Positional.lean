import PocketCalc.Number.Binary.Fields
import PocketCalc.Number.Positional
import PocketCalc.Proofs.Number.Order
import PocketCalc.Proofs.Number.Literal

/-!
Contract: positional texts and the decimals that they write.

Owns:
- the value that digits around a point write;
- a positional text consists of digits with at most one point, and writes the decimal that it was
  taken from;
- the unsigned text of a finite magnitude reads back as that magnitude;
- the text of a double without and with its sign bit set, and the only one that is a lone zero.

Does not own: texts as expressions; see `Evaluation/ReadBack`.
-/

namespace PocketCalc.Number

open PocketCalc.Lexeme

/-! ## Digits around a point -/

/-- The value of digits behind a point. -/
def fractionValue (fraction : List Char) : ℚ :=
  Nat.ofDigitChars 10 fraction 0 / 10 ^ fraction.length

theorem Decimal.toRat_ofDigits (whole fraction : List Char) :
    (Decimal.ofDigits whole fraction).toRat =
      Nat.ofDigitChars 10 whole 0 + fractionValue fraction := by
  have joined :
      Nat.ofDigitChars 10 (whole ++ fraction) 0 =
        10 ^ fraction.length * Nat.ofDigitChars 10 whole 0 + Nat.ofDigitChars 10 fraction 0 := by
    rw [Nat.ofDigitChars_append, Nat.ofDigitChars_eq_ofDigitChars_zero]
  have powerNonzero : (10 : ℚ) ^ fraction.length ≠ 0 := by positivity
  rw [toRat, ofDigits, joined, fractionValue, zpow_neg, zpow_natCast, ← div_eq_mul_inv]
  push_cast
  rw [add_div, mul_div_cancel_left₀ _ powerNonzero]

/-- Digits of a fraction that follow others count for as much less as there are others. -/
theorem fractionValue_append (front behind : List Char) :
    fractionValue (front ++ behind) =
      fractionValue front + fractionValue behind / 10 ^ front.length := by
  have frontNonzero : (10 : ℚ) ^ front.length ≠ 0 := by positivity
  have behindNonzero : (10 : ℚ) ^ behind.length ≠ 0 := by positivity
  rw [fractionValue, fractionValue, fractionValue, Nat.ofDigitChars_append,
    Nat.ofDigitChars_eq_ofDigitChars_zero, List.length_append, pow_add]
  push_cast
  field_simp

/-- Zeros that end a fraction add nothing to it. -/
private theorem fractionValue_append_zeros (fraction : List Char) (zeros : Nat) :
    fractionValue (fraction ++ List.replicate zeros '0') = fractionValue fraction := by
  have noValue : fractionValue (List.replicate zeros '0') = 0 := by
    rw [fractionValue, Nat.ofDigitChars_replicate_zero, Nat.mul_zero, Nat.cast_zero, zero_div]
  rw [fractionValue_append, noValue, zero_div, add_zero]

theorem ofDigitChars_lt {text : List Char} (textDigits : AllDigits text) :
    Nat.ofDigitChars 10 text 0 < 10 ^ text.length := by
  induction text with
  | nil => decide
  | cons c rest inductionHypothesis =>
      have restLt := inductionHypothesis textDigits.tail
      have bounds := Char.isDigit_iff_toNat.mp textDigits.head
      have leadingLe : 10 * 0 + (c.toNat - '0'.toNat) ≤ 9 := by
        have upper : c.toNat ≤ 57 := bounds.2
        have zeroCode : '0'.toNat = 48 := by decide
        omega
      have scaled := Nat.mul_le_mul_left (10 ^ rest.length) leadingLe
      rw [Nat.ofDigitChars_cons, Nat.ofDigitChars_eq_ofDigitChars_zero, List.length_cons,
        Nat.pow_succ]
      omega

theorem fractionValue_nonneg (fraction : List Char) : 0 ≤ fractionValue fraction := by
  unfold fractionValue
  positivity

theorem fractionValue_lt_one {fraction : List Char} (fractionDigits : AllDigits fraction) :
    fractionValue fraction < 1 := by
  rw [fractionValue, div_lt_one (by positivity)]
  exact_mod_cast ofDigitChars_lt fractionDigits

/-- Digits of a fraction that are left out take off less than one unit of the last place kept. -/
theorem fractionValue_take_bounds {fraction : List Char} (fractionDigits : AllDigits fraction)
    {kept : Nat} (keptLe : kept ≤ fraction.length) :
    fractionValue (fraction.take kept) ≤ fractionValue fraction ∧
      fractionValue fraction < fractionValue (fraction.take kept) + 1 / 10 ^ kept := by
  have powerPositive : (0 : ℚ) < 10 ^ kept := by positivity
  have divided := fractionValue_append (fraction.take kept) (fraction.drop kept)
  rw [List.take_append_drop, List.length_take, Nat.min_eq_left keptLe] at divided
  have leftOutNonneg := fractionValue_nonneg (fraction.drop kept)
  have leftOutLt : fractionValue (fraction.drop kept) < 1 :=
    fractionValue_lt_one fun c member => fractionDigits c (List.mem_of_mem_drop member)
  rw [divided]
  refine ⟨?_, ?_⟩
  · exact le_add_of_nonneg_right (div_nonneg leftOutNonneg powerPositive.le)
  · exact add_lt_add_right (div_lt_div_of_pos_right leftOutLt powerPositive) _

/-- The run of zeros that starts a text. -/
theorem takeWhile_zero (text : List Char) :
    text.takeWhile (· == '0') = List.replicate (text.takeWhile (· == '0')).length '0' := by
  rw [List.eq_replicate_iff]
  exact ⟨rfl, fun c member => eq_of_beq (List.all_eq_true.mp List.all_takeWhile c member)⟩

/-- The zeros that end a text, taken off and put back. -/
theorem exists_append_zeros (text : List Char) :
    ∃ zeros, text = withoutTrailingZeros text ++ List.replicate zeros '0' := by
  refine ⟨(text.reverse.takeWhile (· == '0')).length, ?_⟩
  have divided := congrArg List.reverse
    (List.takeWhile_append_dropWhile (p := (· == '0')) (l := text.reverse))
  rw [List.reverse_reverse, List.reverse_append, takeWhile_zero, List.reverse_replicate] at divided
  exact divided.symm

/-! ## Positional texts -/

theorem allDigits_digits (number : Nat) : AllDigits (digits number) :=
  fun _ member => Nat.isDigit_of_mem_toDigits (by decide) (by decide) member

theorem digits_ne_nil (number : Nat) : digits number ≠ [] := by
  rw [← List.length_pos_iff]
  exact Nat.length_toDigits_pos

theorem ofDigitChars_digits (number : Nat) : Nat.ofDigitChars 10 (digits number) 0 = number :=
  Nat.ofDigitChars_ten_toDigits

theorem ofDigitChars_padded (width : Nat) (text : List Char) :
    Nat.ofDigitChars 10 (padded width text) 0 = Nat.ofDigitChars 10 text 0 := by
  rw [padded, Nat.ofDigitChars_append, Nat.ofDigitChars_replicate_zero, Nat.mul_zero]

theorem allDigits_padded {text : List Char} (textDigits : AllDigits text) (width : Nat) :
    AllDigits (padded width text) := by
  intro c member
  rcases List.mem_append.mp member with inZeros | inText
  · rw [List.eq_of_mem_replicate inZeros]
    rfl
  · exact textDigits c inText

theorem length_padded (width : Nat) (text : List Char) :
    (padded width text).length = max width text.length := by
  rw [padded, List.length_append, List.length_replicate]
  omega

/-- A number below a power of ten, padded to as many places as the power has, is its share of one.
Without places the number is zero, although a digit is written. -/
private theorem fractionValue_padded {number places : Nat} (below : number < 10 ^ places) :
    fractionValue (padded places (digits number)) = number / 10 ^ places := by
  rw [fractionValue, ofDigitChars_padded, ofDigitChars_digits]
  rcases Nat.eq_zero_or_pos places with rfl | somePlaces
  · obtain rfl : number = 0 := by simpa using below
    simp
  · have fits : (digits number).length ≤ places :=
      (Nat.length_toDigits_le_iff (by decide) somePlaces).mpr below
    rw [length_padded, Nat.max_eq_left fits]

namespace Decimal

theorem allDigits_fraction (decimal : Decimal) : AllDigits decimal.fraction := by
  have paddedDigits := allDigits_padded
    (allDigits_digits (decimal.numerator % decimal.denominator)) (-decimal.exponent).toNat
  obtain ⟨zeros, divided⟩ := exists_append_zeros
    (padded (-decimal.exponent).toNat (digits (decimal.numerator % decimal.denominator)))
  rw [divided] at paddedDigits
  exact fun c member => paddedDigits c (List.mem_append_left _ member)

/-- The digits around a decimal's point write the decimal. -/
theorem toRat_ofDigits_fraction (decimal : Decimal) :
    (ofDigits (digits (decimal.numerator / decimal.denominator)) decimal.fraction).toRat =
      decimal.toRat := by
  have below := Nat.mod_lt decimal.numerator decimal.denominator_pos
  have denominatorNonzero : (decimal.denominator : ℚ) ≠ 0 := by
    exact_mod_cast decimal.denominator_pos.ne'
  obtain ⟨zeros, divided⟩ := exists_append_zeros
    (padded (-decimal.exponent).toNat (digits (decimal.numerator % decimal.denominator)))
  have behindPoint :
      fractionValue decimal.fraction =
        (decimal.numerator % decimal.denominator : ℕ) / (decimal.denominator : ℚ) := by
    rw [fraction, ← fractionValue_append_zeros _ zeros, ← divided, fractionValue_padded below,
      denominator_eq]
    push_cast
    rfl
  have division : (decimal.numerator : ℚ) =
      decimal.denominator * (decimal.numerator / decimal.denominator : ℕ) +
        (decimal.numerator % decimal.denominator : ℕ) := by
    exact_mod_cast (Nat.div_add_mod decimal.numerator decimal.denominator).symm
  rw [toRat_ofDigits, ofDigitChars_digits, behindPoint, toRat_eq_div, division, add_div,
    mul_div_cancel_left₀ _ denominatorNonzero]

/-- Leaving out digits behind the point takes off less than a unit of the last place kept. -/
theorem toRat_take_fraction_bounds (decimal : Decimal) {kept : Nat}
    (keptLe : kept ≤ decimal.fraction.length) :
    (ofDigits (digits (decimal.numerator / decimal.denominator))
        (decimal.fraction.take kept)).toRat ≤ decimal.toRat ∧
      decimal.toRat < (ofDigits (digits (decimal.numerator / decimal.denominator))
        (decimal.fraction.take kept)).toRat + 1 / 10 ^ kept := by
  obtain ⟨notMore, lessLeftOut⟩ := fractionValue_take_bounds decimal.allDigits_fraction keptLe
  have valueEq := decimal.toRat_ofDigits_fraction
  rw [toRat_ofDigits] at valueEq
  rw [toRat_ofDigits, ← valueEq, add_assoc]
  exact ⟨add_le_add_right notMore _, add_lt_add_right lessLeftOut _⟩

theorem whole_le_toRat (decimal : Decimal) :
    ((decimal.numerator / decimal.denominator : ℕ) : ℚ) ≤ decimal.toRat := by
  rw [← toRat_ofDigits_fraction, toRat_ofDigits, ofDigitChars_digits]
  exact le_add_of_nonneg_right (fractionValue_nonneg _)

/-- A positional text has digits before a point and behind it, or no point. -/
theorem positional_eq_or (decimal : Decimal) :
    (decimal.fraction = [] ∧
        decimal.positional = digits (decimal.numerator / decimal.denominator)) ∨
      decimal.positional =
        digits (decimal.numerator / decimal.denominator) ++ '.' :: decimal.fraction := by
  unfold positional
  cases fractionEq : decimal.fraction with
  | nil => exact Or.inl ⟨rfl, rfl⟩
  | cons c rest => exact Or.inr rfl

theorem isNumeral_positional (decimal : Decimal) : IsNumeral decimal.positional := by
  have present := digits_ne_nil (decimal.numerator / decimal.denominator)
  have wholeDigits := allDigits_digits (decimal.numerator / decimal.denominator)
  rcases decimal.positional_eq_or with ⟨-, whole⟩ | pointed
  · rw [whole]
    exact Or.inl ⟨present, wholeDigits⟩
  · rw [pointed]
    exact Or.inr ⟨_, _, rfl, present, wholeDigits, decimal.allDigits_fraction⟩

/-- A positional text, behind a sign or not, is read as the double nearest to the decimal that it
was taken from. -/
theorem read?_positional (negative : Bool) (decimal : Decimal) :
    read? (String.ofList (signText negative ++ decimal.positional)) =
      some (ofMagnitude negative decimal.word) := by
  have present := digits_ne_nil (decimal.numerator / decimal.denominator)
  have wholeDigits := allDigits_digits (decimal.numerator / decimal.denominator)
  rw [← word_congr decimal.toRat_ofDigits_fraction, read?_ofList]
  rcases decimal.positional_eq_or with ⟨noFraction, whole⟩ | pointed
  · rw [whole, noFraction, ← List.append_nil (digits _),
      Numeral.ofChars?_positional negative present wholeDigits (fun _ member => by cases member)
        (Or.inl ⟨rfl, rfl⟩), List.append_nil]
    rfl
  · rw [pointed, Numeral.ofChars?_positional negative present wholeDigits decimal.allDigits_fraction
      (Or.inr rfl)]
    rfl

end Decimal

/-! ## The text of a double -/

theorem positionalText_of_finite {value : Float} (finite : isFinite value = true) :
    positionalText value =
      String.ofList (signText (isNegative value) ++
        (shortestDecimal (magnitudeWord value)).positional) := by
  rw [positionalText]
  exact if_pos (of_decide_eq_true finite)

/-- The digits of a finite double's text, without the sign, read back as its magnitude. -/
theorem read?_positional_shortestDecimal {value : Float} (finite : isFinite value = true) :
    read? (String.ofList (shortestDecimal (magnitudeWord value)).positional) =
      some (ofMagnitude false (magnitudeWord value)) := by
  have read := Decimal.read?_positional false (shortestDecimal (magnitudeWord value))
  rw [word_shortestDecimal (of_decide_eq_true finite)] at read
  exact read

/-- The text of a finite double reads back as that double. -/
theorem read?_positionalText {value : Float} (finite : isFinite value = true) :
    read? (positionalText value) = some value := by
  rw [positionalText_of_finite finite, Decimal.read?_positional,
    word_shortestDecimal (of_decide_eq_true finite), ofMagnitude_magnitudeWord]

/-- The text of a finite double that is not negative is the text of its digits. -/
theorem positionalText_of_not_negative {value : Float} (finite : isFinite value = true)
    (notNegative : isNegative value = false) :
    positionalText value = String.ofList (shortestDecimal (magnitudeWord value)).positional ∧
      read? (positionalText value) = some value := by
  have textEq := positionalText_of_finite finite
  rw [notNegative] at textEq
  exact ⟨textEq, read?_positionalText finite⟩

/-- The text of a finite double with its sign bit set is that of its digits behind a minus. -/
theorem positionalText_of_negative {value : Float} (finite : isFinite value = true)
    (negative : isNegative value = true) :
    positionalText value =
      "-" ++ String.ofList (shortestDecimal (magnitudeWord value)).positional := by
  rw [positionalText_of_finite finite, negative, signText, if_pos rfl, String.ofList_append]

/-- Of the finite doubles only the zero without a sign has a lone zero as its text. -/
theorem positionalText_eq_zero_iff {value : Float} (finite : isFinite value = true) :
    positionalText value = "0" ↔ isNegative value = false ∧ magnitudeWord value = 0 := by
  have readZero : read? "0" = some (ofMagnitude false 0) := by decide +kernel
  have zeroText : positionalText (ofMagnitude false 0) = "0" := by decide +kernel
  constructor
  · intro isZero
    cases negative : isNegative value with
    | true =>
        have chars := congrArg String.toList isZero
        rw [positionalText_of_negative finite negative, String.toList_append] at chars
        cases chars
    | false =>
        obtain ⟨-, read⟩ := positionalText_of_not_negative finite negative
        rw [isZero, readZero] at read
        refine ⟨rfl, ?_⟩
        rw [← Option.some.inj read]
        decide +kernel
  · rintro ⟨notNegative, zero⟩
    have restored := ofMagnitude_magnitudeWord value
    rw [notNegative, zero] at restored
    rw [← restored]
    exact zeroText

end PocketCalc.Number
