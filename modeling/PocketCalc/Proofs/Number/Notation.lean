import PocketCalc.Proofs.Number.Exponential

/-!
Contract: which texts are decimals, and the number that each of them writes.

Owns:
- the relation between a text and the number that it writes: digits with a point between them or
  without, or three digits and a power of ten, behind a minus or not;
- a text writes one number at most;
- the texts of both notations write what they were taken from.

Does not own: how much of a text is shown; see `Display`.
-/

namespace PocketCalc.Number

open PocketCalc.Lexeme

/-- A number behind a sign. -/
def signed (negative : Bool) (size : ℚ) : ℚ := if negative then -size else size

/-- The exact value of a finite double. -/
def exactValue (value : Float) : ℚ := signed (isNegative value) (magnitude (magnitudeWord value))

/-- The unsigned texts of decimals, and what they write: digits, digits before a point and behind
it, or one digit before a point and two behind it with an exponent of two or three digits. -/
inductive WritesSize : List Char → ℚ → Prop
  | whole {whole : List Char} (present : whole ≠ []) (wholeDigits : AllDigits whole) :
      WritesSize whole (Nat.ofDigitChars 10 whole 0)
  | pointed {whole fraction : List Char} (present : whole ≠ []) (wholeDigits : AllDigits whole)
      (behindPoint : fraction ≠ []) (fractionDigits : AllDigits fraction) :
      WritesSize (whole ++ '.' :: fraction) (Nat.ofDigitChars 10 whole 0 + fractionValue fraction)
  | exponential {leading : Char} {places power : List Char} (below : Bool)
      (leadingDigit : leading.isDigit = true) (two : places.length = 2)
      (placesDigits : AllDigits places) (twoOrThree : power.length = 2 ∨ power.length = 3)
      (powerDigits : AllDigits power) :
      WritesSize (leading :: '.' :: places ++ 'e' :: (if below then '-' else '+') :: power)
        ((Nat.ofDigitChars 10 [leading] 0 + fractionValue places) * 10 ^ Numeral.signedPower below power)

/-- A text writes a number: a minus or nothing, and then an unsigned decimal. -/
def Writes (text : List Char) (number : ℚ) : Prop :=
  ∃ negative body size, text = signText negative ++ body ∧ WritesSize body size ∧
    number = signed negative size

theorem WritesSize.exists_digit_cons {body : List Char} {size : ℚ} (writes : WritesSize body size) :
    ∃ c rest, body = c :: rest ∧ c.isDigit = true := by
  cases writes with
  | whole present wholeDigits =>
      obtain ⟨c, rest, rfl⟩ := List.exists_cons_of_ne_nil present
      exact ⟨c, rest, rfl, wholeDigits.head⟩
  | pointed present wholeDigits =>
      obtain ⟨c, rest, rfl⟩ := List.exists_cons_of_ne_nil present
      exact ⟨c, _, rfl, wholeDigits.head⟩
  | exponential below leadingDigit => exact ⟨_, _, rfl, leadingDigit⟩

/-! ## Signs -/

theorem signed_eq_zero_iff {negative : Bool} {size : ℚ} : signed negative size = 0 ↔ size = 0 := by
  cases negative with
  | false => exact Iff.rfl
  | true => exact neg_eq_zero

theorem abs_signed_sub_signed (negative : Bool) (left right : ℚ) :
    |signed negative left - signed negative right| = |left - right| := by
  cases negative with
  | false => rfl
  | true =>
      rw [signed, signed, if_pos rfl, if_pos rfl, neg_sub_neg, abs_sub_comm]

theorem abs_exactValue (value : Float) :
    |exactValue value| = magnitude (magnitudeWord value) := by
  have magnitudeNonneg := magnitude_nonneg (magnitudeWord value)
  rw [exactValue, signed]
  split
  · rw [abs_neg, abs_of_nonneg magnitudeNonneg]
  · rw [abs_of_nonneg magnitudeNonneg]

/-! ## One number for a text -/

theorem Decimal.toRat_shift (coefficient : Nat) (exponent shift : Int) :
    (⟨coefficient, shift + exponent⟩ : Decimal).toRat =
      (⟨coefficient, exponent⟩ : Decimal).toRat * 10 ^ shift := by
  rw [toRat, toRat, zpow_add₀ (by norm_num), mul_comm ((10 : ℚ) ^ shift), mul_assoc]

/-- What a text writes is what the grammar of numerals reads from it. -/
theorem WritesSize.ofChars? {body : List Char} {size : ℚ} (writes : WritesSize body size) :
    ∃ decimal : Decimal, decimal.toRat = size ∧ ∀ negative,
      Numeral.ofChars? (signText negative ++ body) = some (.finite negative decimal) := by
  have noFraction : AllDigits [] := fun _ member => by cases member
  cases writes with
  | whole present wholeDigits =>
      refine ⟨Decimal.ofDigits body [], ?_, fun negative => ?_⟩
      · rw [Decimal.toRat_ofDigits]
        simp [fractionValue]
      · have read := Numeral.ofChars?_positional negative present wholeDigits noFraction
          (Or.inl ⟨rfl, rfl⟩)
        rw [List.append_nil] at read
        exact read
  | @pointed whole fraction present wholeDigits behindPoint fractionDigits =>
      exact ⟨Decimal.ofDigits whole fraction, Decimal.toRat_ofDigits whole fraction,
        fun negative =>
          Numeral.ofChars?_positional negative present wholeDigits fractionDigits (Or.inr rfl)⟩
  | @exponential leading places power below leadingDigit two placesDigits twoOrThree powerDigits =>
      have powerPresent : power ≠ [] := by
        rintro rfl
        simp at twoOrThree
      have leadingDigits : AllDigits [leading] := by
        intro c member
        rw [List.mem_singleton.mp member]
        exact leadingDigit
      refine ⟨⟨Nat.ofDigitChars 10 ([leading] ++ places) 0,
        Numeral.signedPower below power - places.length⟩, ?_, fun negative => ?_⟩
      · rw [← Decimal.toRat_ofDigits, Int.sub_eq_add_neg, Decimal.toRat_shift]
        rfl
      · exact Numeral.ofChars?_exponential negative below (List.cons_ne_nil leading [])
          leadingDigits placesDigits powerPresent powerDigits

/-- A text writes one number at most. -/
theorem Writes.unique {text : List Char} {number other : ℚ} (writes : Writes text number)
    (writesOther : Writes text other) : other = number := by
  obtain ⟨negative, body, size, textEq, writesSize, rfl⟩ := writes
  obtain ⟨negative', body', size', textEq', writesSize', rfl⟩ := writesOther
  obtain ⟨decimal, rfl, read⟩ := writesSize.ofChars?
  obtain ⟨decimal', rfl, read'⟩ := writesSize'.ofChars?
  have sameText : signText negative ++ body = signText negative' ++ body' := textEq ▸ textEq'
  have same := read negative
  rw [sameText, read' negative'] at same
  cases same
  rfl

/-! ## The two notations -/

/-- A positional text writes the decimal that it was taken from. -/
theorem writesSize_positional (decimal : Decimal) :
    WritesSize decimal.positional decimal.toRat := by
  have present := digits_ne_nil (decimal.numerator / decimal.denominator)
  have wholeDigits := allDigits_digits (decimal.numerator / decimal.denominator)
  have valueEq := decimal.toRat_ofDigits_fraction
  rw [Decimal.toRat_ofDigits] at valueEq
  rw [← valueEq, Decimal.positional]
  cases fractionEq : decimal.fraction with
  | nil =>
      have noValue : fractionValue [] = 0 := by simp [fractionValue]
      rw [noValue, add_zero]
      exact .whole present wholeDigits
  | cons c rest =>
      have fractionDigits := decimal.allDigits_fraction
      rw [fractionEq] at fractionDigits
      exact .pointed present wholeDigits (List.cons_ne_nil c rest) fractionDigits

/-- Three digits and an exponent of at most three digits are a text of at most nine characters,
which writes the decimal of the digits. -/
theorem writesSize_exponential {significant : List Char} {exponent : Int}
    (three : significant.length = 3) (significantDigits : AllDigits significant)
    (small : exponent.natAbs < 1000) :
    (exponential significant exponent).length ≤ 9 ∧
      WritesSize (exponential significant exponent)
        (⟨Nat.ofDigitChars 10 significant 0, exponent - 2⟩ : Decimal).toRat := by
  obtain ⟨power, powerTextEq, twoOrThree, powerDigits, powerEq⟩ := exists_exponentText_eq small
  obtain ⟨leading, places, rfl, layout⟩ :=
    exponential_of_two_le (by omega : 2 ≤ significant.length) exponent
  have two : places.length = 2 := by simpa using three
  have withSign : ∃ below : Bool,
      (if exponent < 0 then '-' else '+') = (if below then '-' else '+') ∧
        Numeral.signedPower below power = exponent := by
    by_cases negative : exponent < 0
    · refine ⟨true, by rw [if_pos negative, if_pos rfl], ?_⟩
      rw [Numeral.signedPower, if_pos rfl, powerEq]
      omega
    · refine ⟨false, by rw [if_neg negative, if_neg Bool.false_ne_true], ?_⟩
      rw [Numeral.signedPower, if_neg Bool.false_ne_true, powerEq]
      omega
  obtain ⟨below, signEq, valueEq⟩ := withSign
  have sizeEq :
      (⟨Nat.ofDigitChars 10 (leading :: places) 0, exponent - 2⟩ : Decimal).toRat =
        (Nat.ofDigitChars 10 [leading] 0 + fractionValue places) * 10 ^ exponent := by
    have twoPlaces : (2 : Int) = places.length := by omega
    rw [← Decimal.toRat_ofDigits, Int.sub_eq_add_neg, Decimal.toRat_shift, twoPlaces]
    rfl
  rw [layout, powerTextEq, signEq, sizeEq, ← valueEq]
  refine ⟨?_, .exponential below significantDigits.head two significantDigits.tail twoOrThree
    powerDigits⟩
  simp only [List.length_append, List.length_cons]
  omega

/-- A magnitude in exponential notation with two places is a text of at most nine characters, which
writes a number that is within half a unit of the last place. -/
theorem exists_writesSize_roundedExponential {word : Nat} (nonzero : word ≠ 0)
    (finite : word < infinityWord) :
    (roundedExponential 2 word).length ≤ 9 ∧
      ∃ size, WritesSize (roundedExponential 2 word) size ∧
        |size - magnitude word| ≤ 10 ^ (decade word - 2) / 2 := by
  obtain ⟨significant, exponent, textEq, three, significantDigits, exponentEq, close⟩ :=
    exists_roundedExponential_eq nonzero 2
  have small : exponent.natAbs < 1000 := by
    have upper := log_magnitude_lt nonzero finite
    have lower := le_log_magnitude nonzero
    rw [← decade_eq_log nonzero] at upper lower
    omega
  obtain ⟨short, writes⟩ := writesSize_exponential three significantDigits small
  rw [textEq]
  exact ⟨short, _, writes, close⟩

end PocketCalc.Number
