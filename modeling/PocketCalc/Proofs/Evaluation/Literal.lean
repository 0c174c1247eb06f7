import PocketCalc.Proofs.Evaluation.ReadBack
import PocketCalc.Proofs.Number.Comparison
import PocketCalc.Proofs.Number.Rounded

/-!
Contract: the value of a number literal, at every length.

Owns:
- the relation between a literal and the number that it denotes;
- a literal is one number token, whose value the literal has as an expression;
- that value is the number rounded to the nearest double, down to zero and up to infinity;
- literals of the same number have the same bits, and a greater number has no smaller double.

Does not own: the texts that results are written as; see `Number/Notation`.
-/

namespace PocketCalc

open PocketCalc.Lexeme PocketCalc.Number

/-- Number literals and what they denote: digits, or digits before a point and any digits behind
it, none included. -/
inductive Literal : List Char → ℚ → Prop
  | whole {whole : List Char} (present : whole ≠ []) (wholeDigits : AllDigits whole) :
      Literal whole (Nat.ofDigitChars 10 whole 0)
  | pointed {whole fraction : List Char} (present : whole ≠ []) (wholeDigits : AllDigits whole)
      (fractionDigits : AllDigits fraction) :
      Literal (whole ++ '.' :: fraction) (Nat.ofDigitChars 10 whole 0 + fractionValue fraction)

namespace Literal

variable {text : List Char} {number : ℚ}

theorem isNumeral (literal : Literal text number) : IsNumeral text := by
  cases literal with
  | whole present wholeDigits => exact Or.inl ⟨present, wholeDigits⟩
  | pointed present wholeDigits fractionDigits =>
      exact Or.inr ⟨_, _, rfl, present, wholeDigits, fractionDigits⟩

/-- A literal is read as the double nearest to a decimal, which has the literal's value. -/
theorem read? (literal : Literal text number) :
    ∃ decimal : Decimal, decimal.toRat = number ∧
      Number.read? (String.ofList text) = some (ofMagnitude false decimal.word) := by
  cases literal with
  | whole present wholeDigits =>
      refine ⟨Decimal.ofDigits text [], ?_, read?_digits present wholeDigits⟩
      rw [Decimal.toRat_ofDigits]
      simp [fractionValue]
  | @pointed whole fraction present wholeDigits fractionDigits =>
      exact ⟨Decimal.ofDigits whole fraction, Decimal.toRat_ofDigits whole fraction,
        read?_pointed present wholeDigits fractionDigits⟩

/-- The token and the value of a literal. -/
theorem evaluate (literal : Literal text number) :
    ∃ decimal : Decimal, decimal.toRat = number ∧
      Token.ofText (String.ofList text) =
        .ok [Token.ofNumber (String.ofList text) (ofMagnitude false decimal.word)] ∧
      PocketCalc.evaluate (.text (String.ofList text)) = .ok (ofMagnitude false decimal.word) := by
  obtain ⟨decimal, toRatEq, read⟩ := literal.read?
  exact ⟨decimal, toRatEq, Token.ofText_of_isNumeral literal.isNumeral read,
    evaluate_of_isNumeral literal.isNumeral read⟩

end Literal

/-- A double without a sign that is made of a word has that word only. -/
private theorem ofMagnitude_eq_iff {word other : Nat} (bound : word ≤ infinityWord)
    (otherBound : other ≤ infinityWord) :
    ofMagnitude false word = ofMagnitude false other ↔ word = other := by
  constructor
  · intro same
    have sameWord := congrArg magnitudeWord same
    rwa [magnitudeWord_ofMagnitude bound, magnitudeWord_ofMagnitude otherBound] at sameWord
  · exact congrArg (ofMagnitude false)

/-- A literal is one number token, and its value is the number it denotes, correctly rounded.

Rounding keeps the order of numbers, so that literals of one number have one value, bit for bit. -/
theorem literal_is_correctly_rounded {text : List Char} {number : ℚ}
    (literal : Literal text number) :
    ∃ value,
      Token.ofText (String.ofList text) = .ok [Token.ofNumber (String.ofList text) value] ∧
      evaluate (.text (String.ofList text)) = .ok value ∧
      RoundsTo number value ∧
      isNegative value = false ∧
      (value = ofMagnitude false 0 ↔ number ≤ underflowThreshold) ∧
      (value = ofMagnitude false infinityWord ↔ overflowThreshold ≤ number) ∧
      ∀ {otherText : List Char} {otherNumber : ℚ} {otherValue : Float},
        Literal otherText otherNumber →
          evaluate (.text (String.ofList otherText)) = .ok otherValue →
            (number = otherNumber → value.toBits = otherValue.toBits) ∧
              (number ≤ otherNumber → value ≤ otherValue) := by
  obtain ⟨decimal, rfl, lexed, valued⟩ := literal.evaluate
  have bound := decimal.word_le_infinityWord
  refine ⟨ofMagnitude false decimal.word, lexed, valued, decimal.roundsTo_ofMagnitude_word false,
    isNegative_ofMagnitude bound, ?_, ?_, ?_⟩
  · rw [ofMagnitude_eq_iff bound (Nat.zero_le _), Decimal.word_eq_zero_iff]
  · rw [ofMagnitude_eq_iff bound le_rfl, ← not_lt, ← Decimal.word_lt_infinityWord_iff, not_lt]
    exact ⟨ge_of_eq, bound.antisymm⟩
  · intro otherText otherNumber otherValue otherLiteral otherValued
    obtain ⟨other, rfl, -, otherEq⟩ := otherLiteral.evaluate
    rw [otherEq] at otherValued
    cases otherValued
    have otherBound := other.word_le_infinityWord
    constructor
    · intro same
      rw [Decimal.word_congr same]
    · intro le
      refine le_of_magnitudeWord_le (isNegative_ofMagnitude bound)
        (isNegative_ofMagnitude otherBound) ?_ ?_
      · rw [magnitudeWord_ofMagnitude otherBound]
        exact otherBound
      · rw [magnitudeWord_ofMagnitude bound, magnitudeWord_ofMagnitude otherBound]
        exact Decimal.word_mono le

/-- The least whole number halfway between two doubles has the even one as its value, whether the
literal has zeros around the number or not. -/
theorem halfway_literal_takes_the_even_double :
    let halfwayText := "9007199254740993".toList
    let paddedText := "09007199254740993.00".toList
    Literal halfwayText 9007199254740993 ∧ Literal paddedText 9007199254740993 ∧
      evaluate (.text (String.ofList halfwayText)) = .ok 9007199254740992 ∧
      ∃ value, evaluate (.text (String.ofList paddedText)) = .ok value ∧
        RoundsTo 9007199254740993 value ∧ value.toBits = (9007199254740992 : Float).toBits ∧
        value ≤ 9007199254740992 := by
  intro halfwayText paddedText
  have plain : Literal halfwayText 9007199254740993 := by
    have denotes := @Literal.whole halfwayText (by decide) (by decide)
    have numberEq : Nat.ofDigitChars 10 halfwayText 0 = 9007199254740993 := by decide
    rw [numberEq] at denotes
    exact_mod_cast denotes
  have padded : Literal paddedText 9007199254740993 := by
    have denotes := @Literal.pointed "09007199254740993".toList ['0', '0'] (by decide) (by decide)
      (by decide)
    have wholeEq : Nat.ofDigitChars 10 "09007199254740993".toList 0 = 9007199254740993 := by decide
    have fractionEq : Nat.ofDigitChars 10 ['0', '0'] 0 = 0 := by decide
    rw [wholeEq, fractionValue, fractionEq, Nat.cast_zero, zero_div, add_zero] at denotes
    exact_mod_cast denotes
  have halfwayValue : evaluate (.text (String.ofList halfwayText)) = .ok 9007199254740992 := by
    decide +kernel
  obtain ⟨value, -, valued, rounds, -, -, -, ordered⟩ := literal_is_correctly_rounded padded
  have compared := ordered plain halfwayValue
  exact ⟨plain, padded, halfwayValue, value, valued, rounds, compared.1 rfl, compared.2 le_rfl⟩

end PocketCalc
