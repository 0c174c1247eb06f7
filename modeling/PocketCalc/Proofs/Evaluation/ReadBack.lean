import PocketCalc.Calculator
import PocketCalc.Number.Binary.Fields
import PocketCalc.Proofs.Evaluation.Entry
import PocketCalc.Proofs.Number.Positional
import PocketCalc.Proofs.Token.Known

/-!
Contract: the text of a result as an expression.

Owns:
- a numeral on its own is one lexeme and has the value that it is read as;
- a numeral behind a minus has no value, since a minus takes two operands;
- the text of a finite double is the double again unless its sign bit is set.

Does not own: the digits of the text; see `Number/Positional`.
-/

namespace PocketCalc

open PocketCalc.Lexeme PocketCalc.Stage

/-! ## Numerals as expressions -/

theorem Lexeme.expand_of_isNumeral {text : List Char} (numeral : IsNumeral text) :
    DisplaySymbol.expand text = text := by
  refine expand_of_ascii fun c member => ?_
  have := (Number.Numeral.isPlain_of_isNumeral numeral c member).toNat_le
  omega

theorem Lexeme.split_of_isNumeral {text : List Char} (numeral : IsNumeral text) :
    split (String.ofList text) = [String.ofList text] := by
  have expanded := expand_of_isNumeral numeral
  rcases numeral with digits | pointed
  · exact split_of_spells expanded digits
  · exact split_of_spells expanded pointed

theorem Lexeme.split_minus (expression : String) :
    split ("-" ++ expression) = "-" :: split expression := by
  have minusText : "-" = String.singleton '-' := by decide
  rw [minusText]
  exact split_singleton_append (by decide) (by decide) expression

section

variable {text : List Char} {value : Float} (numeral : IsNumeral text)
  (read : Number.read? (String.ofList text) = some value)

include numeral read

theorem Token.ofText_of_isNumeral :
    ofText (String.ofList text) = .ok [ofNumber (String.ofList text) value] := by
  rw [ofText, split_of_isNumeral numeral, List.mapM_cons, ofLexeme_of_isNumeral numeral read]
  rfl

theorem Token.ofText_minus_of_isNumeral :
    ofText ("-" ++ String.ofList text) =
      .ok [ofOperator .subtract, ofNumber (String.ofList text) value] := by
  have minusLexed : ofLexeme "-" = .ok (ofOperator .subtract) := by decide +kernel
  rw [ofText, split_minus, split_of_isNumeral numeral, List.mapM_cons, minusLexed, ok_bind,
    List.mapM_cons, ofLexeme_of_isNumeral numeral read]
  rfl

/-- A numeral has the value that it is read as. -/
theorem evaluate_of_isNumeral : evaluate (.text (String.ofList text)) = .ok value :=
  evaluate_of_stages (Token.ofText_of_isNumeral numeral read) (List.cons_ne_nil _ _) rfl rfl

/-- A minus in front of a numeral lacks an operand. -/
theorem run_minus_of_isNumeral :
    (Evaluation.run (.text ("-" ++ String.ofList text))).result =
      .error (.missingOperands "-") := by
  have lexed := Token.ofText_minus_of_isNumeral numeral read
  rw [Evaluation.result_run_text (Evaluation.ne_empty_of_ofText_eq lexed), Evaluation.ofText_eq,
    lexed]
  rfl

end

/-! ## Results as expressions -/

theorem Calculator.calculate_expression {calculator : Calculator} {value : Float}
    (valued : evaluate (.text calculator.expression) = .ok value) :
    calculator.calculate.1.expression = Number.positionalText value := by
  rw [calculate, evaluate_eq_ok_iff.mp valued]

/-- The text of a finite double is an expression for the same double, bit for bit, and stays the
expression when it is calculated. Only a double whose sign bit is set has a text without a value. -/
theorem positionalText_reads_back {value : Float} (finite : Number.isFinite value = true) :
    (Number.isNegative value = false →
        split (Number.positionalText value) = [Number.positionalText value] ∧
          evaluate (.text (Number.positionalText value)) = .ok value ∧
          ∀ calculator : Calculator, calculator.expression = Number.positionalText value →
            calculator.calculate.1.expression = calculator.expression) ∧
      (Number.isNegative value = true →
        evaluate (.text (Number.positionalText value)) = .error ⟨⟩) := by
  have numeral := (Number.shortestDecimal (Number.magnitudeWord value)).isNumeral_positional
  have read := Number.read?_positional_shortestDecimal finite
  have textEq := Number.positionalText_of_finite finite
  constructor
  · intro positive
    have restored := Number.ofMagnitude_magnitudeWord value
    rw [positive] at restored textEq
    rw [restored] at read
    have plainText : Number.positionalText value =
        String.ofList (Number.shortestDecimal (Number.magnitudeWord value)).positional := textEq
    have valued : evaluate (.text (Number.positionalText value)) = .ok value := by
      rw [plainText]
      exact evaluate_of_isNumeral numeral read
    refine ⟨?_, valued, fun calculator same => ?_⟩
    · rw [plainText]
      exact split_of_isNumeral numeral
    · rw [← same] at valued
      rw [Calculator.calculate_expression valued, same]
  · intro negative
    have signedText : Number.positionalText value =
        "-" ++ String.ofList (Number.shortestDecimal (Number.magnitudeWord value)).positional := by
      rw [textEq, negative, Number.signText, if_pos rfl, String.ofList_append]
    rw [signedText, evaluate_eq_error_iff]
    exact ⟨_, run_minus_of_isNumeral numeral read⟩

/-- The least subnormal double reads back, minus zero does not. -/
theorem least_double_reads_back_and_minus_zero_does_not :
    let least := Number.ofMagnitude false 1
    let minusZero := Number.ofMagnitude true 0
    Number.isFinite least = true ∧ Number.isFinite minusZero = true ∧
      Number.positionalText minusZero = "-0" ∧
      evaluate (.text (Number.positionalText least)) = .ok least ∧
      evaluate (.text (Number.positionalText minusZero)) = .error ⟨⟩ := by
  intro least minusZero
  have leastFinite : Number.isFinite least = true := by decide +kernel
  have minusZeroFinite : Number.isFinite minusZero = true := by decide +kernel
  have leastPositive : Number.isNegative least = false := by decide +kernel
  have minusZeroNegative : Number.isNegative minusZero = true := by decide +kernel
  exact ⟨leastFinite, minusZeroFinite, by decide +kernel,
    ((positionalText_reads_back leastFinite).1 leastPositive).2.1,
    (positionalText_reads_back minusZeroFinite).2 minusZeroNegative⟩

end PocketCalc
