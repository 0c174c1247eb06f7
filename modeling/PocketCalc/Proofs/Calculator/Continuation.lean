import PocketCalc.Proofs.Calculator.Typing
import PocketCalc.Proofs.Evaluation.Composition

/-!
Contract: what a calculator computes when an operator and a number follow a result.

Owns:
- `Number.IsPositive`, the finite results that the calculation goes on with;
- the text of a positive double as an operand, and that of a double with a minus as tokens;
- the expression that entries leave behind a result;
- the calculation that goes on with a result, which fails unless the result is positive.

Does not own: results that are no finite number; their texts are no expressions.

A result goes on as a text. The text of a positive double is one operand, as a group of the
expression before it is. A minus in front of a number is an operator without a left operand, and a
lone zero is taken for the idle one and replaced, so both leave one number too few.
-/

namespace PocketCalc

open PocketCalc.Lexeme

/-! ## Results as operands -/

/-- Whether a finite double is greater than zero. -/
def Number.IsPositive (value : Float) : Prop := isNegative value = false ∧ magnitudeWord value ≠ 0

theorem Evaluation.isOperand_positionalText {value : Float}
    (finite : Number.isFinite value = true) (notNegative : Number.isNegative value = false) :
    IsOperand (Number.positionalText value) value := by
  obtain ⟨textEq, read⟩ := Number.positionalText_of_not_negative finite notNegative
  rw [textEq] at read ⊢
  exact isOperand_numeral (Number.Decimal.isNumeral_positional _) read

/-- The text of a finite double with a minus is an operator and a number. -/
theorem Token.exists_ofText_positionalText_of_negative {value : Float}
    (finite : Number.isFinite value = true) (negative : Number.isNegative value = true) :
    ∃ text magnitude, ofText (Number.positionalText value) =
      .ok [ofOperator .subtract, ofNumber text magnitude] := by
  rw [Number.positionalText_of_negative finite negative]
  exact ⟨_, _, ofText_minus_of_isNumeral (Number.Decimal.isNumeral_positional _)
    (Number.read?_positional_shortestDecimal finite)⟩

theorem Entry.operatorText_mem_spellings (operator : Operator) :
    operatorText operator ∈ operator.spellings := by
  cases operator <;> decide

namespace Calculator

open PocketCalc.Evaluation

variable {keys : List Key} {operator : Operator} {entries : List Entry} {value : Float}

/-! ## The expression behind a result -/

theorem pressAll_equals
    (valued : evaluate (.text (new.pressAll keys).expression) = .ok value) :
    new.pressAll (keys ++ [.equals]) =
      ⟨Number.positionalText value, Display.ofText (Number.positionalText value)⟩ := by
  rw [pressAll_append]
  exact press_equals_of_value valued

/-- Entries are added to the end of a result, unless it is zero. -/
theorem expression_pressAll_result
    (valued : evaluate (.text (new.pressAll keys).expression) = .ok value)
    (notZero : Number.positionalText value ≠ "0") (entries : List Entry) :
    (new.pressAll (keys ++ [.equals] ++ entries.map Key.entry)).expression =
      Number.positionalText value ++ Entry.typed entries := by
  have expressionEq : (new.pressAll (keys ++ [.equals])).expression =
      Number.positionalText value := by
    rw [pressAll_equals valued]
  rw [expression_pressAll_entries (by rw [expressionEq]; exact Number.positionalText_ne_empty value)
    (by rw [expressionEq]; exact notZero), expressionEq]

/-- An operator replaces a result of zero. -/
theorem expression_pressAll_zero_result
    (valued : evaluate (.text (new.pressAll keys).expression) = .ok value)
    (isZero : Number.positionalText value = "0") (operator : Operator) (entries : List Entry) :
    (new.pressAll (keys ++ [.equals] ++ (.binary operator :: entries).map Key.entry)).expression =
      Entry.operatorText operator ++ Entry.typed entries := by
  have idle : Idle (new.pressAll (keys ++ [.equals])) := by
    rw [pressAll_equals valued, isZero]
    exact ⟨by decide, Or.inr rfl⟩
  have notPoint : Entry.operatorText operator ≠ "." := by cases operator <;> decide
  have expressionEq : (new.pressAll (keys ++ [.equals] ++ [.entry (.binary operator)])).expression =
      Entry.operatorText operator := by
    rw [pressAll_append]
    exact congrArg Calculator.expression (idle.append notPoint)
  have present : Entry.operatorText operator ≠ "" := by cases operator <;> decide
  have notZero : Entry.operatorText operator ≠ "0" := by cases operator <;> decide
  have further := expression_pressAll_entries (by rw [expressionEq]; exact present)
    (by rw [expressionEq]; exact notZero) entries
  rw [expressionEq, List.append_assoc, List.singleton_append] at further
  exact further

/-! ## Its value -/

/-- A calculation that goes on with a positive result has the value that the operator has of the
group of the expression before it. -/
theorem evaluate_pressAll_positive_result {number : Float}
    (valued : evaluate (.text (new.pressAll keys).expression) = .ok value)
    (finite : Number.isFinite value = true) (positive : Number.IsPositive value)
    (operator : Operator) (operand : IsOperand (Entry.typed entries) number) :
    evaluate (.text (new.pressAll
      (keys ++ [.equals] ++ (.binary operator :: entries).map Key.entry)).expression) =
        .ok (operator.apply value number) := by
  have resultOperand := isOperand_positionalText finite positive.1
  have notZero : Number.positionalText value ≠ "0" := fun isZero =>
    positive.2 ((Number.positionalText_eq_zero_iff finite).mp isZero).2
  rw [expression_pressAll_result valued notZero, Entry.typed, ← String.append_assoc]
  exact evaluate_combine (Entry.operatorText_mem_spellings operator) resultOperand operand

/-- A calculation that goes on with another finite result fails: the tokens have as many operators
as numbers. -/
theorem evaluate_pressAll_other_result {text : String} {number : Float}
    (valued : evaluate (.text (new.pressAll keys).expression) = .ok value)
    (finite : Number.isFinite value = true) (notPositive : ¬Number.IsPositive value)
    (operator : Operator)
    (lexed : Token.ofText (Entry.typed entries) = .ok [.ofNumber text number]) :
    evaluate (.text (new.pressAll
      (keys ++ [.equals] ++ (.binary operator :: entries).map Key.entry)).expression) =
        .error ⟨⟩ := by
  have spelled := Entry.operatorText_mem_spellings operator
  cases negative : Number.isNegative value with
  | false =>
      have zero : Number.magnitudeWord value = 0 := by
        by_contra notZero
        exact notPositive ⟨negative, notZero⟩
      have isZero := (Number.positionalText_eq_zero_iff finite).mpr ⟨negative, zero⟩
      have nothing : Token.ofText "" = .ok [] := by decide
      have allLexed := Token.ofText_append_of_operator spelled nothing lexed
      rw [String.empty_append] at allLexed
      rw [expression_pressAll_zero_result valued isZero]
      exact evaluate_of_not_balanced allLexed (ne_empty_of_ofText_eq allLexed)
        (by simp [Token.Balanced, Token.ofOperator, Token.ofNumber])
  | true =>
      obtain ⟨digits, magnitude, resultLexed⟩ :=
        Token.exists_ofText_positionalText_of_negative finite negative
      have notZero : Number.positionalText value ≠ "0" := by
        intro isZero
        rw [((Number.positionalText_eq_zero_iff finite).mp isZero).1] at negative
        cases negative
      have allLexed := Token.ofText_append_of_operator spelled resultLexed lexed
      rw [expression_pressAll_result valued notZero, Entry.typed, ← String.append_assoc]
      exact evaluate_of_not_balanced allLexed (ne_empty_of_ofText_eq allLexed)
        (by simp [Token.Balanced, Token.ofOperator, Token.ofNumber])

/-- A positive finite result can be continued: a calculation with an operator and a number behind it
has the value of the text in which the group of the expression before stands for the result, and
leaves this value. Behind every other finite result an operator lacks a number, so that the
calculation fails. -/
theorem positive_results_continue (present : (new.pressAll keys).expression ≠ "")
    (valued : evaluate (.text (new.pressAll keys).expression) = .ok value)
    (finite : Number.isFinite value = true) (operator : Operator)
    (numeral : IsNumeral (Entry.typed entries).toList) :
    let group := "(" ++ (new.pressAll keys).expression ++ ")"
    let entered :=
      new.pressAll (keys ++ [.equals] ++ (.binary operator :: entries).map Key.entry)
    (Number.IsPositive value →
        ∃ result, evaluate (.text (group ++ Entry.operatorText operator ++ Entry.typed entries)) =
            .ok result ∧
          evaluate (.text entered.expression) = .ok result ∧
          (entered.press .equals).1.expression = Number.positionalText result) ∧
      (¬Number.IsPositive value →
        evaluate (.text entered.expression) = .error ⟨⟩ ∧
          (entered.press .equals).1 = ⟨"", errorText⟩) := by
  intro group entered
  obtain ⟨number, read⟩ := exists_read?_of_isNumeral numeral
  constructor
  · intro positive
    have operand := isOperand_numeral numeral read
    have inner := evaluate_eq_ok_iff.mp valued
    rw [result_run_text present] at inner
    rw [String.ofList_toList] at operand
    have grouped := evaluate_combine (Entry.operatorText_mem_spellings operator)
      (isOperand_group inner) operand
    have continued := evaluate_pressAll_positive_result valued finite positive operator operand
    refine ⟨operator.apply value number, grouped, continued, ?_⟩
    rw [press_equals_of_value continued]
  · intro notPositive
    have lexed := Token.ofText_of_isNumeral numeral read
    rw [String.ofList_toList] at lexed
    have refused := evaluate_pressAll_other_result valued finite notPositive operator lexed
    exact ⟨refused, press_equals_of_error refused⟩

/-- The sum of one and two is raised to the power of a three that ends in a point. -/
theorem three_from_a_sum_is_cubed :
    let keys := [Key.entry (.digit 1), .entry (.binary .add), .entry (.digit 2)]
    let entries := [Entry.digit 3, .point]
    let three := Number.ofMagnitude false 0x4008000000000000
    (new.pressAll keys).expression ≠ "" ∧
      evaluate (.text (new.pressAll keys).expression) = .ok three ∧
      Number.isFinite three = true ∧ IsNumeral (Entry.typed entries).toList ∧
      Number.IsPositive three ∧
      ∃ result, evaluate (.text ("(" ++ (new.pressAll keys).expression ++ ")" ++
          Entry.operatorText .power ++ Entry.typed entries)) = .ok result ∧
        ((new.pressAll (keys ++ [.equals] ++ (.binary .power :: entries).map Key.entry)).press
          .equals).1.expression = Number.positionalText result := by
  intro keys entries three
  have present : (new.pressAll keys).expression ≠ "" := by decide
  have valued : evaluate (.text (new.pressAll keys).expression) = .ok three := by decide +kernel
  have finite : Number.isFinite three = true := by decide +kernel
  have numeral : IsNumeral (Entry.typed entries).toList :=
    Or.inr ⟨['3'], [], by decide, by decide, by simp [AllDigits], by simp [AllDigits]⟩
  have positive : Number.IsPositive three := by
    unfold Number.IsPositive
    decide +kernel
  obtain ⟨result, grouped, -, shown⟩ :=
    (positive_results_continue present valued finite .power numeral).1 positive
  exact ⟨present, valued, finite, numeral, positive, result, grouped, shown⟩

/-- Neither a negative result nor a zero can be continued: after 3 − 8 and after 8 − 8, two cannot be
added, though the sum with the group has a value. -/
theorem negative_and_zero_results_do_not_continue :
    let negative := [Key.entry (.digit 3), .entry (.binary .subtract), .entry (.digit 8)]
    let zero := [Key.entry (.digit 8), .entry (.binary .subtract), .entry (.digit 8)]
    let plusTwo := [Key.equals, .entry (.binary .add), .entry (.digit 2), .equals]
    evaluate (.text ("(" ++ (new.pressAll negative).expression ++ ")" ++ "+" ++ "2")) =
        .ok (Number.ofMagnitude true 0x4008000000000000) ∧
      new.pressAll (negative ++ plusTwo) = ⟨"", errorText⟩ ∧
      evaluate (.text ("(" ++ (new.pressAll zero).expression ++ ")" ++ "+" ++ "2")) =
        .ok (Number.ofMagnitude false 0x4000000000000000) ∧
      new.pressAll (zero ++ plusTwo) = ⟨"", errorText⟩ ∧
      ¬∀ (keys : List Key) (value : Float) (operator : Operator) (entries : List Entry),
        (new.pressAll keys).expression ≠ "" →
          evaluate (.text (new.pressAll keys).expression) = .ok value →
          Number.isFinite value = true → IsNumeral (Entry.typed entries).toList →
          ∃ result, evaluate (.text ("(" ++ (new.pressAll keys).expression ++ ")" ++
              Entry.operatorText operator ++ Entry.typed entries)) = .ok result ∧
            (new.pressAll (keys ++ [.equals] ++ (.binary operator :: entries).map Key.entry ++
              [.equals])).expression = Number.positionalText result := by
  intro negative zero plusTwo
  have negativeFails : new.pressAll (negative ++ plusTwo) = ⟨"", errorText⟩ := by decide +kernel
  refine ⟨by decide +kernel, negativeFails, by decide +kernel, by decide +kernel, ?_⟩
  intro continues
  have numeral : IsNumeral (Entry.typed [.digit 2]).toList := by
    have typedEq : (Entry.typed [.digit 2]).toList = ['2'] := by decide
    rw [typedEq]
    exact Or.inl ⟨by decide, by simp [AllDigits]⟩
  obtain ⟨result, -, shown⟩ := continues negative (Number.ofMagnitude true 0x4014000000000000) .add
    [.digit 2] (by decide) (by decide +kernel) (by decide +kernel) numeral
  have failed : (new.pressAll (negative ++ plusTwo)).expression = Number.positionalText result :=
    shown
  rw [negativeFails] at failed
  exact Number.positionalText_ne_empty result failed.symm

end Calculator

end PocketCalc
