import PocketCalc.Proofs.Evaluation.ReadBack
import PocketCalc.Proofs.Evaluation.Transparency
import PocketCalc.Proofs.Yard.Operand

/-!
Contract: the value of a text that is put together from texts with values.

Owns:
- `spellings`, the texts that stand for a function or an operator in an expression;
- the tokens of a text that an operator divides;
- `IsOperand`, texts that stand as one operand: numerals and groups;
- groups on their own, behind a function and on the two sides of an operator.

Does not own: texts around a group that are no operation on it; see `Evaluation/Transparency`.
-/

namespace PocketCalc

open PocketCalc.Lexeme PocketCalc.Stage

/-! ## Spellings -/

/-- The texts that stand for a function: its name and, for the square root, the root sign. -/
def NamedFunction.spellings : NamedFunction → List String
  | squareRoot => ["sqrt", "√"]
  | function => [function.name]

/-- The texts that stand for an operator: its symbol in ASCII and, for three of them, a sign of
their own. -/
def Operator.spellings : Operator → List String
  | add => ["+"]
  | subtract => ["-", "−"]
  | multiply => ["*", "×"]
  | divide => ["/", "÷"]
  | power => ["^"]

theorem Token.ofText_spelling_function {function : NamedFunction} {name : String}
    (spelled : name ∈ function.spellings) : ofText name = .ok [ofFunction function] := by
  revert name
  cases function <;> decide +kernel

/-- However an operator is written, it counts as one character that is a lexeme by itself. -/
theorem Operator.exists_lone_of_mem_spellings {operator : Operator} {symbol : String}
    (spelled : symbol ∈ operator.spellings) :
    ∃ c, DisplaySymbol.expand symbol.toList = [c] ∧ operator.symbol = String.singleton c ∧
      Lone c := by
  have expanded : ∀ symbol ∈ operator.spellings,
      DisplaySymbol.expand symbol.toList = operator.symbol.toList := by
    cases operator <;> decide
  have lone : ∃ c, operator.symbol.toList = [c] ∧ operator.symbol = String.singleton c ∧
      Boundary c ∧ Shape.start? c = some .single := by
    simp only [boundary_iff]
    cases operator with
    | add => exact ⟨'+', by decide⟩
    | subtract => exact ⟨'-', by decide⟩
    | multiply => exact ⟨'*', by decide⟩
    | divide => exact ⟨'/', by decide⟩
    | power => exact ⟨'^', by decide⟩
  obtain ⟨c, charsEq, symbolEq, boundary, started⟩ := lone
  exact ⟨c, (expanded symbol spelled).trans charsEq, symbolEq, boundary, started⟩

/-- The tokens of two texts with an operator between them. -/
theorem Token.ofText_append_of_operator {operator : Operator} {symbol before after : String}
    {left right : List Token} (spelled : symbol ∈ operator.spellings)
    (leftLexed : ofText before = .ok left) (rightLexed : ofText after = .ok right) :
    ofText (before ++ symbol ++ after) = .ok (left ++ ofOperator operator :: right) := by
  obtain ⟨c, expanded, symbolEq, lone⟩ := operator.exists_lone_of_mem_spellings spelled
  have operatorLexed : ofLexeme operator.symbol = .ok (ofOperator operator) := by
    cases operator <;> decide +kernel
  rw [ofText] at leftLexed rightLexed ⊢
  rw [split_append_of_expands expanded lone, ← symbolEq, List.mapM_append, leftLexed, ok_bind,
    List.mapM_cons, operatorLexed, ok_bind, rightLexed]
  rfl

/-! ## Operands -/

namespace Evaluation

/-- Whether a text stands as one operand with a value. -/
def IsOperand (text : String) (value : Float) : Prop :=
  ∃ tokens ordered, Token.ofText text = .ok tokens ∧ Operand tokens ordered value

theorem isOperand_numeral {text : List Char} {value : Float} (numeral : IsNumeral text)
    (read : Number.read? (String.ofList text) = some value) :
    IsOperand (String.ofList text) value :=
  ⟨_, _, Token.ofText_of_isNumeral numeral read, operand_number _ value⟩

/-- A text with a value stands as an operand once it is in parentheses. -/
theorem isOperand_group {inner : String} {value : Float} (valued : ofText inner = .ok value) :
    IsOperand ("(" ++ inner ++ ")") value := by
  obtain ⟨tokens, ordered, lexed, reordered, orderedValued⟩ := ofText_eq_ok_iff.mp valued
  have nothing : Token.ofText "" = .ok [] := by decide
  have grouped : Token.ofText ("" ++ "(" ++ inner ++ ")" ++ "") = _ := Token.ofText_group lexed
  rw [nothing, ok_bind, ok_bind, String.empty_append, String.append_empty] at grouped
  refine ⟨_, ordered, grouped, ?_⟩
  rw [List.nil_append, List.append_nil]
  exact operand_group reordered orderedValued

end Evaluation

open Evaluation

/-- An operand has its value as an expression too. -/
theorem evaluate_of_isOperand {text : String} {value : Float} (operand : IsOperand text value) :
    evaluate (.text text) = .ok value := by
  obtain ⟨tokens, ordered, lexed, operand⟩ := operand
  have reordered := PostOrder.ofTokens_operand operand
  have present : tokens ≠ [] := by
    rintro rfl
    cases reordered
    cases operand.valued
  exact evaluate_of_stages lexed present reordered operand.valued

theorem evaluate_call {function : NamedFunction} {name inner : String} {argument : Float}
    (spelled : name ∈ function.spellings) (valued : ofText inner = .ok argument) :
    evaluate (.text (name ++ "(" ++ inner ++ ")")) = .ok (function.apply argument) := by
  obtain ⟨tokens, ordered, lexed, reordered, orderedValued⟩ := ofText_eq_ok_iff.mp valued
  have nothing : Token.ofText "" = .ok [] := by decide
  have grouped : Token.ofText (name ++ "(" ++ inner ++ ")" ++ "") = _ :=
    Token.ofText_group lexed
  rw [nothing, Token.ofText_spelling_function spelled, ok_bind, ok_bind, String.append_empty,
    List.append_nil, List.singleton_append] at grouped
  exact evaluate_of_stages grouped (List.cons_ne_nil _ _)
    (PostOrder.ofTokens_apply function reordered) (PostOrder.value_apply function orderedValued)

/-- An operator between two operands has the value of the operation, the earlier one on its left. -/
theorem evaluate_combine {operator : Operator} {symbol left right : String}
    {leftValue rightValue : Float} (spelled : symbol ∈ operator.spellings)
    (leftOperand : IsOperand left leftValue) (rightOperand : IsOperand right rightValue) :
    evaluate (.text (left ++ symbol ++ right)) = .ok (operator.apply leftValue rightValue) := by
  obtain ⟨leftTokens, leftOrdered, leftLexed, leftOperand⟩ := leftOperand
  obtain ⟨rightTokens, rightOrdered, rightLexed, rightOperand⟩ := rightOperand
  exact evaluate_of_stages (Token.ofText_append_of_operator spelled leftLexed rightLexed)
    (List.append_ne_nil_of_right_ne_nil _ (List.cons_ne_nil _ _))
    (PostOrder.ofTokens_combine operator leftOperand rightOperand)
    (PostOrder.value_combine operator leftOperand.valued rightOperand.valued)

/-- Evaluation is compositional on every text that has a value, also on one that violates the infix
grammar: in parentheses it keeps its value, a function of the group has the function's value, and an
operator between two groups has the operator's value. -/
theorem groups_compose {left right : String} {leftValue rightValue : Float}
    (leftPresent : left ≠ "") (rightPresent : right ≠ "")
    (leftValued : evaluate (.text left) = .ok leftValue)
    (rightValued : evaluate (.text right) = .ok rightValue) :
    evaluate (.text ("(" ++ left ++ ")")) = .ok leftValue ∧
      (∀ function : NamedFunction, ∀ name ∈ function.spellings,
        evaluate (.text (name ++ "(" ++ left ++ ")")) = .ok (function.apply leftValue)) ∧
      ∀ operator : Operator, ∀ symbol ∈ operator.spellings,
        evaluate (.text ("(" ++ left ++ ")" ++ symbol ++ "(" ++ right ++ ")")) =
          .ok (operator.apply leftValue rightValue) := by
  rw [evaluate_eq_ok_iff, result_run_text leftPresent] at leftValued
  rw [evaluate_eq_ok_iff, result_run_text rightPresent] at rightValued
  have leftOperand := isOperand_group leftValued
  have rightOperand := isOperand_group rightValued
  refine ⟨evaluate_of_isOperand leftOperand, ?_, ?_⟩
  · intro function name spelled
    exact evaluate_call spelled leftValued
  · intro operator symbol spelled
    have combined := evaluate_combine spelled leftOperand rightOperand
    simpa only [String.append_assoc] using combined

/-- A difference with its sign behind both numbers is a dividend, a root's argument and a group. -/
theorem misordered_difference_composes :
    "1 2 −" ≠ "" ∧ "3." ≠ "" ∧
      evaluate (.text "1 2 −") = .ok (Number.ofMagnitude true 0x3ff0000000000000) ∧
      evaluate (.text "3.") = .ok (Number.ofMagnitude false 0x4008000000000000) ∧
      "√" ∈ NamedFunction.squareRoot.spellings ∧ "÷" ∈ Operator.divide.spellings ∧
      evaluate (.text ("√" ++ "(" ++ "1 2 −" ++ ")")) =
        .ok (Float.sqrt (Number.ofMagnitude true 0x3ff0000000000000)) ∧
      evaluate (.text ("(" ++ "1 2 −" ++ ")" ++ "÷" ++ "(" ++ "3." ++ ")")) =
        .ok (Number.ofMagnitude true 0x3ff0000000000000 /
          Number.ofMagnitude false 0x4008000000000000) := by
  have leftValued :
      evaluate (.text "1 2 −") = .ok (Number.ofMagnitude true 0x3ff0000000000000) := by
    decide +kernel
  have rightValued :
      evaluate (.text "3.") = .ok (Number.ofMagnitude false 0x4008000000000000) := by
    decide +kernel
  have rootSpelled : "√" ∈ NamedFunction.squareRoot.spellings := by decide
  have divisionSpelled : "÷" ∈ Operator.divide.spellings := by decide
  obtain ⟨-, called, combined⟩ :=
    groups_compose (by decide) (by decide) leftValued rightValued
  exact ⟨by decide, by decide, leftValued, rightValued, rootSpelled, divisionSpelled,
    called .squareRoot "√" rootSpelled, combined .divide "÷" divisionSpelled⟩

end PocketCalc
