import PocketCalc.Proofs.PostOrder.Machine
import PocketCalc.Proofs.Yard.Frame

/-!
Contract: tokens that stand as one operand.

Owns:
- `Operand`, tokens that come out in an order of their own whatever waits, and the value of that
  order;
- a number and a group as operands;
- the order and the value of a group behind a function, and of two operands around an operator;
- a number in front of other tokens, of which only the value counts.

Does not own: the texts of operands; see `Evaluation/Composition`.

A function that waits takes along the group that follows it, so an operand is read over stacks with
no function on top.
-/

namespace PocketCalc

open PocketCalc.Stage

/-- Tokens whose own order is put out behind any output, with nothing done to the tokens that wait.
The latest of these must not be a function. -/
structure Operand (tokens ordered : List Token) (value : Float) : Prop where
  read : ∀ (output : Array Token) (stack : List Token),
    (∀ top ∈ stack.head?, top.kind ≠ .function) →
      tokens.foldlM Yard.step ⟨output, stack⟩ = .ok ⟨output ++ ordered, stack⟩
  valued : PostOrder.value ordered = .ok value

theorem operand_number (text : String) (value : Float) :
    Operand [Token.ofNumber text value] [Token.ofNumber text value] value := by
  constructor
  · intro output stack _
    rw [List.foldlM_cons, Yard.step_number _ rfl]
    simp
  · rfl

theorem operand_group {tokens ordered : List Token} {value : Float}
    (reordered : PostOrder.ofTokens tokens = .ok ordered)
    (valued : PostOrder.value ordered = .ok value) :
    Operand (Token.opening :: tokens ++ [Token.closing]) ordered value := by
  refine ⟨fun output stack noFunction => ?_, valued⟩
  rw [Yard.foldlM_step_group reordered, Yard.takeFunction_of_kind_ne noFunction]

/-! ## Orders -/

namespace PostOrder

/-- A number in front of other tokens comes out in front of their order. -/
theorem ofTokens_number_cons {token : Token} (isNumber : token.kind = .number)
    (rest : List Token) : ofTokens (token :: rest) = (ofTokens rest).map (token :: ·) := by
  have started : Yard.step Yard.empty token = .ok (Yard.after #[token] Yard.empty) :=
    Yard.step_number _ isNumber
  rw [ofTokens, ofTokens, List.foldlM_cons, started, ok_bind, Yard.foldlM_step_after]
  cases rest.foldlM Yard.step Yard.empty with
  | error cause => rfl
  | ok yard =>
      rw [ok_bind]
      exact Yard.finish_after #[token] yard

/-- An operand on its own comes out in its own order. -/
theorem ofTokens_operand {tokens ordered : List Token} {value : Float}
    (operand : Operand tokens ordered value) : ofTokens tokens = .ok ordered := by
  have read := operand.read #[] [] (by simp)
  rw [ofTokens, Yard.empty, read, ok_bind, Yard.finish_eq_ok_iff]
  simp

/-- A function follows the group behind it. -/
theorem ofTokens_apply {tokens ordered : List Token} (function : NamedFunction)
    (reordered : ofTokens tokens = .ok ordered) :
    ofTokens (Token.ofFunction function :: (Token.opening :: tokens ++ [Token.closing])) =
      .ok (ordered ++ [Token.ofFunction function]) := by
  rw [ofTokens, List.foldlM_cons, Yard.step_function _ (Token.kind_ofFunction function), ok_bind,
    Yard.foldlM_step_group reordered, Yard.takeFunction, if_pos (Token.kind_ofFunction function),
    ok_bind, Yard.finish_eq_ok_iff]
  simp [Yard.empty]

/-- An operator follows the operands on its two sides. -/
theorem ofTokens_combine {left right leftOrdered rightOrdered : List Token}
    {leftValue rightValue : Float} (operator : Operator)
    (leftOperand : Operand left leftOrdered leftValue)
    (rightOperand : Operand right rightOrdered rightValue) :
    ofTokens (left ++ Token.ofOperator operator :: right) =
      .ok (leftOrdered ++ rightOrdered ++ [Token.ofOperator operator]) := by
  have leftRead := leftOperand.read #[] [] (by simp)
  -- Nothing waits before the operator, so it only joins the stack.
  have waits (output : Array Token) : Yard.step ⟨output, []⟩ (Token.ofOperator operator) =
      .ok ⟨output, [Token.ofOperator operator]⟩ := by
    rw [Yard.step_operator _ (Token.kind_ofOperator operator), Yard.takeOperator_eq_ok_iff]
    exact ⟨_, [], [], Token.precedence_ofOperator operator, rfl, by simp⟩
  have rightRead (output : Array Token) :=
    rightOperand.read output [Token.ofOperator operator] (by simp)
  rw [ofTokens, List.foldlM_append, Yard.empty, leftRead, ok_bind, List.foldlM_cons, waits, ok_bind,
    rightRead, ok_bind, Yard.finish_eq_ok_iff]
  simp

/-! ## Values -/

/-- Of a number in front of other tokens only the value counts. -/
theorem value_number_cons_congr {left right : Token} (leftNumber : left.kind = .number)
    (rightNumber : right.kind = .number) (same : left.value = right.value) (rest : List Token) :
    value (left :: rest) = value (right :: rest) := by
  have samePush : push [] left = push [] right := by
    rw [push, push, leftNumber, rightNumber, same]
  rw [value, value, List.foldlM_cons, List.foldlM_cons, samePush]

theorem value_apply {ordered : List Token} {argument : Float} (function : NamedFunction)
    (valued : value ordered = .ok argument) :
    value (ordered ++ [Token.ofFunction function]) = .ok (function.apply argument) := by
  rw [value_eq_ok_iff, List.foldlM_append, foldlM_push_of_value valued, ok_bind,
    List.foldlM_cons, Token.ofFunction, push_function]
  rfl

/-- Of two values the earlier one stands on the left of the operator. -/
theorem value_combine {leftOrdered rightOrdered : List Token} {left right : Float}
    (operator : Operator) (leftValued : value leftOrdered = .ok left)
    (rightValued : value rightOrdered = .ok right) :
    value (leftOrdered ++ rightOrdered ++ [Token.ofOperator operator]) =
      .ok (operator.apply left right) := by
  rw [value_eq_ok_iff, List.foldlM_append, List.foldlM_append, foldlM_push_of_value leftValued,
    ok_bind, foldlM_push_of_value rightValued, ok_bind, List.foldlM_cons, Token.ofOperator,
    push_operator]
  rfl

end PostOrder

end PocketCalc
