import PocketCalc.PostOrder.Value

/-!
Contract: operations as trees, and the sequences of tokens that spell them in post-order.

Owns:
- the tree type, in which every function and every operator is a known one;
- the post-order of a tree and its value from the leaves up.

Does not own: infix notation; see `Expr`.

`foldlM_push_postOrder` says that a machine which reads a tree's post-order puts the tree's value
on its stack and leaves everything below alone, whatever is read afterwards.
-/

namespace PocketCalc

/-- A number, a function of one tree, or an operator between two. A token of a function or an
operator may carry a value that nothing reads; the tree keeps it. -/
inductive Tree where
  | number (text : String) (value : Option Float)
  | apply (function : NamedFunction) (carried : Option Float) (argument : Tree)
  | combine (operator : Operator) (carried : Option Float) (left right : Tree)
deriving DecidableEq

namespace Tree

/-- The tokens of a tree, each operation after its operands. -/
def postOrder : Tree → List Token
  | number text value => [⟨.number, text, value⟩]
  | apply function carried argument =>
      argument.postOrder ++ [⟨.function, function.name, carried⟩]
  | combine operator carried left right =>
      left.postOrder ++ right.postOrder ++ [⟨.operator, operator.symbol, carried⟩]

/-- The value of a tree. A number without a value counts as no number. -/
def value : Tree → Float
  | number _ value => value.getD Number.notANumber
  | apply function _ argument => function.apply argument.value
  | combine operator _ left right => operator.apply left.value right.value

end Tree

namespace PostOrder

theorem push_number (values : List Float) (text : String) (value : Option Float) :
    push values ⟨.number, text, value⟩ = .ok (value.getD Number.notANumber :: values) :=
  rfl

theorem push_function (argument : Float) (rest : List Float) (function : NamedFunction)
    (carried : Option Float) :
    push (argument :: rest) ⟨.function, function.name, carried⟩ =
      .ok (function.apply argument :: rest) := by
  unfold push
  simp only [NamedFunction.ofName?_eq_some_iff.mpr (rfl : function.name = function.name)]

theorem push_operator (left right : Float) (rest : List Float) (operator : Operator)
    (carried : Option Float) :
    push (right :: left :: rest) ⟨.operator, operator.symbol, carried⟩ =
      .ok (operator.apply left right :: rest) := by
  unfold push
  simp only [Operator.ofSymbol?_eq_some_iff.mpr (rfl : operator.symbol = operator.symbol)]

/-- A tree's post-order leaves the tree's value on top of the stack. -/
theorem foldlM_push_postOrder (tree : Tree) (values : List Float) (rest : List Token) :
    (tree.postOrder ++ rest).foldlM push values = rest.foldlM push (tree.value :: values) := by
  induction tree generalizing values rest with
  | number text value => rfl
  | apply function carried argument inductionHypothesis =>
      rw [Tree.postOrder, List.append_assoc, inductionHypothesis, List.singleton_append,
        List.foldlM_cons, push_function]
      rfl
  | combine operator carried left right leftHypothesis rightHypothesis =>
      rw [Tree.postOrder, List.append_assoc, List.append_assoc, leftHypothesis, rightHypothesis,
        List.singleton_append, List.foldlM_cons, push_operator]
      rfl

end PostOrder

end PocketCalc
