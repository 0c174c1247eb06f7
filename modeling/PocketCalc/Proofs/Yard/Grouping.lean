import PocketCalc.Expr
import PocketCalc.Proofs.Evaluation.Entry
import PocketCalc.Proofs.PostOrder.Machine
import PocketCalc.Proofs.Yard.Frame

/-!
Contract: infix expressions in their written order come out as the operations that they stand for.

Owns:
- what the tokens of a well grouped expression leave in the output and on the stack, over any
  tokens that already wait;
- the value of the expression's post-order and of every text with the expression's tokens.

Does not own: token sequences that write no expression.

While an expression is read, the operations along its right edge wait: an operator until a looser
one or the end of the group arrives, a function without parentheses until the end of the group.
`settled` is the part of the post-order that is already out, `pending` the part that waits.
-/

namespace PocketCalc

open PocketCalc.Stage

namespace Expr

/-- The part of an expression's post-order that is in the output after its last token. -/
def settled : Expr → List Token
  | number text value => [⟨.number, text, value⟩]
  | group inner => inner.toTree.postOrder
  | call function argument => argument.toTree.postOrder ++ [Token.ofFunction function]
  | bare _ argument => argument.settled
  | binary _ left right => left.toTree.postOrder ++ right.settled

/-- The operations that wait after the last token of an expression, the latest first. -/
def pending : Expr → List Token
  | bare function argument => argument.pending ++ [Token.ofFunction function]
  | binary operator _ right => right.pending ++ [Token.ofOperator operator]
  | _ => []

theorem settled_append_pending (expr : Expr) :
    expr.settled ++ expr.pending = expr.toTree.postOrder := by
  induction expr with
  | number text value => rfl
  | group inner inductionHypothesis => exact List.append_nil _
  | call function argument inductionHypothesis => exact List.append_nil _
  | bare function argument inductionHypothesis =>
      rw [settled, pending, ← List.append_assoc, inductionHypothesis]
      rfl
  | binary operator left right leftHypothesis rightHypothesis =>
      rw [settled, pending, List.append_assoc, ← List.append_assoc right.settled,
        rightHypothesis, ← List.append_assoc]
      rfl

theorem kind_ne_leftParen_of_mem_pending {expr : Expr} :
    ∀ token ∈ expr.pending, token.kind ≠ .leftParen := by
  induction expr with
  | number text value => simp [pending]
  | group inner inductionHypothesis => simp [pending]
  | call function argument inductionHypothesis => simp [pending]
  | bare function argument inductionHypothesis =>
      intro token member
      rcases List.mem_append.mp member with inArgument | isFunction
      · exact inductionHypothesis token inArgument
      · rw [List.mem_singleton.mp isFunction]
        simp
  | binary operator left right leftHypothesis rightHypothesis =>
      intro token member
      rcases List.mem_append.mp member with inRight | isOperator
      · exact rightHypothesis token inRight
      · rw [List.mem_singleton.mp isOperator]
        simp

/-- Unless a function without parentheses stands at the right edge, all that waits binds at least
as tightly as the expression's own operator. -/
theorem binds_of_mem_pending {expr : Expr} (grouped : expr.WellGrouped)
    (closed : expr.endsBare = false) {level : Nat}
    (loose : ∀ main ∈ expr.precedence?, level ≤ main) :
    ∀ token ∈ expr.pending, token.Binds level := by
  induction expr generalizing level with
  | number text value => simp [pending]
  | group inner inductionHypothesis => simp [pending]
  | call function argument inductionHypothesis => simp [pending]
  | bare function argument inductionHypothesis => cases closed
  | binary operator left right leftHypothesis rightHypothesis =>
      obtain ⟨-, rightGrouped, -, -, rightTighter⟩ := grouped
      have levelLe : level ≤ operator.precedence := loose operator.precedence rfl
      intro token member
      rcases List.mem_append.mp member with inRight | isOperator
      · apply rightHypothesis rightGrouped closed _ token inRight
        intro main isMain
        exact Nat.le_of_lt (Nat.lt_of_le_of_lt levelLe (rightTighter main isMain))
      · rw [List.mem_singleton.mp isOperator]
        exact Token.binds_ofOperator levelLe

end Expr

namespace Yard

/-- Whether an expression can be read over waiting tokens without touching them: its own operator
releases none of them, and no function waits for the group that it starts with. -/
def Admits (stack : List Token) (expr : Expr) : Prop :=
  (∀ level ∈ expr.precedence?, release level stack = .ok ([], stack)) ∧
    (expr.startsWithGroup = true → ∀ top ∈ stack.head?, top.kind ≠ .function)

theorem admits_nil (expr : Expr) : Admits [] expr :=
  ⟨fun _ _ => rfl, fun _ _ member => by cases member⟩

theorem admits_function (function : NamedFunction) (below : List Token) {expr : Expr}
    (noGroup : expr.startsWithGroup = false) :
    Admits (Token.ofFunction function :: below) expr := by
  constructor
  · intro level _
    exact release_of_kind_ne (by simp)
  · intro group
    rw [noGroup] at group
    cases group

theorem admits_operator (operator : Operator) (below : List Token) {expr : Expr}
    (tighter : ∀ level ∈ expr.precedence?, operator.precedence < level) :
    Admits (Token.ofOperator operator :: below) expr := by
  constructor
  · intro level isLevel
    exact release_of_looser (tighter level isLevel)
  · intro _ top isTop
    obtain rfl : Token.ofOperator operator = top := Option.some.inj isTop
    simp

/-- An expression that can be read on its own comes out in its post-order. -/
theorem ofTokens_of_read {expr : Expr}
    (read : expr.written.foldlM step empty =
      .ok ⟨empty.output ++ expr.settled, expr.pending ++ empty.stack⟩) :
    PostOrder.ofTokens expr.written = .ok expr.toTree.postOrder := by
  rw [PostOrder.ofTokens, read, ok_bind, finish_eq_ok_iff]
  simp only [empty, List.append_nil]
  refine ⟨Expr.kind_ne_leftParen_of_mem_pending, ?_⟩
  simp [← Expr.settled_append_pending]

/-- An expression's tokens settle its closed part and leave its right edge waiting, whatever waits
below. -/
theorem foldlM_step_written {expr : Expr} (grouped : expr.WellGrouped) {output : Array Token}
    {stack : List Token} (admits : Admits stack expr) :
    expr.written.foldlM step ⟨output, stack⟩ =
      .ok ⟨output ++ expr.settled, expr.pending ++ stack⟩ := by
  -- Each part is read over a stack of its own, so the induction is over every stack that admits it.
  induction expr generalizing output stack with
  | number text value =>
      rw [Expr.written, List.foldlM_cons, step_number _ rfl]
      simp [Expr.settled, Expr.pending]
  | group inner inductionHypothesis =>
      have inside := ofTokens_of_read (inductionHypothesis grouped (admits_nil inner))
      rw [Expr.written, foldlM_step_group inside, takeFunction_of_kind_ne (admits.2 rfl)]
      rfl
  | call function argument inductionHypothesis =>
      have inside := ofTokens_of_read (inductionHypothesis grouped (admits_nil argument))
      rw [Expr.written, List.cons_append, List.foldlM_cons,
        step_function _ (Token.kind_ofFunction function), ok_bind, foldlM_step_group inside,
        takeFunction, if_pos (Token.kind_ofFunction function), output_push]
      rfl
  | bare function argument inductionHypothesis =>
      obtain ⟨argumentGrouped, noGroup⟩ := grouped
      rw [Expr.written, List.foldlM_cons, step_function _ (Token.kind_ofFunction function), ok_bind,
        inductionHypothesis argumentGrouped (admits_function function stack noGroup)]
      simp [Expr.settled, Expr.pending]
  | binary operator left right leftHypothesis rightHypothesis =>
      obtain ⟨leftGrouped, rightGrouped, leftClosed, leftTight, rightTighter⟩ := grouped
      have stays : release operator.precedence stack = .ok ([], stack) :=
        admits.1 operator.precedence rfl
      have leftAdmits : Admits stack left := by
        refine ⟨?_, admits.2⟩
        intro level isLevel
        exact release_of_le (leftTight level isLevel) stays
      -- The operator sends off what the left operand left waiting, and nothing below it.
      have leftBinds := Expr.binds_of_mem_pending leftGrouped leftClosed leftTight
      rw [Expr.written, List.foldlM_append, leftHypothesis leftGrouped leftAdmits, ok_bind,
        List.foldlM_cons, step_ofOperator operator leftBinds stays, ok_bind,
        rightHypothesis rightGrouped (admits_operator operator stack rightTighter), output_append,
        output_append, ← List.append_assoc left.settled, Expr.settled_append_pending]
      simp [Expr.settled, Expr.pending]

end Yard

namespace PostOrder

theorem ofTokens_written {expr : Expr} (grouped : expr.WellGrouped) :
    ofTokens expr.written = .ok expr.toTree.postOrder :=
  Yard.ofTokens_of_read (Yard.foldlM_step_written grouped (Yard.admits_nil expr))

end PostOrder

/-- The engine implements its infix language: the tokens of a well grouped expression are put into
the post-order of the operations that it stands for, these have the value of the operations, and so
has every text with these tokens. -/
theorem written_evaluates_to_tree (expr : Expr) (grouped : expr.WellGrouped) :
    PostOrder.ofTokens expr.written = .ok expr.toTree.postOrder ∧
      PostOrder.value expr.toTree.postOrder = .ok expr.toTree.value ∧
      ∀ text, Token.ofText text = .ok expr.written →
        evaluate (.text text) = .ok expr.toTree.value := by
  have reordered := PostOrder.ofTokens_written grouped
  have valued := PostOrder.value_postOrder expr.toTree
  refine ⟨reordered, valued, fun text lexed => ?_⟩
  have present : expr.written ≠ [] := by
    cases expr <;> simp [Expr.written]
  exact evaluate_of_stages lexed present reordered valued

/-- Powers group to the left, a product on the right of a sum is its operand, and a function without
parentheses takes the whole product on its right, so the second text stands for 14 − √25. -/
theorem powers_products_and_bare_functions_evaluate :
    let number (text : String) : Expr := .number text (Number.read? text)
    let powers : Expr := .binary .power (.binary .power (number "2") (number "3")) (number "2")
    let product : Expr := .binary .multiply (number "5") (.call .squareRoot (number "9"))
    let expr : Expr := .binary .subtract powers (.bare .sine product)
    let sum : Expr :=
      .binary .add (number "2") (.binary .multiply (number "3") (number "4"))
    let rooted : Expr := .bare .squareRoot (.binary .multiply (number "5") (number "5"))
    let difference : Expr := .binary .subtract sum rooted
    expr.WellGrouped ∧ Token.ofText "2^3^2−sin 5×√(9)" = .ok expr.written ∧
      evaluate (.text "2^3^2−sin 5×√(9)") = .ok expr.toTree.value ∧
      difference.WellGrouped ∧ Token.ofText "2+3×4−√5×5" = .ok difference.written ∧
      difference.toTree.value = 9.0 ∧ evaluate (.text "2+3×4−√5×5") = .ok 9.0 := by
  intro number powers product expr sum rooted difference
  have grouped : expr.WellGrouped := by
    simp [expr, powers, product, number, Expr.WellGrouped, Expr.endsBare, Expr.precedence?,
      Expr.startsWithGroup, Operator.precedence]
  have lexed : Token.ofText "2^3^2−sin 5×√(9)" = .ok expr.written := by decide +kernel
  have differenceGrouped : difference.WellGrouped := by
    simp [difference, sum, rooted, number, Expr.WellGrouped, Expr.endsBare, Expr.precedence?,
      Expr.startsWithGroup, Operator.precedence]
  have differenceLexed : Token.ofText "2+3×4−√5×5" = .ok difference.written := by decide +kernel
  have isNine : difference.toTree.value = 9.0 := by decide +kernel
  refine ⟨grouped, lexed, (written_evaluates_to_tree expr grouped).2.2 _ lexed,
    differenceGrouped, differenceLexed, isNine, ?_⟩
  rw [← isNine]
  exact (written_evaluates_to_tree difference differenceGrouped).2.2 _ differenceLexed

end PocketCalc
