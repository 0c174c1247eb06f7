import PocketCalc.Tree

/-!
Contract: infix expressions as trees, and the sequences of tokens that write them.

Owns:
- the infix tree type, with parentheses and the two ways to apply a function;
- its written order and the operations that it stands for;
- the grouping rules under which the written order determines the tree.

Does not own: the reordering of written tokens; see `PostOrder`.

Every operator groups to the left, also the power. A function without parentheses of its own
takes all to its right up to the end of its group, so nothing can follow it inside the group.
-/

namespace PocketCalc

/-- An infix expression: a number, a group in parentheses, a function of a group, a function
without parentheses, or an operator between two expressions. -/
inductive Expr where
  | number (text : String) (value : Option Float)
  | group (inner : Expr)
  | call (function : NamedFunction) (argument : Expr)
  | bare (function : NamedFunction) (argument : Expr)
  | binary (operator : Operator) (left right : Expr)
deriving DecidableEq

namespace Expr

/-- The tokens of an expression in their written order. -/
def written : Expr → List Token
  | number text value => [⟨.number, text, value⟩]
  | group inner => Token.opening :: inner.written ++ [Token.closing]
  | call function argument =>
      Token.ofFunction function :: Token.opening :: argument.written ++ [Token.closing]
  | bare function argument => Token.ofFunction function :: argument.written
  | binary operator left right =>
      left.written ++ Token.ofOperator operator :: right.written

/-- The operations that an expression stands for. -/
def toTree : Expr → Tree
  | number text value => .number text value
  | group inner => inner.toTree
  | call function argument => .apply function none argument.toTree
  | bare function argument => .apply function none argument.toTree
  | binary operator left right => .combine operator none left.toTree right.toTree

/-- The precedence level of the operator that an expression joins outside of parentheses. -/
def precedence? : Expr → Option Nat
  | binary operator _ _ => some operator.precedence
  | _ => none

/-- Whether an expression's right edge is a function without parentheses. -/
def endsBare : Expr → Bool
  | bare _ _ => true
  | binary _ _ right => right.endsBare
  | _ => false

/-- Whether the first token that writes an expression opens a group. -/
def startsWithGroup : Expr → Bool
  | group _ => true
  | binary _ left _ => left.startsWithGroup
  | _ => false

/-- Whether the written order groups as the tree does. A left operand binds at least as tightly
as its operator and does not end in a function without parentheses; a right operand binds more
tightly; and an argument without parentheses does not start with any. -/
def WellGrouped : Expr → Prop
  | number _ _ => True
  | group inner => inner.WellGrouped
  | call _ argument => argument.WellGrouped
  | bare _ argument => argument.WellGrouped ∧ argument.startsWithGroup = false
  | binary operator left right =>
      left.WellGrouped ∧ right.WellGrouped ∧ left.endsBare = false ∧
        (∀ level ∈ left.precedence?, operator.precedence ≤ level) ∧
        (∀ level ∈ right.precedence?, operator.precedence < level)

/-- The first token of an expression opens a group exactly if the expression starts with one. -/
theorem head_written (expr : Expr) :
    expr.written.head?.any (·.kind = .leftParen) = expr.startsWithGroup := by
  induction expr with
  | number text value => rfl
  | group inner inductionHypothesis => rfl
  | call function argument inductionHypothesis => rfl
  | bare function argument inductionHypothesis => rfl
  | binary operator left right leftHypothesis rightHypothesis =>
      have nonempty : left.written ≠ [] := by
        cases left <;> simp [written]
      obtain ⟨first, others, shape⟩ := List.exists_cons_of_ne_nil nonempty
      rw [startsWithGroup, ← leftHypothesis, written, shape]
      rfl

end Expr

/-- The sentences of infix notation: a number, a sentence in parentheses, a function of such a
group or of a sentence on its right, or two sentences with an operator between them. -/
inductive Sentence : List Token → Prop where
  | number (text : String) (value : Option Float) : Sentence [⟨.number, text, value⟩]
  | group {tokens : List Token} :
      Sentence tokens → Sentence (Token.opening :: tokens ++ [Token.closing])
  | call (function : NamedFunction) {tokens : List Token} :
      Sentence tokens →
        Sentence (Token.ofFunction function :: Token.opening :: tokens ++ [Token.closing])
  | bare (function : NamedFunction) {tokens : List Token} :
      Sentence tokens → Sentence (Token.ofFunction function :: tokens)
  | binary (operator : Operator) {left right : List Token} :
      Sentence left → Sentence right →
        Sentence (left ++ Token.ofOperator operator :: right)

/-- What writes an expression is a sentence, however it is grouped. -/
theorem Expr.sentence_written (expr : Expr) : Sentence expr.written := by
  induction expr with
  | number text value => exact .number text value
  | group inner inductionHypothesis => exact .group inductionHypothesis
  | call function argument inductionHypothesis => exact .call function inductionHypothesis
  | bare function argument inductionHypothesis => exact .bare function inductionHypothesis
  | binary operator left right leftHypothesis rightHypothesis =>
      exact .binary operator leftHypothesis rightHypothesis

/-- Every sentence is written by some expression. -/
theorem Sentence.exists_expr {tokens : List Token} (sentence : Sentence tokens) :
    ∃ expr : Expr, expr.written = tokens := by
  induction sentence with
  | number text value => exact ⟨.number text value, rfl⟩
  | group _ inductionHypothesis =>
      obtain ⟨inner, rfl⟩ := inductionHypothesis
      exact ⟨.group inner, rfl⟩
  | call function _ inductionHypothesis =>
      obtain ⟨argument, rfl⟩ := inductionHypothesis
      exact ⟨.call function argument, rfl⟩
  | bare function _ inductionHypothesis =>
      obtain ⟨argument, rfl⟩ := inductionHypothesis
      exact ⟨.bare function argument, rfl⟩
  | binary operator _ _ leftHypothesis rightHypothesis =>
      obtain ⟨left, rfl⟩ := leftHypothesis
      obtain ⟨right, rfl⟩ := rightHypothesis
      exact ⟨.binary operator left right, rfl⟩

end PocketCalc
