import PocketCalc.Proofs.Evaluation.Entry
import PocketCalc.Proofs.PostOrder.Machine
import PocketCalc.Proofs.Yard.Conservation

/-!
Contract: how many numbers and operators a sequence with a value has.

Owns:
- the numbers and the operators among tokens, which reordering leaves as many as they were;
- what a token and a run do to the number of values;
- a text with a value has one number more than it has operators, and one without that balance has
  no value.

Does not own: which balanced sequences have a value.
-/

namespace PocketCalc

open PocketCalc.Stage

namespace Token

/-- How many tokens are numbers. -/
def numbers (tokens : List Token) : Nat := tokens.countP (·.kind = .number)

/-- How many tokens are operators. -/
def operators (tokens : List Token) : Nat := tokens.countP (·.kind = .operator)

@[simp]
theorem numbers_nil : numbers [] = 0 := rfl

@[simp]
theorem operators_nil : operators [] = 0 := rfl

@[simp]
theorem numbers_cons (token : Token) (rest : List Token) :
    numbers (token :: rest) = numbers rest + if token.kind = .number then 1 else 0 := by
  simp [numbers, List.countP_cons]

@[simp]
theorem operators_cons (token : Token) (rest : List Token) :
    operators (token :: rest) = operators rest + if token.kind = .operator then 1 else 0 := by
  simp [operators, List.countP_cons]

theorem numbers_append (left right : List Token) :
    numbers (left ++ right) = numbers left + numbers right :=
  List.countP_append

theorem operators_append (left right : List Token) :
    operators (left ++ right) = operators left + operators right :=
  List.countP_append

/-- Whether there is one number more than there are operators. -/
def Balanced (tokens : List Token) : Prop := numbers tokens = operators tokens + 1

/-- Neither parentheses nor the order of tokens count. -/
theorem balanced_iff_of_perm {tokens ordered : List Token}
    (perm : ordered.Perm (ungrouped tokens)) : Balanced ordered ↔ Balanced tokens := by
  have kept {kind : Kind} (notOpening : kind ≠ .leftParen) (notClosing : kind ≠ .rightParen) :
      ordered.countP (·.kind = kind) = tokens.countP (·.kind = kind) := by
    rw [perm.countP_eq, ungrouped, List.countP_filter]
    refine List.countP_congr fun token _ => ?_
    simp only [groups, Bool.and_eq_true, Bool.not_eq_true', decide_eq_true_eq,
      decide_eq_false_iff_not, and_iff_left_iff_imp]
    rintro rfl
    exact fun isParenthesis => isParenthesis.elim notOpening notClosing
  rw [Balanced, Balanced, numbers, operators, kept (by decide) (by decide),
    kept (by decide) (by decide)]
  rfl

end Token

namespace PostOrder

open Token

/-- A number adds a value, an operator makes one of two, and a function leaves as many as before. -/
theorem length_of_push {values next : List Float} {token : Token}
    (pushed : push values token = .ok next) :
    next.length + (if token.kind = .operator then 1 else 0) =
      values.length + if token.kind = .number then 1 else 0 := by
  rcases push_eq_ok_iff.mp pushed with ⟨isNumber, rfl⟩ |
    ⟨isFunction, function, argument, rest, -, rfl, rfl⟩ |
    ⟨isOperator, operator, right, left, rest, -, rfl, rfl⟩
  · simp [isNumber]
  · simp [isFunction]
  · simp [isOperator]

theorem length_of_foldlM_push {values final : List Float} {tokens : List Token}
    (ran : tokens.foldlM push values = .ok final) :
    final.length + operators tokens = values.length + numbers tokens := by
  induction tokens generalizing values with
  | nil =>
      cases ran
      rfl
  | cons token tokens inductionHypothesis =>
      obtain ⟨next, pushed, rest⟩ := foldlM_cons_eq_ok_iff.mp ran
      have one := length_of_push pushed
      have further := inductionHypothesis rest
      rw [operators_cons, numbers_cons]
      omega

/-- Tokens whose order has a value are balanced. -/
theorem balanced_of_value {tokens ordered : List Token} {result : Float}
    (reordered : ofTokens tokens = .ok ordered) (valued : value ordered = .ok result) :
    Token.Balanced tokens := by
  have counted := length_of_foldlM_push (value_eq_ok_iff.mp valued)
  rw [← balanced_iff_of_perm (perm_ungrouped_of_ofTokens reordered), Token.Balanced]
  simp only [List.length_singleton, List.length_nil] at counted
  omega

end PostOrder

/-- A text whose tokens are not balanced has no value. -/
theorem evaluate_of_not_balanced {expression : String} {tokens : List Token}
    (lexed : Token.ofText expression = .ok tokens) (present : expression ≠ "")
    (unbalanced : ¬Token.Balanced tokens) : evaluate (.text expression) = .error ⟨⟩ := by
  rw [evaluate_eq_error_iff, Evaluation.result_run_text present]
  cases evaluated : Evaluation.ofText expression with
  | error cause => exact ⟨cause, rfl⟩
  | ok value =>
      obtain ⟨other, ordered, otherLexed, reordered, valued⟩ :=
        Evaluation.ofText_eq_ok_iff.mp evaluated
      rw [lexed] at otherLexed
      cases otherLexed
      exact absurd (PostOrder.balanced_of_value reordered valued) unbalanced

end PocketCalc
