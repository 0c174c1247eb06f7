import PocketCalc.Proofs.Token.Known
import PocketCalc.Tree

/-!
Contract: what one token does to the stack of values.

Owns:
- `push_eq_ok_iff`, all that a token can do to the values;
- values below those that a token needs are left alone, and so by a whole run;
- the value of a tree's post-order;
- the causes for which proper tokens without parentheses have no value.

Does not own: which sequences have a value; see `PostOrder/Recognition`.
-/

namespace PocketCalc.PostOrder

open PocketCalc.Stage

/-! ## One token -/

/-- All that a token can do to the values. -/
theorem push_eq_ok_iff {values next : List Float} {token : Token} :
    push values token = .ok next ↔
      (token.kind = .number ∧ next = token.value.getD Number.notANumber :: values) ∨
        (token.kind = .function ∧ ∃ function argument rest,
          NamedFunction.ofName? token.text = some function ∧ values = argument :: rest ∧
            next = function.apply argument :: rest) ∨
        (token.kind = .operator ∧ ∃ operator right left rest,
          Operator.ofSymbol? token.text = some operator ∧ values = right :: left :: rest ∧
            next = operator.apply left right :: rest) := by
  unfold push
  cases token.kind with
  | number => simp [eq_comm]
  | function =>
      cases values with
      | nil => simp
      | cons argument rest =>
          cases NamedFunction.ofName? token.text <;> simp [eq_comm, and_assoc]
  | operator =>
      match values with
      | [] => simp
      | [_] => simp
      | right :: left :: rest =>
          cases Operator.ofSymbol? token.text <;> simp [eq_comm, and_assoc]
  | leftParen => simp
  | rightParen => simp

/-! ## Frames -/

/-- A token that finds its operands leaves the values below them alone. -/
theorem push_append {values next : List Float} {token : Token} (below : List Float)
    (pushed : push values token = .ok next) :
    push (values ++ below) token = .ok (next ++ below) := by
  rw [push_eq_ok_iff] at pushed ⊢
  rcases pushed with ⟨isNumber, rfl⟩ |
    ⟨isFunction, function, argument, rest, found, rfl, rfl⟩ |
    ⟨isOperator, operator, right, left, rest, found, rfl, rfl⟩
  · exact Or.inl ⟨isNumber, rfl⟩
  · exact Or.inr (Or.inl ⟨isFunction, function, argument, rest ++ below, found, rfl, rfl⟩)
  · exact Or.inr (Or.inr ⟨isOperator, operator, right, left, rest ++ below, found, rfl, rfl⟩)

/-- A run that goes through over some values goes through over more of them. -/
theorem foldlM_push_append {values final : List Float} {tokens : List Token} (below : List Float)
    (ran : tokens.foldlM push values = .ok final) :
    tokens.foldlM push (values ++ below) = .ok (final ++ below) :=
  foldlM_frame (· ++ below) (fun _ _ _ pushed => push_append below pushed) ran

theorem value_eq_ok_iff {tokens : List Token} {result : Float} :
    value tokens = .ok result ↔ tokens.foldlM push [] = .ok [result] := by
  rw [value, bind_eq_ok_iff]
  constructor
  · rintro ⟨values, ran, alone⟩
    match values with
    | [] => cases alone
    | [_] =>
        cases alone
        exact ran
    | _ :: _ :: _ => cases alone
  · intro ran
    exact ⟨[result], ran, rfl⟩

/-- The post-order of a tree has the tree's value. -/
theorem value_postOrder (tree : Tree) : value tree.postOrder = .ok tree.value := by
  have pushed := foldlM_push_postOrder tree [] []
  rw [List.append_nil] at pushed
  exact value_eq_ok_iff.mpr pushed

/-- Tokens with a value push it on any values. -/
theorem foldlM_push_of_value {tokens : List Token} {result : Float}
    (valued : value tokens = .ok result) (values : List Float) :
    tokens.foldlM push values = .ok (result :: values) := by
  have framed := foldlM_push_append values (value_eq_ok_iff.mp valued)
  exact framed

/-- Of tokens in the middle of others only the value counts. -/
theorem value_replace {middle other : List Token} {result : Float}
    (middleValued : value middle = .ok result) (otherValued : value other = .ok result)
    (left right : List Token) :
    value (left ++ middle ++ right) = value (left ++ other ++ right) := by
  have sameRun : (left ++ middle ++ right).foldlM push [] =
      (left ++ other ++ right).foldlM push [] := by
    simp only [List.foldlM_append]
    cases left.foldlM push [] with
    | error cause => rfl
    | ok values =>
        simp only [ok_bind, foldlM_push_of_value middleValued, foldlM_push_of_value otherValued]
  rw [value, value, sameRun]

/-! ## Causes of failure -/

/-- A proper token that is no parenthesis is refused only for want of operands. -/
theorem push_eq_error {values : List Float} {token : Token} {cause : Failure}
    (proper : token.Proper) (inside : token.kind ≠ .leftParen ∧ token.kind ≠ .rightParen)
    (refused : push values token = .error cause) :
    (∃ function : NamedFunction, cause = .missingOperand function.name) ∨
      ∃ operator : Operator, cause = .missingOperands operator.symbol := by
  cases proper with
  | number text value => cases refused
  | function function =>
      cases values with
      | nil =>
          cases refused
          exact Or.inl ⟨function, rfl⟩
      | cons argument rest =>
          rw [Token.ofFunction, push_function] at refused
          cases refused
  | opening => exact absurd rfl inside.1
  | closing => exact absurd rfl inside.2
  | operator operator =>
      match values with
      | [] =>
          cases refused
          exact Or.inr ⟨operator, rfl⟩
      | [_] =>
          cases refused
          exact Or.inr ⟨operator, rfl⟩
      | right :: left :: rest =>
          rw [Token.ofOperator, push_operator] at refused
          cases refused

/-- Proper tokens without parentheses have no value for want of operands, or because they leave a
number of values other than one. -/
theorem value_eq_error {tokens : List Token} {cause : Failure}
    (proper : ∀ token ∈ tokens,
      token.Proper ∧ token.kind ≠ .leftParen ∧ token.kind ≠ .rightParen)
    (refused : value tokens = .error cause) :
    (∃ function : NamedFunction, cause = .missingOperand function.name) ∨
      (∃ operator : Operator, cause = .missingOperands operator.symbol) ∨
      ∃ count, count ≠ 1 ∧ cause = .valuesLeft count := by
  rcases bind_eq_error_iff.mp refused with runRefused | ⟨values, -, singleRefused⟩
  · obtain ⟨token, member, reached, -, pushRefused⟩ :=
      exists_step_of_foldlM_error (fun _ => True) (fun _ _ _ _ _ _ => trivial) trivial runRefused
    obtain ⟨isProper, inside⟩ := proper token member
    rcases push_eq_error isProper inside pushRefused with function | operator
    · exact Or.inl function
    · exact Or.inr (Or.inl operator)
  · refine Or.inr (Or.inr ⟨values.length, ?_⟩)
    match values with
    | [] =>
        cases singleRefused
        exact ⟨by decide, rfl⟩
    | [_] => cases singleRefused
    | _ :: _ :: _ =>
        cases singleRefused
        exact ⟨by simp, rfl⟩

end PocketCalc.PostOrder
