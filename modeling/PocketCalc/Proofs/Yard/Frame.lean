import PocketCalc.Proofs.Yard.Steps

/-!
Contract: what is read in one part of the yard does not depend on the other parts.

Owns:
- output that is there before a run: it is only continued;
- an opening and all below it: tokens that can be read without them leave them alone;
- a group of tokens that can be reordered on their own, in any context.

Does not own: the value of the reordered tokens; see `PostOrder/Machine`.
-/

namespace PocketCalc

open PocketCalc.Stage

namespace Yard

/-! ## Output before a run -/

/-- The yard with more output in front. -/
def after (before : Array Token) (yard : Yard) : Yard := ⟨before ++ yard.output, yard.stack⟩

theorem after_append (before : Array Token) (yard : Yard) (tokens : List Token) :
    (after before yard).output ++ tokens = before ++ (yard.output ++ tokens) :=
  Array.ext' (by simp [after])

theorem takeFunction_after (before output : Array Token) (stack : List Token) :
    takeFunction (before ++ output) stack = after before (takeFunction output stack) := by
  cases stack with
  | nil => rfl
  | cons top below =>
      by_cases isFunction : top.kind = .function
      · rw [takeFunction, takeFunction, if_pos isFunction, if_pos isFunction]
        simp [after]
      · rw [takeFunction, takeFunction, if_neg isFunction, if_neg isFunction]
        rfl

/-- A step is refused or taken whatever is in the output, which it only continues. -/
theorem step_after (before : Array Token) (yard : Yard) (token : Token) :
    step (after before yard) token = (step yard token).map (after before) := by
  have sameStack : (after before yard).stack = yard.stack := rfl
  cases kind : token.kind with
  | number =>
      rw [step_number _ kind, step_number _ kind]
      simp [after, Except.map]
  | function =>
      rw [step_function _ kind, step_function _ kind]
      rfl
  | leftParen =>
      rw [step_leftParen _ kind, step_leftParen _ kind]
      rfl
  | rightParen =>
      rw [step_rightParen _ kind, step_rightParen _ kind, closeGroup, closeGroup, sameStack]
      cases yard.stack.dropWhile (fun token => decide (token.kind ≠ .leftParen)) with
      | nil => rfl
      | cons opening below =>
          dsimp only
          rw [after_append, takeFunction_after]
          rfl
  | operator =>
      rw [step_operator _ kind, step_operator _ kind, takeOperator, takeOperator, sameStack]
      cases token.precedence with
      | error cause => rfl
      | ok level =>
          rw [ok_bind, ok_bind]
          cases release level yard.stack with
          | error cause => rfl
          | ok split =>
              obtain ⟨released, kept⟩ := split
              rw [ok_bind, ok_bind]
              dsimp only
              rw [after_append]
              rfl

theorem foldlM_step_after (before : Array Token) (yard : Yard) (tokens : List Token) :
    tokens.foldlM step (after before yard) = (tokens.foldlM step yard).map (after before) :=
  foldlM_map (step_after before) yard

theorem finish_after (before : Array Token) (yard : Yard) :
    finish (after before yard) = (finish yard).map (before.toList ++ ·) := by
  obtain ⟨output, stack⟩ := yard
  unfold finish after
  dsimp only
  by_cases groupOpen : stack.any (fun token : Token => token.kind = .leftParen) = true
  · rw [if_pos groupOpen, if_pos groupOpen]
    rfl
  · rw [if_neg groupOpen, if_neg groupOpen]
    simp [Except.map]

/-! ## Below an opening -/

/-- The yard with an opening and more tokens below those that wait. -/
def above (below : List Token) (yard : Yard) : Yard :=
  ⟨yard.output, yard.stack ++ Token.opening :: below⟩

theorem release_above {level : Nat} {stack released kept : List Token} (below : List Token)
    (split : release level stack = .ok (released, kept)) :
    release level (stack ++ Token.opening :: below) =
      .ok (released, kept ++ Token.opening :: below) := by
  induction stack generalizing released with
  | nil =>
      cases split
      exact release_of_kind_ne (by decide)
  | cons top rest inductionHypothesis =>
      rw [List.cons_append]
      by_cases isOperator : top.kind = .operator
      · rw [release, if_pos isOperator] at split ⊢
        obtain ⟨topLevel, topPrecedence, split⟩ := bind_eq_ok_iff.mp split
        rw [topPrecedence, ok_bind]
        by_cases looser : topLevel < level
        · rw [if_pos looser] at split ⊢
          cases split
          rfl
        · rw [if_neg looser] at split ⊢
          obtain ⟨⟨further, lower⟩, restSplit, split⟩ := bind_eq_ok_iff.mp split
          cases split
          rw [inductionHypothesis restSplit]
          rfl
      · rw [release_of_kind_ne isOperator] at split ⊢
        cases split
        rfl

theorem takeFunction_above (below : List Token) (output : Array Token) (stack : List Token) :
    takeFunction output (stack ++ Token.opening :: below) =
      above below (takeFunction output stack) := by
  cases stack with
  | nil => rfl
  | cons top rest =>
      rw [List.cons_append]
      by_cases isFunction : top.kind = .function
      · rw [takeFunction, takeFunction, if_pos isFunction, if_pos isFunction]
        rfl
      · rw [takeFunction, takeFunction, if_neg isFunction, if_neg isFunction]
        rfl

/-- A step that can be taken without the tokens below an opening leaves them alone. -/
theorem step_above {yard next : Yard} {token : Token} (below : List Token)
    (stepped : step yard token = .ok next) :
    step (above below yard) token = .ok (above below next) := by
  cases kind : token.kind with
  | number =>
      rw [step_number _ kind] at stepped ⊢
      cases stepped
      rfl
  | function =>
      rw [step_function _ kind] at stepped ⊢
      cases stepped
      rfl
  | leftParen =>
      rw [step_leftParen _ kind] at stepped ⊢
      cases stepped
      rfl
  | rightParen =>
      rw [step_rightParen _ kind] at stepped ⊢
      obtain ⟨inner, opening, rest, stackEq, innerOpen, isOpening, rfl⟩ := closeGroup_eq_ok stepped
      have closed := closeGroup_append yard.output (rest ++ Token.opening :: below) innerOpen
        isOpening
      rw [above, stackEq, List.append_assoc, List.cons_append, closed, takeFunction_above]
  | operator =>
      rw [step_operator _ kind, takeOperator_eq_ok_iff] at stepped ⊢
      obtain ⟨level, released, kept, known, split, rfl⟩ := stepped
      exact ⟨level, released, kept ++ Token.opening :: below, known, release_above below split, rfl⟩

theorem foldlM_step_above {yard next : Yard} {tokens : List Token} (below : List Token)
    (ran : tokens.foldlM step yard = .ok next) :
    tokens.foldlM step (above below yard) = .ok (above below next) :=
  foldlM_frame (above below) (fun _ _ _ stepped => step_above below stepped) ran

/-! ## Groups -/

/-- A group of tokens that can be reordered on their own comes out in that order, whatever is in
the yard, and takes along a function that waits for it. -/
theorem foldlM_step_group {tokens ordered : List Token}
    (reordered : PostOrder.ofTokens tokens = .ok ordered) (output : Array Token)
    (stack : List Token) :
    (Token.opening :: tokens ++ [Token.closing]).foldlM step ⟨output, stack⟩ =
      .ok (takeFunction (output ++ ordered) stack) := by
  obtain ⟨yard, ran, finished⟩ := bind_eq_ok_iff.mp reordered
  obtain ⟨noneOpen, rfl⟩ := finish_eq_ok_iff.mp finished
  -- Inside, the run on the empty yard is repeated behind the output and above the opening.
  have inside := foldlM_step_after output (above stack empty) tokens
  rw [foldlM_step_above stack ran] at inside
  have start : after output (above stack empty) = ⟨output, Token.opening :: stack⟩ := by
    simp [after, above, empty]
  rw [start] at inside
  have closed := closeGroup_append (output ++ yard.output) stack noneOpen Token.kind_opening
  have ordered : output ++ yard.output ++ yard.stack =
      output ++ (yard.output.toList ++ yard.stack) :=
    Array.ext' (by simp)
  have last : [Token.closing].foldlM step (after output (above stack yard)) =
      .ok (takeFunction (output ++ yard.output ++ yard.stack) stack) := by
    rw [List.foldlM_cons, step_rightParen _ Token.kind_closing, after, above, closed]
    rfl
  rw [List.foldlM_append, List.foldlM_cons, step_leftParen _ Token.kind_opening, ok_bind, inside,
    ← ordered]
  exact last

end Yard

namespace PostOrder

/-- What surrounds a group decides whether the whole is refused, and if not, what stands before
and after the group's own post-order. -/
theorem ofTokens_group (before after : List Token) :
    (∃ cause, ∀ tokens ordered, ofTokens tokens = .ok ordered →
      ofTokens (before ++ (Token.opening :: tokens ++ [Token.closing]) ++ after) = .error cause) ∨
      ∃ left right, ∀ tokens ordered, ofTokens tokens = .ok ordered →
        ofTokens (before ++ (Token.opening :: tokens ++ [Token.closing]) ++ after) =
          .ok (left ++ ordered ++ right) := by
  cases beforeRead : before.foldlM Yard.step Yard.empty with
  | error cause =>
      refine Or.inl ⟨cause, fun tokens ordered _ => ?_⟩
      rw [ofTokens, List.append_assoc, List.foldlM_append, beforeRead]
      rfl
  | ok reached =>
      obtain ⟨output, stack⟩ := reached
      -- The run after the group starts from the stack before it; of the group it sees nothing.
      have read : ∀ tokens ordered, ofTokens tokens = .ok ordered →
          ofTokens (before ++ (Token.opening :: tokens ++ [Token.closing]) ++ after) =
            ((after.foldlM Yard.step (Yard.takeFunction #[] stack)) >>= Yard.finish).map
              (output.toList ++ ordered ++ ·) := by
        intro tokens ordered reordered
        have front : Yard.takeFunction (output ++ ordered) stack =
            Yard.after (output ++ ordered) (Yard.takeFunction #[] stack) := by
          rw [← Yard.takeFunction_after, Array.append_empty]
        rw [ofTokens, List.foldlM_append, List.foldlM_append, beforeRead, ok_bind,
          Yard.foldlM_step_group reordered, ok_bind, front, Yard.foldlM_step_after]
        cases after.foldlM Yard.step (Yard.takeFunction #[] stack) with
        | error cause => rfl
        | ok last =>
            rw [ok_bind]
            exact (Yard.finish_after _ last).trans (by simp)
      cases rest : (after.foldlM Yard.step (Yard.takeFunction #[] stack)) >>= Yard.finish with
      | error cause =>
          refine Or.inl ⟨cause, fun tokens ordered reordered => ?_⟩
          rw [read tokens ordered reordered, rest]
          rfl
      | ok right =>
          refine Or.inr ⟨output.toList, right, fun tokens ordered reordered => ?_⟩
          rw [read tokens ordered reordered, rest]
          rfl

end PostOrder

end PocketCalc
