import PocketCalc.Proofs.Token.Known
import PocketCalc.Proofs.Yard.Steps

/-!
Contract: which tokens the yard holds, and when the reordering is refused.

Owns:
- `Holds`, the invariant of the yard: its tokens come from the input, nothing but operations and
  openings waits, and no parenthesis is in the output;
- the invariant along every run, and what it says of the reordered tokens;
- the two causes for which the proper tokens of a text are refused.

Does not own: the order of the output; see `Yard/Grouping`.
-/

namespace PocketCalc

open PocketCalc.Stage

namespace Yard

/-- All tokens of the yard satisfy a condition, no parenthesis is in the output, and only
functions, operators and openings wait. -/
structure Holds (Allowed : Token → Prop) (yard : Yard) : Prop where
  output : ∀ token ∈ yard.output.toList,
    Allowed token ∧ token.kind ≠ .leftParen ∧ token.kind ≠ .rightParen
  stack : ∀ token ∈ yard.stack, Allowed token ∧ token.kind ≠ .number ∧ token.kind ≠ .rightParen

section Invariant

variable {Allowed : Token → Prop} {yard next : Yard}

theorem holds_empty : Holds Allowed empty := by
  constructor
  · intro token member
    cases member
  · intro token member
    cases member

/-- Waiting tokens that are no openings may go to the output. -/
theorem Holds.moved {output : Array Token} {moved kept : List Token}
    (holds : Holds Allowed ⟨output, moved ++ kept⟩)
    (noOpening : ∀ token ∈ moved, token.kind ≠ .leftParen) :
    Holds Allowed ⟨output ++ moved, kept⟩ := by
  constructor
  · intro token member
    simp only [Array.toList_appendList, List.mem_append] at member
    rcases member with inOutput | inMoved
    · exact holds.output token inOutput
    · obtain ⟨allowed, -, notClosing⟩ := holds.stack token (List.mem_append_left kept inMoved)
      exact ⟨allowed, noOpening token inMoved, notClosing⟩
  · intro token member
    exact holds.stack token (List.mem_append_right moved member)

theorem Holds.pushed {output : Array Token} {stack : List Token} {token : Token}
    (holds : Holds Allowed ⟨output, stack⟩) (allowed : Allowed token)
    (waits : token.kind ≠ .number ∧ token.kind ≠ .rightParen) :
    Holds Allowed ⟨output, token :: stack⟩ := by
  refine ⟨holds.output, fun other member => ?_⟩
  rcases List.mem_cons.mp member with rfl | inStack
  · exact ⟨allowed, waits⟩
  · exact holds.stack other inStack

theorem Holds.dropped {output : Array Token} {stack : List Token} {token : Token}
    (holds : Holds Allowed ⟨output, token :: stack⟩) : Holds Allowed ⟨output, stack⟩ :=
  ⟨holds.output, fun other member => holds.stack other (List.mem_cons_of_mem token member)⟩

theorem Holds.takeFunction {output : Array Token} {stack : List Token}
    (holds : Holds Allowed ⟨output, stack⟩) : Holds Allowed (takeFunction output stack) := by
  rcases takeFunction_eq_or output stack with same | ⟨function, below, rfl, isFunction, taken⟩
  · rw [same]
    exact holds
  · rw [taken]
    have moved : Holds Allowed ⟨output ++ [function], below⟩ :=
      holds.moved (by simp [isFunction])
    simpa using moved

/-- Every step keeps the invariant. -/
theorem Holds.step {token : Token} (holds : Holds Allowed yard) (allowed : Allowed token)
    (stepped : yard.step token = .ok next) : Holds Allowed next := by
  rcases step_eq_ok stepped with ⟨isNumber, rfl⟩ | ⟨waits, rfl⟩ |
    ⟨-, inner, opening, below, stackEq, innerOpen, -, rfl⟩ |
    ⟨isOperator, level, released, kept, -, stackEq, binds, -, rfl⟩
  · refine ⟨fun other member => ?_, holds.stack⟩
    rcases Array.mem_push.mp (Array.mem_def.mpr member) with inOutput | rfl
    · exact holds.output other (Array.mem_def.mp inOutput)
    · exact ⟨allowed, by simp [isNumber], by simp [isNumber]⟩
  · apply holds.pushed allowed
    rcases waits with isFunction | isOpening
    · simp [isFunction]
    · simp [isOpening]
  · obtain ⟨output, stack⟩ := yard
    subst stackEq
    exact (holds.moved innerOpen).dropped.takeFunction
  · obtain ⟨output, stack⟩ := yard
    subst stackEq
    have noOpening : ∀ token ∈ released, token.kind ≠ .leftParen := by
      intro other member
      simp [(binds other member).1]
    exact (holds.moved noOpening).pushed allowed (by simp [isOperator])

theorem Holds.run {tokens : List Token} (allowed : ∀ token ∈ tokens, Allowed token)
    (holds : Holds Allowed yard) (ran : tokens.foldlM Yard.step yard = .ok next) :
    Holds Allowed next :=
  foldlM_keeps (fun token member _ _ held stepped => held.step (allowed token member) stepped)
    holds ran

end Invariant

end Yard

namespace PostOrder

/-- The reordered tokens come from the input, and no parenthesis is among them. -/
theorem forall_mem_of_ofTokens {Allowed : Token → Prop} {tokens ordered : List Token}
    (allowed : ∀ token ∈ tokens, Allowed token) (reordered : ofTokens tokens = .ok ordered) :
    ∀ token ∈ ordered, Allowed token ∧ token.kind ≠ .leftParen ∧ token.kind ≠ .rightParen := by
  obtain ⟨yard, ran, finished⟩ := bind_eq_ok_iff.mp reordered
  obtain ⟨noneOpen, rfl⟩ := Yard.finish_eq_ok_iff.mp finished
  have holds := Yard.holds_empty.run allowed ran
  intro token member
  rcases List.mem_append.mp member with inOutput | inStack
  · exact holds.output token inOutput
  · obtain ⟨isAllowed, -, notClosing⟩ := holds.stack token inStack
    exact ⟨isAllowed, noneOpen token inStack, notClosing⟩

/-- Proper tokens are refused only for a parenthesis without its partner. -/
theorem unmatched_of_ofTokens_eq_error {tokens : List Token} {cause : Failure}
    (proper : ∀ token ∈ tokens, token.Proper) (refused : ofTokens tokens = .error cause) :
    cause = .unmatchedClosing ∨ cause = .unmatchedOpening := by
  rcases bind_eq_error_iff.mp refused with runRefused | ⟨yard, -, finishRefused⟩
  · obtain ⟨token, member, reached, holds, stepRefused⟩ :=
      exists_step_of_foldlM_error (Yard.Holds Token.Proper)
        (fun token member _ _ held stepped => held.step (proper token member) stepped)
        Yard.holds_empty runRefused
    rcases Yard.step_eq_error stepRefused with ⟨-, causeEq, -⟩ |
      ⟨-, unknown, unknownMember, isOperator, notFound⟩
    · exact Or.inl causeEq
    · have isProper : unknown.Proper := by
        rcases List.mem_cons.mp unknownMember with rfl | inStack
        · exact proper unknown member
        · exact (holds.stack unknown inStack).1
      exact absurd notFound (isProper.ofSymbol?_ne_none isOperator)
  · exact Or.inr (Yard.finish_eq_error finishRefused)

end PostOrder

end PocketCalc
