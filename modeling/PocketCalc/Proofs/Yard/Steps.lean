import Mathlib.Data.List.TakeWhile
import PocketCalc.PostOrder
import PocketCalc.Proofs.Stage

/-!
Contract: what one token does to the yard.

Owns:
- `Token.Binds`, the condition under which a waiting operator goes to the output before another;
- `release` as a split of the stack at the first token that does not bind;
- the end of a group over a stack in which the group's opening is known;
- `step_cases`, all that a step can do, and the causes for which it refuses.

Does not own: runs of steps over particular tokens; see `Yard/Grouping` and `Yard/Frame`.
-/

namespace PocketCalc

open PocketCalc.Stage

namespace Token

@[simp]
theorem kind_ofFunction (function : NamedFunction) : (ofFunction function).kind = .function := rfl

@[simp]
theorem kind_ofOperator (operator : Operator) : (ofOperator operator).kind = .operator := rfl

@[simp]
theorem kind_opening : opening.kind = .leftParen := rfl

@[simp]
theorem kind_closing : closing.kind = .rightParen := rfl

/-- Whether a token is an operator that binds at least as tightly as a level. -/
def Binds (level : Nat) (token : Token) : Prop :=
  token.kind = .operator ∧ ∃ operator, Operator.ofSymbol? token.text = some operator ∧
    level ≤ operator.precedence

theorem binds_ofOperator {level : Nat} {operator : Operator} (tight : level ≤ operator.precedence) :
    (ofOperator operator).Binds level :=
  ⟨rfl, operator, Operator.ofSymbol?_eq_some_iff.mpr rfl, tight⟩

theorem precedence_eq_ok_iff {token : Token} {level : Nat} :
    token.precedence = .ok level ↔
      token.kind = .operator ∧ ∃ operator, Operator.ofSymbol? token.text = some operator ∧
        operator.precedence = level := by
  unfold precedence
  split
  · rename_i operator isOperator found
    rw [isOperator, found]
    simp
  · rename_i unknown
    constructor
    · intro impossible
      cases impossible
    · rintro ⟨isOperator, operator, found, -⟩
      exact absurd found (unknown operator isOperator)

theorem precedence_ofOperator (operator : Operator) :
    (ofOperator operator).precedence = .ok operator.precedence :=
  precedence_eq_ok_iff.mpr ⟨rfl, operator, Operator.ofSymbol?_eq_some_iff.mpr rfl, rfl⟩

/-- A token without a precedence is no operator or spells none. -/
theorem precedence_eq_error_iff {token : Token} {cause : Failure} :
    token.precedence = .error cause ↔
      cause = .noPrecedence token.text ∧
        (token.kind = .operator → Operator.ofSymbol? token.text = none) := by
  unfold precedence
  split
  · rename_i operator isOperator found
    simp [isOperator, found]
  · rename_i unknown
    constructor
    · intro failed
      cases failed
      refine ⟨rfl, fun isOperator => ?_⟩
      exact Option.eq_none_iff_forall_ne_some.mpr fun operator => unknown operator isOperator
    · rintro ⟨rfl, -⟩
      rfl

end Token

namespace Yard

/-! ## Output -/

theorem output_append (output : Array Token) (first second : List Token) :
    output ++ first ++ second = output ++ (first ++ second) :=
  Array.ext' (by simp)

theorem output_push (output : Array Token) (first : List Token) (last : Token) :
    (output ++ first).push last = output ++ (first ++ [last]) :=
  Array.ext' (by simp)

/-! ## Release -/

theorem release_cons_of_binds {level : Nat} {top : Token} {below released kept : List Token}
    (binds : top.Binds level) (rest : release level below = .ok (released, kept)) :
    release level (top :: below) = .ok (top :: released, kept) := by
  obtain ⟨isOperator, operator, found, tight⟩ := binds
  have topLevel : top.precedence = .ok operator.precedence :=
    Token.precedence_eq_ok_iff.mpr ⟨isOperator, operator, found, rfl⟩
  unfold release
  rw [if_pos isOperator, topLevel, ok_bind, if_neg (by omega), rest]
  rfl

/-- Operators that bind are released, whatever lies below them. -/
theorem release_append_of_binds {level : Nat} {upper lower released kept : List Token}
    (binds : ∀ token ∈ upper, token.Binds level)
    (rest : release level lower = .ok (released, kept)) :
    release level (upper ++ lower) = .ok (upper ++ released, kept) := by
  induction upper with
  | nil => exact rest
  | cons top upper inductionHypothesis =>
      have upperReleased := inductionHypothesis fun token member =>
        binds token (List.mem_cons_of_mem top member)
      exact release_cons_of_binds (binds top List.mem_cons_self) upperReleased

theorem release_of_looser {level : Nat} {operator : Operator} {below : List Token}
    (looser : operator.precedence < level) :
    release level (Token.ofOperator operator :: below) =
      .ok ([], Token.ofOperator operator :: below) := by
  rw [release, if_pos (Token.kind_ofOperator operator), Token.precedence_ofOperator, ok_bind,
    if_pos looser]

theorem release_of_kind_ne {level : Nat} {top : Token} {below : List Token}
    (noOperator : top.kind ≠ .operator) :
    release level (top :: below) = .ok ([], top :: below) := by
  unfold release
  rw [if_neg noOperator]

/-- A stack that stays as it is at a level does so at every higher one. -/
theorem release_of_le {level higher : Nat} {stack : List Token} (le : level ≤ higher)
    (stays : release level stack = .ok ([], stack)) : release higher stack = .ok ([], stack) := by
  cases stack with
  | nil => rfl
  | cons top below =>
      by_cases isOperator : top.kind = .operator
      · rw [release, if_pos isOperator] at stays ⊢
        obtain ⟨topLevel, topPrecedence, stays⟩ := bind_eq_ok_iff.mp stays
        rw [topPrecedence, ok_bind]
        by_cases looser : topLevel < level
        · rw [if_pos (Nat.lt_of_lt_of_le looser le)]
        · rw [if_neg looser] at stays
          obtain ⟨⟨released, kept⟩, -, impossible⟩ := bind_eq_ok_iff.mp stays
          cases impossible
      · exact release_of_kind_ne isOperator

/-- What is released stands above what is kept, and binds; the top of what is kept does not. -/
theorem release_eq_ok {level : Nat} {stack released kept : List Token}
    (accepted : release level stack = .ok (released, kept)) :
    stack = released ++ kept ∧ (∀ token ∈ released, token.Binds level) ∧
      ∀ top ∈ kept.head?, ¬top.Binds level := by
  induction stack generalizing released with
  | nil =>
      cases accepted
      simp
  | cons top below inductionHypothesis =>
      unfold release at accepted
      by_cases isOperator : top.kind = .operator
      · rw [if_pos isOperator] at accepted
        obtain ⟨topLevel, topPrecedence, accepted⟩ := bind_eq_ok_iff.mp accepted
        obtain ⟨-, operator, found, rfl⟩ := Token.precedence_eq_ok_iff.mp topPrecedence
        by_cases looser : operator.precedence < level
        · rw [if_pos looser] at accepted
          cases accepted
          refine ⟨rfl, by simp, ?_⟩
          rintro token member ⟨-, other, otherFound, tight⟩
          obtain rfl : top = token := Option.some.inj member
          rw [found] at otherFound
          cases otherFound
          omega
        · rw [if_neg looser] at accepted
          obtain ⟨⟨further, lower⟩, belowReleased, accepted⟩ := bind_eq_ok_iff.mp accepted
          cases accepted
          obtain ⟨rfl, furtherBind, keptStops⟩ := inductionHypothesis belowReleased
          refine ⟨rfl, ?_, keptStops⟩
          intro token member
          rcases List.mem_cons.mp member with rfl | inFurther
          · exact ⟨isOperator, operator, found, by omega⟩
          · exact furtherBind token inFurther
      · rw [if_neg isOperator] at accepted
        cases accepted
        refine ⟨rfl, by simp, ?_⟩
        rintro token member ⟨tokenIsOperator, -⟩
        obtain rfl : top = token := Option.some.inj member
        exact isOperator tokenIsOperator

/-- The release stops only at an operator that does not exist. -/
theorem release_eq_error {level : Nat} {stack : List Token} {cause : Failure}
    (refused : release level stack = .error cause) :
    ∃ token ∈ stack, token.kind = .operator ∧ Operator.ofSymbol? token.text = none := by
  induction stack with
  | nil => cases refused
  | cons top below inductionHypothesis =>
      unfold release at refused
      by_cases isOperator : top.kind = .operator
      · rw [if_pos isOperator] at refused
        rcases bind_eq_error_iff.mp refused with unknown | ⟨topLevel, -, rest⟩
        · exact ⟨top, List.mem_cons_self, isOperator,
            (Token.precedence_eq_error_iff.mp unknown).2 isOperator⟩
        · by_cases looser : topLevel < level
          · rw [if_pos looser] at rest
            cases rest
          · rw [if_neg looser] at rest
            rcases bind_eq_error_iff.mp rest with belowRefused | ⟨split, -, impossible⟩
            · obtain ⟨token, member, unknown⟩ := inductionHypothesis belowRefused
              exact ⟨token, List.mem_cons_of_mem top member, unknown⟩
            · cases impossible
      · rw [if_neg isOperator] at refused
        cases refused

/-! ## The end of a group -/

theorem takeFunction_of_kind_ne {output : Array Token} {stack : List Token}
    (noFunction : ∀ top ∈ stack.head?, top.kind ≠ .function) :
    takeFunction output stack = ⟨output, stack⟩ := by
  cases stack with
  | nil => rfl
  | cons top below =>
      rw [takeFunction, if_neg (noFunction top rfl)]

theorem takeFunction_eq_or (output : Array Token) (stack : List Token) :
    takeFunction output stack = ⟨output, stack⟩ ∨
      ∃ function below, stack = function :: below ∧ function.kind = .function ∧
        takeFunction output stack = ⟨output.push function, below⟩ := by
  cases stack with
  | nil => exact Or.inl rfl
  | cons top below =>
      by_cases isFunction : top.kind = .function
      · exact Or.inr ⟨top, below, rfl, isFunction, by rw [takeFunction, if_pos isFunction]⟩
      · exact Or.inl (by rw [takeFunction, if_neg isFunction])

/-- The end of a group, with the tokens of the group that still wait and those below the group. -/
theorem closeGroup_append (output : Array Token) (below : List Token) {inner : List Token}
    {opening : Token}
    (innerOpen : ∀ token ∈ inner, token.kind ≠ .leftParen) (isOpening : opening.kind = .leftParen) :
    closeGroup ⟨output, inner ++ opening :: below⟩ =
      .ok (takeFunction (output ++ inner) below) := by
  have passes : ∀ token ∈ inner, decide (token.kind ≠ .leftParen) = true := fun token member =>
    decide_eq_true (innerOpen token member)
  have dropped : (inner ++ opening :: below).dropWhile (·.kind ≠ .leftParen) =
      opening :: below := by
    rw [List.dropWhile_append_of_pos passes]
    simp [isOpening]
  have taken : (inner ++ opening :: below).takeWhile (·.kind ≠ .leftParen) = inner := by
    rw [List.takeWhile_append_of_pos passes]
    simp [isOpening]
  unfold closeGroup
  rw [dropped, taken]

theorem closeGroup_eq_ok {yard next : Yard} (accepted : yard.closeGroup = .ok next) :
    ∃ (inner : List Token) (opening : Token) (below : List Token),
      yard.stack = inner ++ opening :: below ∧
        (∀ token ∈ inner, token.kind ≠ .leftParen) ∧ opening.kind = .leftParen ∧
        next = takeFunction (yard.output ++ inner) below := by
  obtain ⟨output, stack⟩ := yard
  have split := List.takeWhile_append_dropWhile
    (p := fun token : Token => decide (token.kind ≠ .leftParen)) (l := stack)
  unfold closeGroup at accepted
  dsimp only at accepted ⊢
  cases rest : stack.dropWhile (fun token : Token => decide (token.kind ≠ .leftParen)) with
  | nil =>
      rw [rest] at accepted
      cases accepted
  | cons opening below =>
      rw [rest] at accepted split
      cases accepted
      refine ⟨_, opening, below, split.symm, ?_, ?_, rfl⟩
      · intro token member
        simpa using List.mem_takeWhile_imp member
      · have stops := List.head?_dropWhile_not
          (fun token : Token => decide (token.kind ≠ .leftParen)) stack
        rw [rest] at stops
        simpa using stops

/-- A group that is not open cannot be closed. -/
theorem closeGroup_eq_error {yard : Yard} {cause : Failure}
    (refused : yard.closeGroup = .error cause) :
    cause = .unmatchedClosing ∧ ∀ token ∈ yard.stack, token.kind ≠ .leftParen := by
  have split := List.takeWhile_append_dropWhile
    (p := fun token : Token => decide (token.kind ≠ .leftParen)) (l := yard.stack)
  unfold closeGroup at refused
  cases rest : yard.stack.dropWhile (fun token : Token => decide (token.kind ≠ .leftParen)) with
  | nil =>
      rw [rest] at refused split
      cases refused
      refine ⟨rfl, fun token member => ?_⟩
      rw [← split, List.append_nil] at member
      simpa using List.mem_takeWhile_imp member
  | cons opening below =>
      rw [rest] at refused
      cases refused

/-! ## One token -/

theorem step_number (yard : Yard) {token : Token} (isNumber : token.kind = .number) :
    yard.step token = .ok ⟨yard.output.push token, yard.stack⟩ := by
  rw [step, isNumber]

theorem step_function (yard : Yard) {token : Token} (isFunction : token.kind = .function) :
    yard.step token = .ok ⟨yard.output, token :: yard.stack⟩ := by
  rw [step, isFunction]

theorem step_leftParen (yard : Yard) {token : Token} (isOpening : token.kind = .leftParen) :
    yard.step token = .ok ⟨yard.output, token :: yard.stack⟩ := by
  rw [step, isOpening]

theorem step_rightParen (yard : Yard) {token : Token} (isClosing : token.kind = .rightParen) :
    yard.step token = yard.closeGroup := by
  rw [step, isClosing]

theorem step_operator (yard : Yard) {token : Token} (isOperator : token.kind = .operator) :
    yard.step token = yard.takeOperator token := by
  rw [step, isOperator]

theorem takeOperator_eq_ok_iff {yard next : Yard} {token : Token} :
    yard.takeOperator token = .ok next ↔
      ∃ level released kept, token.precedence = .ok level ∧
        release level yard.stack = .ok (released, kept) ∧
        next = ⟨yard.output ++ released, token :: kept⟩ := by
  unfold takeOperator
  simp only [bind_eq_ok_iff]
  constructor
  · rintro ⟨level, known, ⟨released, kept⟩, split, made⟩
    cases made
    exact ⟨level, released, kept, known, split, rfl⟩
  · rintro ⟨level, released, kept, known, split, rfl⟩
    exact ⟨level, known, (released, kept), split, rfl⟩

/-- An operator over a stack from which the upper part has to go and the lower part may stay. -/
theorem step_ofOperator {output : Array Token} {upper lower : List Token} (operator : Operator)
    (upperBinds : ∀ token ∈ upper, token.Binds operator.precedence)
    (lowerStays : release operator.precedence lower = .ok ([], lower)) :
    step ⟨output, upper ++ lower⟩ (Token.ofOperator operator) =
      .ok ⟨output ++ upper, Token.ofOperator operator :: lower⟩ := by
  have released := release_append_of_binds upperBinds lowerStays
  rw [List.append_nil] at released
  rw [step_operator _ rfl, takeOperator_eq_ok_iff]
  exact ⟨_, upper, lower, Token.precedence_ofOperator operator, released, rfl⟩

/-- All that a token can do to the yard. -/
theorem step_eq_ok {yard next : Yard} {token : Token} (stepped : yard.step token = .ok next) :
    (token.kind = .number ∧ next = ⟨yard.output.push token, yard.stack⟩) ∨
      ((token.kind = .function ∨ token.kind = .leftParen) ∧
        next = ⟨yard.output, token :: yard.stack⟩) ∨
      (token.kind = .rightParen ∧
        ∃ (inner : List Token) (opening : Token) (below : List Token),
          yard.stack = inner ++ opening :: below ∧
            (∀ token ∈ inner, token.kind ≠ .leftParen) ∧ opening.kind = .leftParen ∧
            next = takeFunction (yard.output ++ inner) below) ∨
      (token.kind = .operator ∧
        ∃ level released kept, token.precedence = .ok level ∧ yard.stack = released ++ kept ∧
          (∀ token ∈ released, token.Binds level) ∧ (∀ top ∈ kept.head?, ¬top.Binds level) ∧
          next = ⟨yard.output ++ released, token :: kept⟩) := by
  cases kind : token.kind with
  | number =>
      rw [step_number yard kind] at stepped
      exact Or.inl ⟨rfl, (Except.ok.inj stepped).symm⟩
  | function =>
      rw [step_function yard kind] at stepped
      exact Or.inr (Or.inl ⟨Or.inl rfl, (Except.ok.inj stepped).symm⟩)
  | leftParen =>
      rw [step_leftParen yard kind] at stepped
      exact Or.inr (Or.inl ⟨Or.inr rfl, (Except.ok.inj stepped).symm⟩)
  | rightParen =>
      rw [step_rightParen yard kind] at stepped
      exact Or.inr (Or.inr (Or.inl ⟨rfl, closeGroup_eq_ok stepped⟩))
  | operator =>
      rw [step_operator yard kind] at stepped
      obtain ⟨level, released, kept, known, split, nextEq⟩ := takeOperator_eq_ok_iff.mp stepped
      obtain ⟨stackEq, binds, stops⟩ := release_eq_ok split
      exact Or.inr (Or.inr (Or.inr
        ⟨rfl, level, released, kept, known, stackEq, binds, stops, nextEq⟩))

/-- A token is refused if it closes a group that is not open, or if it or a waiting token is an
operator that does not exist. -/
theorem step_eq_error {yard : Yard} {token : Token} {cause : Failure}
    (refused : yard.step token = .error cause) :
    (token.kind = .rightParen ∧ cause = .unmatchedClosing ∧
        ∀ token ∈ yard.stack, token.kind ≠ .leftParen) ∨
      (token.kind = .operator ∧ ∃ unknown ∈ token :: yard.stack,
        unknown.kind = .operator ∧ Operator.ofSymbol? unknown.text = none) := by
  cases kind : token.kind with
  | number =>
      rw [step_number yard kind] at refused
      cases refused
  | function =>
      rw [step_function yard kind] at refused
      cases refused
  | leftParen =>
      rw [step_leftParen yard kind] at refused
      cases refused
  | rightParen =>
      rw [step_rightParen yard kind] at refused
      exact Or.inl ⟨rfl, closeGroup_eq_error refused⟩
  | operator =>
      rw [step_operator yard kind, takeOperator] at refused
      refine Or.inr ⟨rfl, ?_⟩
      rcases bind_eq_error_iff.mp refused with unknown | ⟨level, -, rest⟩
      · exact ⟨token, List.mem_cons_self, kind,
          (Token.precedence_eq_error_iff.mp unknown).2 kind⟩
      · rcases bind_eq_error_iff.mp rest with releaseRefused | ⟨split, -, impossible⟩
        · obtain ⟨unknown, member, isUnknown⟩ := release_eq_error releaseRefused
          exact ⟨unknown, List.mem_cons_of_mem token member, isUnknown⟩
        · cases impossible

/-! ## The end -/

theorem finish_eq_ok_iff {yard : Yard} {ordered : List Token} :
    yard.finish = .ok ordered ↔
      (∀ token ∈ yard.stack, token.kind ≠ .leftParen) ∧
        ordered = yard.output.toList ++ yard.stack := by
  unfold finish
  by_cases groupOpen : yard.stack.any (fun token : Token => token.kind = .leftParen) = true
  · rw [if_pos groupOpen]
    obtain ⟨token, member, isOpening⟩ := List.any_eq_true.mp groupOpen
    constructor
    · intro impossible
      cases impossible
    · rintro ⟨noneOpen, -⟩
      exact absurd (of_decide_eq_true isOpening) (noneOpen token member)
  · rw [if_neg groupOpen]
    have noneOpen : ∀ token ∈ yard.stack, token.kind ≠ .leftParen := by
      simpa using groupOpen
    constructor
    · intro accepted
      cases accepted
      exact ⟨noneOpen, by simp⟩
    · rintro ⟨-, rfl⟩
      simp

theorem finish_eq_error {yard : Yard} {cause : Failure} (refused : yard.finish = .error cause) :
    cause = .unmatchedOpening := by
  unfold finish at refused
  split at refused
  · cases refused
    rfl
  · cases refused

end Yard

end PocketCalc
