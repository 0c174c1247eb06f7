import PocketCalc.Proofs.Yard.Flow

/-!
Contract: how many groups are open in the yard, and which tokens it can take.

Owns:
- `Token.tally`, how many tokens are of a kind, and `Token.Named`, the tokens other than operators
  that do not exist;
- what a step does to the openings that wait;
- the tokens that a step takes: all that are named, but a closing only while a group is open.

Does not own: which whole sequences are taken; see `Yard/Outcome`.
-/

namespace PocketCalc

open PocketCalc.Stage

namespace Token

/-- How many tokens are of a kind. -/
def tally (kind : Kind) (tokens : List Token) : Nat := tokens.countP (·.kind = kind)

@[simp]
theorem tally_nil (kind : Kind) : tally kind [] = 0 := rfl

@[simp]
theorem tally_cons (kind : Kind) (token : Token) (rest : List Token) :
    tally kind (token :: rest) = tally kind rest + if token.kind = kind then 1 else 0 := by
  simp [tally, List.countP_cons]

@[simp]
theorem tally_append (kind : Kind) (left right : List Token) :
    tally kind (left ++ right) = tally kind left + tally kind right :=
  List.countP_append

theorem tally_snoc (kind : Kind) (tokens : List Token) (token : Token) :
    tally kind (tokens ++ [token]) = tally kind tokens + if token.kind = kind then 1 else 0 := by
  rw [tally_append, tally_cons, tally_nil, Nat.zero_add]

theorem tally_eq_zero_iff {kind : Kind} {tokens : List Token} :
    tally kind tokens = 0 ↔ ∀ token ∈ tokens, token.kind ≠ kind := by
  simp [tally, List.countP_eq_zero]

/-- Whether a token is no operator or one that exists. -/
def Named (token : Token) : Prop :=
  token.kind = .operator → Operator.ofSymbol? token.text ≠ none

theorem Proper.named {token : Token} (proper : token.Proper) : token.Named :=
  proper.ofSymbol?_ne_none

end Token

namespace Yard

open Token

theorem tally_takeFunction (output : Array Token) (stack : List Token) :
    tally .leftParen (takeFunction output stack).stack = tally .leftParen stack := by
  rcases takeFunction_eq_or output stack with same | ⟨function, below, rfl, isFunction, taken⟩
  · rw [same]
  · rw [taken]
    simp [isFunction]

/-- An opening adds a group to those that are open, and a closing takes one away. -/
theorem tally_stack_of_step {yard next : Yard} {token : Token}
    (stepped : yard.step token = .ok next) :
    tally .leftParen next.stack + (if token.kind = .rightParen then 1 else 0) =
      tally .leftParen yard.stack + if token.kind = .leftParen then 1 else 0 := by
  rcases step_eq_ok stepped with ⟨isNumber, rfl⟩ | ⟨waits, rfl⟩ |
    ⟨isClosing, inner, opening, below, stackEq, innerOpen, isOpening, rfl⟩ |
    ⟨isOperator, level, released, kept, -, stackEq, binds, -, rfl⟩
  · simp [isNumber]
  · rcases waits with isFunction | isOpening
    · simp [isFunction]
    · simp [isOpening]
  · rw [tally_takeFunction, stackEq, tally_append, tally_eq_zero_iff.mpr innerOpen]
    simp [isClosing, isOpening]
  · have noneReleased : tally .leftParen released = 0 := by
      refine tally_eq_zero_iff.mpr fun other member => ?_
      simp [(binds other member).1]
    rw [stackEq, tally_append, noneReleased]
    simp [isOperator]

/-- A token is taken if the operators at hand exist, and if a closing finds an open group. -/
theorem exists_step {yard : Yard} {token : Token} (named : token.Named)
    (stackNamed : ∀ waiting ∈ yard.stack, waiting.Named)
    (groupOpen : token.kind = .rightParen → 0 < tally .leftParen yard.stack) :
    ∃ next, yard.step token = .ok next := by
  cases stepped : yard.step token with
  | ok next => exact ⟨next, rfl⟩
  | error cause =>
      rcases step_eq_error stepped with ⟨isClosing, -, noneOpen⟩ |
        ⟨-, unknown, member, isOperator, notFound⟩
      · have positive := groupOpen isClosing
        rw [tally_eq_zero_iff.mpr noneOpen] at positive
        cases positive
      · rcases List.mem_cons.mp member with rfl | inStack
        · exact absurd notFound (named isOperator)
        · exact absurd notFound (stackNamed unknown inStack isOperator)

end Yard

end PocketCalc
