import Mathlib.Data.List.Perm.Basic
import PocketCalc.Proofs.Yard.Flow

/-!
Contract: the yard neither loses nor doubles a token that is no parenthesis.

Owns:
- `Token.groups`, which tells parentheses from the other tokens, and the tokens that a yard holds;
- what a step and a run do to the tokens held, up to their order;
- the reordered tokens are the input's tokens without the parentheses, up to their order.

Does not own: the order itself; see `Yard/Grouping` and `Yard/Operand`.
-/

namespace PocketCalc

open PocketCalc.Stage

/-- Whether a token is a parenthesis, which groups other tokens and is no part of their order. -/
def Token.groups (token : Token) : Bool := token.kind = .leftParen ∨ token.kind = .rightParen

/-- Tokens without the parentheses among them. -/
def Token.ungrouped (tokens : List Token) : List Token := tokens.filter (!·.groups)

namespace Token

theorem ungrouped_append (left right : List Token) :
    ungrouped (left ++ right) = ungrouped left ++ ungrouped right :=
  List.filter_append left right

theorem ungrouped_perm {left right : List Token} (perm : left.Perm right) :
    (ungrouped left).Perm (ungrouped right) :=
  perm.filter _

end Token

namespace Yard

/-- All tokens of the yard, in the output and waiting. -/
def held (yard : Yard) : List Token := yard.output.toList ++ yard.stack

theorem held_takeFunction_perm (output : Array Token) (stack : List Token) :
    (takeFunction output stack).held.Perm (output.toList ++ stack) := by
  rcases takeFunction_eq_or output stack with same | ⟨function, below, rfl, -, taken⟩
  · rw [same]
    exact List.Perm.refl _
  · rw [taken]
    simp [held]

/-- A step adds its token to those held; only parentheses can leave. -/
theorem ungrouped_held_of_step {yard next : Yard} {token : Token}
    (stepped : yard.step token = .ok next) :
    (Token.ungrouped next.held).Perm (Token.ungrouped (yard.held ++ [token])) := by
  obtain ⟨output, stack⟩ := yard
  have toEnd (waiting : List Token) : (token :: waiting).Perm (waiting ++ [token]) :=
    (List.perm_append_singleton token waiting).symm
  rcases step_eq_ok stepped with ⟨-, rfl⟩ | ⟨-, rfl⟩ |
    ⟨isClosing, inner, opening, below, stackEq, -, isOpening, rfl⟩ |
    ⟨-, level, released, kept, -, stackEq, -, -, rfl⟩
  · apply Token.ungrouped_perm
    simpa [held] using (toEnd stack).append_left output.toList
  · apply Token.ungrouped_perm
    simpa [held] using (toEnd stack).append_left output.toList
  · dsimp only at stackEq
    subst stackEq
    -- The opening leaves the stack, the closing never enters it, and neither is counted.
    have before : Token.ungrouped ((⟨output, inner ++ opening :: below⟩ : Yard).held ++ [token]) =
        Token.ungrouped ((output ++ inner).toList ++ below) := by
      simp [held, Token.ungrouped, Token.groups, isOpening, isClosing]
    rw [before]
    exact Token.ungrouped_perm (held_takeFunction_perm (output ++ inner) below)
  · dsimp only at stackEq
    subst stackEq
    apply Token.ungrouped_perm
    simpa [held] using ((toEnd kept).append_left released).append_left output.toList

theorem ungrouped_held_of_run {yard final : Yard} {tokens : List Token}
    (ran : tokens.foldlM step yard = .ok final) :
    (Token.ungrouped final.held).Perm (Token.ungrouped (yard.held ++ tokens)) := by
  have start : (Token.ungrouped yard.held).Perm (Token.ungrouped (yard.held ++ [])) := by
    rw [List.append_nil]
  refine foldlM_follows
    (fun read reached => (Token.ungrouped reached.held).Perm (Token.ungrouped (yard.held ++ read)))
    (fun read token reached next conserved stepped => ?_) start ran
  have extended := conserved.append_right (Token.ungrouped [token])
  rw [← Token.ungrouped_append, ← Token.ungrouped_append, List.append_assoc] at extended
  exact (ungrouped_held_of_step stepped).trans extended

end Yard

namespace PostOrder

/-- The reordered tokens are the tokens of the input without the parentheses, up to their order. -/
theorem perm_ungrouped_of_ofTokens {tokens ordered : List Token}
    (reordered : ofTokens tokens = .ok ordered) : ordered.Perm (Token.ungrouped tokens) := by
  obtain ⟨yard, ran, finished⟩ := bind_eq_ok_iff.mp reordered
  obtain ⟨-, orderedEq⟩ := Yard.finish_eq_ok_iff.mp finished
  have conserved := Yard.ungrouped_held_of_run ran
  have fromInput : ∀ token ∈ tokens, token ∈ tokens := fun _ member => member
  have outside := forall_mem_of_ofTokens fromInput reordered
  have nothingGroups : Token.ungrouped ordered = ordered := by
    rw [Token.ungrouped, List.filter_eq_self]
    intro token member
    obtain ⟨-, notOpening, notClosing⟩ := outside token member
    simp [Token.groups, notOpening, notClosing]
  rw [Yard.held, ← orderedEq, nothingGroups] at conserved
  exact conserved

end PostOrder

end PocketCalc
