import PocketCalc.Proofs.Evaluation.Entry
import PocketCalc.Proofs.PostOrder.Machine
import PocketCalc.Proofs.Yard.Frame

/-!
Contract: of an expression in parentheses only the value counts.

Owns:
- the tokens of a text around a group;
- two groups with the same value may stand for each other in every text.

Does not own: groups without a value.
-/

namespace PocketCalc

open PocketCalc.Stage

theorem Lexeme.lone_openingParen : Lone '(' :=
  ⟨boundary_iff.mpr (by decide), by decide⟩

theorem Lexeme.lone_closingParen : Lone ')' :=
  ⟨boundary_iff.mpr (by decide), by decide⟩

/-- A group's lexemes stand between its parentheses, and the other lexemes around them. -/
theorem Lexeme.split_group (before inner after : String) :
    split (before ++ "(" ++ inner ++ ")" ++ after) =
      split before ++ ("(" :: split inner ++ [")"]) ++ split after := by
  have opened := split_append_of_lone lone_openingParen (by decide) before inner
  have closed :=
    split_append_of_lone lone_closingParen (by decide) (before ++ "(" ++ inner) after
  have openingText : String.singleton '(' = "(" := by decide
  have closingText : String.singleton ')' = ")" := by decide
  rw [openingText] at opened
  rw [closingText, opened] at closed
  rw [closed]
  simp

/-- The tokens of a text around a group whose inside has tokens. -/
theorem Token.ofText_group {before inner after : String} {tokens : List Token}
    (lexed : ofText inner = .ok tokens) :
    ofText (before ++ "(" ++ inner ++ ")" ++ after) =
      ofText before >>= fun left => ofText after >>= fun right =>
        .ok (left ++ (opening :: tokens ++ [closing]) ++ right) := by
  have insideLexed : (Lexeme.split inner).mapM ofLexeme = .ok tokens := lexed
  have openingLexed : ofLexeme "(" = .ok opening := by decide +kernel
  have closingLexed : [")"].mapM ofLexeme = .ok [closing] := by decide +kernel
  rw [ofText, Lexeme.split_group, List.mapM_append, List.mapM_append, List.mapM_append,
    List.mapM_cons, openingLexed, insideLexed, closingLexed]
  unfold ofText
  cases (Lexeme.split before).mapM ofLexeme with
  | error cause => rfl
  | ok left =>
      cases (Lexeme.split after).mapM ofLexeme with
      | error cause => rfl
      | ok right => rfl

namespace Evaluation

/-- What surrounds two groups of the same value gives the same with both. -/
theorem ofText_group_congr {left right before after : String} {value : Float}
    (leftValued : ofText left = .ok value) (rightValued : ofText right = .ok value) :
    ofText (before ++ "(" ++ left ++ ")" ++ after) =
      ofText (before ++ "(" ++ right ++ ")" ++ after) := by
  obtain ⟨leftTokens, leftOrdered, leftLexed, leftReordered, leftValue⟩ :=
    ofText_eq_ok_iff.mp leftValued
  obtain ⟨rightTokens, rightOrdered, rightLexed, rightReordered, rightValue⟩ :=
    ofText_eq_ok_iff.mp rightValued
  rw [ofText_eq, ofText_eq, Token.ofText_group leftLexed, Token.ofText_group rightLexed]
  cases Token.ofText before with
  | error cause => rfl
  | ok tokensBefore =>
      cases Token.ofText after with
      | error cause => rfl
      | ok tokensAfter =>
          simp only [ok_bind]
          rcases PostOrder.ofTokens_group tokensBefore tokensAfter with
            ⟨cause, refused⟩ | ⟨front, back, accepted⟩
          · rw [refused leftTokens leftOrdered leftReordered,
              refused rightTokens rightOrdered rightReordered]
          · rw [accepted leftTokens leftOrdered leftReordered,
              accepted rightTokens rightOrdered rightReordered, ok_bind, ok_bind]
            exact PostOrder.value_replace leftValue rightValue front back

end Evaluation

/-- An expression in parentheses may be replaced by any other with the same value, in every text
around it: the whole has the same value, or fails for the same cause. -/
theorem group_replaceable {left right : String} {value : Float} (leftPresent : left ≠ "")
    (rightPresent : right ≠ "") (leftValued : evaluate (.text left) = .ok value)
    (rightValued : evaluate (.text right) = .ok value) (before after : String) :
    (Evaluation.run (.text (before ++ "(" ++ left ++ ")" ++ after))).result =
      (Evaluation.run (.text (before ++ "(" ++ right ++ ")" ++ after))).result := by
  have present : ∀ inner, before ++ "(" ++ inner ++ ")" ++ after ≠ "" := by
    intro inner empty
    have noCharacters := congrArg String.toList empty
    simp at noCharacters
  rw [evaluate_eq_ok_iff, Evaluation.result_run_text leftPresent] at leftValued
  rw [evaluate_eq_ok_iff, Evaluation.result_run_text rightPresent] at rightValued
  rw [Evaluation.result_run_text (present left), Evaluation.result_run_text (present right)]
  exact Evaluation.ofText_group_congr leftValued rightValued

/-- A text that even violates the infix grammar may stand for a number, also where the whole is
refused. -/
theorem misordered_difference_replaces_number :
    "1 2 −" ≠ "" ∧ "0−1" ≠ "" ∧
      evaluate (.text "1 2 −") = .ok (Number.ofMagnitude true 0x3ff0000000000000) ∧
      evaluate (.text "0−1") = .ok (Number.ofMagnitude true 0x3ff0000000000000) ∧
      (Evaluation.run (.text ("sin " ++ "(" ++ "1 2 −" ++ ")" ++ "^)"))).result =
        (Evaluation.run (.text ("sin " ++ "(" ++ "0−1" ++ ")" ++ "^)"))).result := by
  have leftValued :
      evaluate (.text "1 2 −") = .ok (Number.ofMagnitude true 0x3ff0000000000000) := by
    decide +kernel
  have rightValued :
      evaluate (.text "0−1") = .ok (Number.ofMagnitude true 0x3ff0000000000000) := by
    decide +kernel
  exact ⟨by decide, by decide, leftValued, rightValued,
    group_replaceable (by decide) (by decide) leftValued rightValued "sin " "^)"⟩

end PocketCalc
