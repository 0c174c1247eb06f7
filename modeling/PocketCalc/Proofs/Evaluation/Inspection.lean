import PocketCalc.Proofs.Evaluation.ReadBack
import PocketCalc.Proofs.Yard.Flow

/-!
Contract: the texts of an expression in post-order, as an expression of their own.

Owns:
- texts that are lexemes, joined by spaces, which are split into these texts again;
- `Token.Spelled`, the tokens that their own text stands for, and all tokens of an expression are
  such;
- the texts in post-order stand for the tokens in post-order, and these have the expression's value.

Does not own: which order the tokens are put into; see `Yard/Grouping`.
-/

namespace PocketCalc

open PocketCalc.Stage

/-! ## Lexemes joined by spaces -/

namespace Lexeme

/-- A lexeme that means something is its own only lexeme. -/
theorem split_of_known {lexeme : String} (known : Known lexeme) : split lexeme = [lexeme] := by
  cases known with
  | number numeral => exact split_of_isNumeral numeral
  | function function => cases function <;> decide +kernel
  | opening => decide +kernel
  | closing => decide +kernel
  | operator operator => cases operator <;> decide +kernel

/-- Texts that are their own only lexemes are the lexemes of the texts joined by spaces. -/
theorem split_intercalate {texts : List String} (lexemes : ∀ text ∈ texts, split text = [text]) :
    split (" ".intercalate texts) = texts := by
  induction texts with
  | nil => decide +kernel
  | cons text texts inductionHypothesis =>
      have alone := lexemes text List.mem_cons_self
      have further := inductionHypothesis fun other member =>
        lexemes other (List.mem_cons_of_mem text member)
      cases texts with
      | nil => rw [String.intercalate_singleton, alone]
      | cons next rest =>
          rw [String.intercalate_cons_cons, split_append_space, alone, further,
            List.singleton_append]

end Lexeme

/-! ## Tokens and their texts -/

namespace Token

/-- Whether the text of a token is a lexeme, and stands for the token. -/
structure Spelled (token : Token) : Prop where
  alone : Lexeme.split token.text = [token.text]
  lexed : ofLexeme token.text = .ok token

theorem text_of_ofLexeme {lexeme : String} {token : Token}
    (lexed : ofLexeme lexeme = .ok token) : token.text = lexeme := by
  unfold ofLexeme at lexed
  split at lexed
  · cases lexed
  · split at lexed
    · cases lexed
      rfl
    · split at lexed
      · rename_i named
        cases lexed
        exact NamedFunction.ofName?_eq_some_iff.mp named
      · split at lexed
        · rename_i isOpening
          cases lexed
          exact isOpening.symm
        · split at lexed
          · rename_i isClosing
            cases lexed
            exact isClosing.symm
          · split at lexed
            · rename_i found
              cases lexed
              exact Operator.ofSymbol?_eq_some_iff.mp found
            · cases lexed

/-- The tokens of an expression are spelled by their texts. -/
theorem spelled_of_ofText {expression : String} {tokens : List Token}
    (lexed : ofText expression = .ok tokens) : ∀ token ∈ tokens, token.Spelled := by
  refine forall_mem_of_mapM_eq_ok ?_ lexed
  intro lexeme member token made
  have known := (exists_ofLexeme_iff_known member).mp ⟨token, made⟩
  have textEq := text_of_ofLexeme made
  exact ⟨by rw [textEq, Lexeme.split_of_known known], by rw [textEq, made]⟩

/-- Tokens spelled by their texts are the tokens of these texts joined by spaces. -/
theorem ofText_intercalate {tokens : List Token} (spelled : ∀ token ∈ tokens, token.Spelled) :
    ofText (" ".intercalate (tokens.map text)) = .ok tokens := by
  have alone : ∀ lexeme ∈ tokens.map text, Lexeme.split lexeme = [lexeme] := by
    intro lexeme member
    obtain ⟨token, inTokens, rfl⟩ := List.mem_map.mp member
    exact (spelled token inTokens).alone
  rw [ofText, Lexeme.split_intercalate alone]
  clear alone
  induction tokens with
  | nil => rfl
  | cons token tokens inductionHypothesis =>
      have lexed := (spelled token List.mem_cons_self).lexed
      have further := inductionHypothesis fun other member =>
        spelled other (List.mem_cons_of_mem token member)
      exact mapM_cons_eq_ok_iff.mpr ⟨token, tokens, lexed, further, rfl⟩

end Token

namespace PostOrder

theorem ofText_eq_ok_iff {expression : String} {ordered : List Token} :
    ofText expression = .ok ordered ↔
      ∃ tokens, Token.ofText expression = .ok tokens ∧ ofTokens tokens = .ok ordered :=
  bind_eq_ok_iff

/-- The tokens of an expression are spelled by their texts in post-order too. -/
theorem spelled_of_ofText {expression : String} {ordered : List Token}
    (reordered : ofText expression = .ok ordered) : ∀ token ∈ ordered, token.Spelled := by
  obtain ⟨tokens, lexed, orderedEq⟩ := ofText_eq_ok_iff.mp reordered
  intro token member
  exact (forall_mem_of_ofTokens (Token.spelled_of_ofText lexed) orderedEq token member).1

end PostOrder

theorem postOrderTexts_eq_ok_iff {expression : String} {texts : List String} :
    postOrderTexts expression = .ok texts ↔
      ∃ ordered, PostOrder.ofText expression = .ok ordered ∧ ordered.map Token.text = texts := by
  unfold postOrderTexts
  cases PostOrder.ofText expression <;> simp

theorem postOrderTexts_eq_error_iff {expression : String} :
    postOrderTexts expression = .error ⟨⟩ ↔
      ∃ cause, PostOrder.ofText expression = .error cause := by
  unfold postOrderTexts
  cases PostOrder.ofText expression <;> simp

/-- The texts in post-order carry the whole meaning of an expression. Without them it has no value.
With them, the tokens that the texts stand for one by one, which are the tokens of the texts joined
by spaces, are those that the expression's tokens were put into the order of, and the expression has
their value, or fails for the same cause. -/
theorem postOrderTexts_carry_the_meaning {expression : String} (present : expression ≠ "") :
    (postOrderTexts expression = .error ⟨⟩ → evaluate (.text expression) = .error ⟨⟩) ∧
      ∀ texts, postOrderTexts expression = .ok texts →
        ∃ tokens ordered, Token.ofText expression = .ok tokens ∧
          PostOrder.ofTokens tokens = .ok ordered ∧
          texts = ordered.map Token.text ∧
          Token.ofText (" ".intercalate texts) = .ok ordered ∧
          (∀ token ∈ ordered, Token.ofLexeme token.text = .ok token) ∧
          (Evaluation.run (.text expression)).result = PostOrder.value ordered := by
  constructor
  · intro refused
    obtain ⟨cause, reorderRefused⟩ := postOrderTexts_eq_error_iff.mp refused
    rw [evaluate_eq_error_iff, Evaluation.result_run_text present, Evaluation.ofText,
      reorderRefused]
    exact ⟨cause, rfl⟩
  · intro texts shown
    obtain ⟨ordered, reordered, rfl⟩ := postOrderTexts_eq_ok_iff.mp shown
    obtain ⟨tokens, lexed, orderedEq⟩ := PostOrder.ofText_eq_ok_iff.mp reordered
    have spelled := PostOrder.spelled_of_ofText reordered
    refine ⟨tokens, ordered, lexed, orderedEq, rfl, Token.ofText_intercalate spelled,
      fun token member => (spelled token member).lexed, ?_⟩
    rw [Evaluation.result_run_text present, Evaluation.ofText, reordered]
    rfl

/-- A number that ends in its point and the circle constant are read from their texts again, also
where an operand is missing. -/
theorem pointed_number_and_circle_constant_are_spelled :
    let texts := ["7.", "3.141592653589793", "2", "+", "9", "-", "sqrt", "*", "-"]
    postOrderTexts "7.−(π+2)×√9−" = .ok texts ∧
      ∃ ordered, texts = ordered.map Token.text ∧
        Token.ofText "7. 3.141592653589793 2 + 9 - sqrt * -" = .ok ordered ∧
        (Evaluation.run (.text "7.−(π+2)×√9−")).result = PostOrder.value ordered := by
  intro texts
  have shown : postOrderTexts "7.−(π+2)×√9−" = .ok texts := by decide +kernel
  have joined : " ".intercalate texts = "7. 3.141592653589793 2 + 9 - sqrt * -" := by
    decide +kernel
  obtain ⟨tokens, ordered, -, -, textsEq, relexed, -, valued⟩ :=
    (postOrderTexts_carry_the_meaning (by decide)).2 texts shown
  rw [joined] at relexed
  exact ⟨shown, ordered, textsEq, relexed, valued⟩

end PocketCalc
