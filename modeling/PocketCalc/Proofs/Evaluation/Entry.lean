import PocketCalc.Evaluation
import PocketCalc.Proofs.Stage

/-!
Contract: the entry points in terms of the stages.

Owns:
- the evaluation of a text that is not empty as its tokens, their post-order and its value;
- the entry point whose only error is `InvalidExpression` in terms of the evaluation.

Does not own: what the stages give; see `Yard/Grouping` and `Evaluation/Outcome`.
-/

namespace PocketCalc

open PocketCalc.Stage

theorem evaluate_eq_ok_iff {datum : Datum} {value : Float} :
    evaluate datum = .ok value ↔ (Evaluation.run datum).result = .ok value := by
  unfold evaluate
  cases (Evaluation.run datum).result <;> simp

theorem evaluate_eq_error_iff {datum : Datum} :
    evaluate datum = .error ⟨⟩ ↔ ∃ cause, (Evaluation.run datum).result = .error cause := by
  unfold evaluate
  cases (Evaluation.run datum).result <;> simp

namespace Evaluation

theorem ofText_eq (expression : String) :
    ofText expression =
      Token.ofText expression >>= fun tokens => PostOrder.ofTokens tokens >>= PostOrder.value := by
  unfold ofText PostOrder.ofText
  cases Token.ofText expression <;> rfl

theorem ofText_eq_ok_iff {expression : String} {value : Float} :
    ofText expression = .ok value ↔
      ∃ tokens ordered, Token.ofText expression = .ok tokens ∧
        PostOrder.ofTokens tokens = .ok ordered ∧ PostOrder.value ordered = .ok value := by
  rw [ofText_eq]
  simp only [bind_eq_ok_iff]
  constructor
  · rintro ⟨tokens, tokensEq, ordered, orderedEq, valueEq⟩
    exact ⟨tokens, ordered, tokensEq, orderedEq, valueEq⟩
  · rintro ⟨tokens, ordered, tokensEq, orderedEq, valueEq⟩
    exact ⟨tokens, tokensEq, ordered, orderedEq, valueEq⟩

theorem run_text {expression : String} (nonempty : expression ≠ "") :
    run (.text expression) =
      match ofText expression with
      | .ok value => ⟨.ok value, []⟩
      | .error cause =>
          ⟨.error cause, [⟨.engine, .error, failureMessage (.text expression) cause⟩]⟩ := by
  have present : ¬Datum.Layer.isEmpty (.text expression : Datum) = true := by
    simpa [Datum.Layer.isEmpty] using nonempty
  rw [run, if_neg present]
  rfl

theorem result_run_text {expression : String} (nonempty : expression ≠ "") :
    (run (.text expression)).result = ofText expression := by
  rw [run_text nonempty]
  cases ofText expression <;> rfl

theorem ne_empty_of_ofText_eq {expression : String} {first : Token} {further : List Token}
    (tokens : Token.ofText expression = .ok (first :: further)) : expression ≠ "" := by
  rintro rfl
  have none : Token.ofText "" = .ok [] := by decide
  rw [none] at tokens
  cases tokens

end Evaluation

/-- A text whose tokens have a value has that value. -/
theorem evaluate_of_stages {expression : String} {tokens ordered : List Token} {value : Float}
    (lexed : Token.ofText expression = .ok tokens) (present : tokens ≠ [])
    (reordered : PostOrder.ofTokens tokens = .ok ordered)
    (valued : PostOrder.value ordered = .ok value) : evaluate (.text expression) = .ok value := by
  obtain ⟨first, further, rfl⟩ := List.exists_cons_of_ne_nil present
  rw [evaluate_eq_ok_iff, Evaluation.result_run_text (Evaluation.ne_empty_of_ofText_eq lexed),
    Evaluation.ofText_eq_ok_iff]
  exact ⟨first :: further, ordered, lexed, reordered, valued⟩

end PocketCalc
