import PocketCalc.Number.Binary.Fields
import PocketCalc.Proofs.Evaluation.Entry
import PocketCalc.Proofs.PostOrder.Machine
import PocketCalc.Proofs.Yard.Flow

/-!
Contract: all that an evaluation can give.

Owns:
- `Datum.Layer.Falsy`, the data that count as no expression, and `Explains`, the causes for which a
  text has no value with their reasons;
- the outcome of every evaluation, with its records: no text leads to a fault.

Does not own: when a particular cause other than an unknown lexeme arises.

A datum that counts and is no text comes to a fault, whose record holds the datum's written form.
Every datum has one, as the type bounds the digits of integers and the levels of lists and records.
-/

namespace PocketCalc

open PocketCalc.Stage PocketCalc.Lexeme

/-- The data that count as no expression. -/
inductive Datum.Layer.Falsy {Item : Type} : Datum.Layer Item → Prop where
  | emptyText : Falsy (.text "")
  | nothing : Falsy .nothing
  | falsehood : Falsy (.boolean false)
  | zero : Falsy (.integer 0 (by decide))
  | realZero (negative : Bool) : Falsy (.real (Number.ofMagnitude negative 0))
  | emptyList : Falsy (.list [])
  | emptyRecord : Falsy (.record [])

theorem Datum.Layer.isEmpty_iff_falsy {Item : Type} {datum : Datum.Layer Item} :
    datum.isEmpty = true ↔ datum.Falsy := by
  constructor
  · intro empty
    cases datum with
    | text content =>
        obtain rfl : content = "" := eq_of_beq empty
        exact .emptyText
    | nothing => exact .nothing
    | boolean truth =>
        cases truth with
        | false => exact .falsehood
        | true => cases empty
    | integer number short =>
        obtain rfl : number = 0 := eq_of_beq empty
        exact .zero
    | real number =>
        have noMagnitude : Number.magnitudeWord number = 0 := eq_of_beq empty
        rw [← Number.ofMagnitude_magnitudeWord number, noMagnitude]
        exact .realZero _
    | list items =>
        obtain rfl := List.isEmpty_iff.mp empty
        exact .emptyList
    | record fields =>
        obtain rfl := List.isEmpty_iff.mp empty
        exact .emptyRecord
  · intro falsy
    cases falsy with
    | realZero negative =>
        simp [isEmpty, Number.magnitudeWord_ofMagnitude (Nat.zero_le _)]
    | emptyText => rfl
    | nothing => rfl
    | falsehood => rfl
    | zero => rfl
    | emptyList => rfl
    | emptyRecord => rfl

namespace Evaluation

/-- The causes for which a text that is not empty has no value, each with its reason. -/
inductive Explains (expression : String) : Failure → String → Prop where
  | unknownSymbol {lexeme : String} : FirstUnknown (split expression) lexeme →
      Explains expression (.unknownSymbol lexeme) ("unknown symbol " ++ Text.quote lexeme)
  | unmatchedClosing : Explains expression .unmatchedClosing "unmatched ')'"
  | unmatchedOpening : Explains expression .unmatchedOpening "unmatched '('"
  | missingOperand (function : NamedFunction) :
      Explains expression (.missingOperand function.name) ("missing operand for " ++ function.name)
  | missingOperands (operator : Operator) :
      Explains expression (.missingOperands operator.symbol)
        ("missing operands for " ++ operator.symbol)
  | valuesLeft {count : Nat} : count ≠ 1 →
      Explains expression (.valuesLeft count)
        (toString count ++ " values left after evaluation, expected 1")

theorem Explains.reason_eq {expression reason : String} {cause : Failure}
    (explains : Explains expression cause reason) : cause.reason = reason := by
  cases explains <;> rfl

theorem Explains.failureMessage_eq {expression reason : String} {cause : Failure}
    (explains : Explains expression cause reason) :
    failureMessage (.text expression) cause =
      "Evaluation error in " ++ Text.quote expression ++ ": " ++ reason := by
  cases explains <;> rfl

/-- A text is refused by its lexemes, by its parentheses or by its operations. -/
theorem explains_of_ofText_eq_error {expression : String} {cause : Failure}
    (refused : ofText expression = .error cause) : ∃ reason, Explains expression cause reason := by
  rw [ofText_eq] at refused
  rcases bind_eq_error_iff.mp refused with unknown | ⟨tokens, lexed, rest⟩
  · obtain ⟨lexeme, first, rfl⟩ := Token.ofText_eq_error_iff.mp unknown
    exact ⟨_, .unknownSymbol first⟩
  · have proper := (Token.proper_of_ofText lexed).1
    rcases bind_eq_error_iff.mp rest with unmatched | ⟨ordered, reordered, noValue⟩
    · rcases PostOrder.unmatched_of_ofTokens_eq_error proper unmatched with rfl | rfl
      · exact ⟨_, .unmatchedClosing⟩
      · exact ⟨_, .unmatchedOpening⟩
    · have orderedProper := PostOrder.forall_mem_of_ofTokens proper reordered
      rcases PostOrder.value_eq_error orderedProper noValue with
        ⟨function, rfl⟩ | ⟨operator, rfl⟩ | ⟨count, notOne, rfl⟩
      · exact ⟨_, .missingOperand function⟩
      · exact ⟨_, .missingOperands operator⟩
      · exact ⟨_, .valuesLeft notOne⟩

theorem ofText_eq_unknownSymbol_iff {expression lexeme : String} :
    ofText expression = .error (.unknownSymbol lexeme) ↔
      FirstUnknown (split expression) lexeme := by
  constructor
  · intro refused
    obtain ⟨reason, explains⟩ := explains_of_ofText_eq_error refused
    cases explains with
    | unknownSymbol first => exact first
  · intro first
    have unknown : Token.ofText expression = .error (.unknownSymbol lexeme) :=
      Token.ofText_eq_error_iff.mpr ⟨lexeme, first, rfl⟩
    rw [ofText_eq, unknown]
    rfl

theorem run_of_falsy {datum : Datum} (falsy : datum.Falsy) : run datum = ⟨.ok 0.0, []⟩ := by
  rw [run, if_pos (Datum.Layer.isEmpty_iff_falsy.mpr falsy)]

/-- A text that is not empty has a value, or fails for a cause with one record of its reason. -/
theorem run_text_eq_or {expression : String} (nonempty : expression ≠ "") :
    (∃ value, run (.text expression) = ⟨.ok value, []⟩) ∨
      ∃ cause reason, Explains expression cause reason ∧ cause.reason = reason ∧
        run (.text expression) = ⟨.error cause, [⟨.engine, .error,
          "Evaluation error in " ++ Text.quote expression ++ ": " ++ reason⟩]⟩ := by
  rw [run_text nonempty]
  cases evaluated : ofText expression with
  | ok value => exact Or.inl ⟨value, rfl⟩
  | error cause =>
      obtain ⟨reason, explains⟩ := explains_of_ofText_eq_error evaluated
      refine Or.inr ⟨cause, reason, explains, explains.reason_eq, ?_⟩
      rw [← explains.failureMessage_eq]

/-- A fault is what a datum that counts and is no text leads to, and nothing else. -/
theorem exists_fault_iff {datum : Datum} :
    (∃ fault, (run datum).result = .error (.internal fault)) ↔
      ¬datum.Falsy ∧ ∀ expression, datum ≠ .text expression := by
  by_cases falsy : datum.Falsy
  · rw [run_of_falsy falsy]
    simp [falsy]
  · have present : ¬datum.isEmpty = true := mt Datum.Layer.isEmpty_iff_falsy.mp falsy
    cases datum with
    | text expression =>
        have nonempty : expression ≠ "" := by
          rintro rfl
          exact falsy .emptyText
        constructor
        · rintro ⟨fault, failed⟩
          rw [result_run_text nonempty] at failed
          obtain ⟨reason, explains⟩ := explains_of_ofText_eq_error failed
          cases explains
        · rintro ⟨-, noText⟩
          exact absurd rfl (noText expression)
    | nothing => exact absurd .nothing falsy
    | boolean truth | integer number short | real number | list items | record fields =>
        rw [run, if_neg present]
        simp [falsy, ofDatum, Datum.Layer.asText]

theorem result_run_text_eq_unknownSymbol_iff {expression lexeme : String} :
    (run (.text expression)).result = .error (.unknownSymbol lexeme) ↔
      FirstUnknown (split expression) lexeme := by
  by_cases nonempty : expression ≠ ""
  · rw [result_run_text nonempty, ofText_eq_unknownSymbol_iff]
  · obtain rfl : expression = "" := not_not.mp nonempty
    rw [run_of_falsy .emptyText]
    constructor
    · intro impossible
      cases impossible
    · rintro ⟨before, after, divided, -⟩
      have noLexemes : split "" = [] := by decide
      rw [noLexemes] at divided
      simp at divided

end Evaluation

/-- Every evaluation comes out in one of the ways that its datum allows.

Data that count as no expression are zero, and only those other than texts lead to a fault. Every
other text has a value and leaves no record, or fails for one of six causes and leaves one record;
an unknown lexeme is the cause exactly if there is one, and then the leftmost. The entry point with
one error fails exactly if the evaluation does. -/
theorem evaluation_outcomes :
    (∀ datum : Datum, datum.Falsy → Evaluation.run datum = ⟨.ok 0.0, []⟩) ∧
      (∀ datum : Datum, (∃ fault, (Evaluation.run datum).result = .error (.internal fault)) ↔
        ¬datum.Falsy ∧ ∀ expression, datum ≠ .text expression) ∧
      (∀ expression ≠ "",
        (∃ value, Evaluation.run (.text expression) = ⟨.ok value, []⟩) ∨
          ∃ cause reason, Evaluation.Explains expression cause reason ∧ cause.reason = reason ∧
            Evaluation.run (.text expression) = ⟨.error cause, [⟨.engine, .error,
              "Evaluation error in " ++ Text.quote expression ++ ": " ++ reason⟩]⟩) ∧
      (∀ expression lexeme,
        (Evaluation.run (.text expression)).result = .error (.unknownSymbol lexeme) ↔
          FirstUnknown (split expression) lexeme) ∧
      (∀ datum, evaluate datum = .error ⟨⟩ ↔
        ∃ cause, (Evaluation.run datum).result = .error cause) ∧
      ∀ datum value, evaluate datum = .ok value ↔ (Evaluation.run datum).result = .ok value := by
  refine ⟨fun datum => Evaluation.run_of_falsy, fun datum => Evaluation.exists_fault_iff,
    fun expression => Evaluation.run_text_eq_or, ?_, ?_, ?_⟩
  · intro expression lexeme
    exact Evaluation.result_run_text_eq_unknownSymbol_iff
  · intro datum
    exact evaluate_eq_error_iff
  · intro datum value
    exact evaluate_eq_ok_iff

/-- Of two lexemes without a meaning the first is the cause, an empty list counts as zero, and an
integer other than zero leads to a fault. -/
theorem first_of_two_unknown_lexemes_explains :
    "2+$ x" ≠ "" ∧ (.list [] : Datum).Falsy ∧ Evaluation.run (.list []) = ⟨.ok 0.0, []⟩ ∧
      FirstUnknown (split "2+$ x") "$" ∧
      (Evaluation.run (.text "2+$ x")).result = .error (.unknownSymbol "$") ∧
      ∃ fault, (Evaluation.run (.integer 7 (by decide))).result = .error (.internal fault) := by
  have refused : Token.ofText "2+$ x" = .error (.unknownSymbol "$") := by decide +kernel
  have first : FirstUnknown (split "2+$ x") "$" := by
    obtain ⟨lexeme, isFirst, same⟩ := Token.ofText_eq_error_iff.mp refused
    cases same
    exact isFirst
  obtain ⟨emptyIsZero, faultIff, -, unknownIff, -⟩ := evaluation_outcomes
  exact ⟨by decide, .emptyList, emptyIsZero _ .emptyList, first, (unknownIff _ _).mpr first,
    (faultIff _).mpr ⟨nofun, nofun⟩⟩

end PocketCalc
