import PocketCalc.Calculator
import PocketCalc.Proofs.Display.Shown
import PocketCalc.Proofs.Evaluation.Outcome

/-!
Contract: what one press does, and what a run of entries adds to an expression.

Owns:
- checks of a property for every entry, and the text that a run of entries spells;
- both ends of a calculation, with the records;
- `ErrorFree`, texts that are never taken for the error text, which every press keeps;
- `Mirrors`, calculators that show an expression, and what a press that is no calculation leaves.

Does not own: whole runs; see `Calculator/Invariant` and `Calculator/Typing`.
-/

namespace PocketCalc

open PocketCalc.Stage

/-! ## Entries -/

/-- The entries among the keys of the keypad, which are all there are. -/
def Keypad.entries : List Entry :=
  keys.filterMap fun
    | .entry entry => some entry
    | _ => none

theorem Keypad.mem_entries (entry : Entry) : entry ∈ entries :=
  List.mem_filterMap.mpr ⟨.entry entry, mem_keys (.entry entry), rfl⟩

/-- What holds of every entry can be checked key by key. -/
instance Entry.decidableForall {Holds : Entry → Prop} [DecidablePred Holds] :
    Decidable (∀ entry, Holds entry) :=
  decidable_of_iff (∀ entry ∈ Keypad.entries, Holds entry)
    ⟨fun checked entry => checked entry (Keypad.mem_entries entry), fun holds entry _ => holds entry⟩

theorem Entry.text_ne_empty : ∀ entry : Entry, entry.text ≠ "" := by
  decide

theorem Entry.text_ne_point : ∀ entry : Entry, entry ≠ .point → entry.text ≠ "." := by
  decide

/-- The text that a run of entries spells: the texts of the entries one behind the other. -/
def Entry.typed : List Entry → String
  | [] => ""
  | entry :: rest => entry.text ++ typed rest

theorem Entry.typed_append (left right : List Entry) :
    typed (left ++ right) = typed left ++ typed right := by
  induction left with
  | nil => exact String.empty_append.symm
  | cons entry rest inductionHypothesis =>
      rw [List.cons_append, typed, typed, inductionHypothesis, String.append_assoc]

/-! ## Calculations -/

theorem Evaluation.log_run_of_value {datum : Datum} {value : Float}
    (valued : (run datum).result = .ok value) : (run datum).log = [] := by
  unfold run at valued ⊢
  split
  · rfl
  · rename_i present
    rw [if_neg present] at valued
    cases evaluated : ofDatum datum with
    | ok result => rfl
    | error cause =>
        rw [evaluated] at valued
        cases valued

namespace Calculator

variable {calculator : Calculator}

/-- A calculation that succeeds leaves the text of the value, and one record of it. -/
theorem calculate_of_value {value : Float}
    (valued : evaluate (.text calculator.expression) = .ok value) :
    calculator.calculate =
      (⟨Number.positionalText value, Display.ofText (Number.positionalText value)⟩,
        [⟨.calculator, .debug,
          Text.quote calculator.expression ++ " = " ++ Number.positionalText value⟩]) := by
  have result := evaluate_eq_ok_iff.mp valued
  rw [calculate, result, Evaluation.log_run_of_value result]
  rfl

/-- A calculation that fails leaves the error text, and one record of the cause. -/
theorem calculate_of_error (refused : evaluate (.text calculator.expression) = .error ⟨⟩) :
    ∃ cause reason, Evaluation.Explains calculator.expression cause reason ∧
      (Evaluation.run (.text calculator.expression)).result = .error cause ∧
      calculator.calculate = (⟨"", errorText⟩, [⟨.engine, .error,
        "Evaluation error in " ++ Text.quote calculator.expression ++ ": " ++ reason⟩]) := by
  obtain ⟨cause, failed⟩ := evaluate_eq_error_iff.mp refused
  have present : calculator.expression ≠ "" := by
    intro empty
    rw [empty, Evaluation.run_of_falsy .emptyText] at failed
    cases failed
  rcases Evaluation.run_text_eq_or present with ⟨value, succeeded⟩ |
    ⟨other, reason, explains, -, outcome⟩
  · rw [succeeded] at failed
    cases failed
  · refine ⟨other, reason, explains, by rw [outcome], ?_⟩
    rw [calculate, outcome]

theorem press_equals_of_value {value : Float}
    (valued : evaluate (.text calculator.expression) = .ok value) :
    (calculator.press .equals).1 =
      ⟨Number.positionalText value, Display.ofText (Number.positionalText value)⟩ :=
  congrArg Prod.fst (calculate_of_value valued)

theorem press_equals_of_error (refused : evaluate (.text calculator.expression) = .error ⟨⟩) :
    (calculator.press .equals).1 = ⟨"", errorText⟩ := by
  obtain ⟨cause, reason, -, -, outcome⟩ := calculate_of_error refused
  exact congrArg Prod.fst outcome

/-! ## Texts that are not the error text -/

/-- Whether a text has no letter E, with which the error text starts. No key writes that letter, and
no result has it. -/
def ErrorFree (text : String) : Prop := 'E' ∉ text.toList

theorem ErrorFree.ne_errorText {text : String} (errorFree : ErrorFree text) : text ≠ errorText := by
  rintro rfl
  exact absurd errorFree (by unfold ErrorFree; decide)

theorem ErrorFree.append {left right : String} (leftFree : ErrorFree left)
    (rightFree : ErrorFree right) : ErrorFree (left ++ right) := by
  rw [ErrorFree, String.toList_append, List.mem_append]
  exact not_or.mpr ⟨leftFree, rightFree⟩

theorem errorFree_entry : ∀ entry : Entry, ErrorFree entry.text := by
  unfold ErrorFree
  decide

theorem errorFree_positionalText (value : Float) : ErrorFree (Number.positionalText value) := by
  intro member
  rcases Number.mem_positionalText member with plain | isLetter
  · exact absurd plain.toNat_le (by decide)
  · exact absurd isLetter (by decide)

/-! ## The other presses -/

/-- What holds of a text, of a text behind an expression and of a zero with a point holds of the
expression after the text is appended. -/
theorem extended_of (Holds : String → Prop) {text : String} (starts : Holds text)
    (zeroPoint : Holds "0.") (continues : Holds (calculator.expression ++ text)) :
    Holds (calculator.extended text) := by
  unfold extended
  split
  · exact starts
  · split
    · exact zeroPoint
    · exact continues

/-- Whether a calculator has an expression that is not taken for the error text, and shows it. -/
structure Mirrors (calculator : Calculator) : Prop where
  present : calculator.expression ≠ ""
  errorFree : ErrorFree calculator.expression
  shown : calculator.display = calculator.expression

theorem mirrors_append (errorFree : ErrorFree calculator.expression) (entry : Entry) :
    Mirrors (calculator.append entry.text) := by
  have entryFree := errorFree_entry entry
  constructor
  · refine extended_of (· ≠ "") entry.text_ne_empty (by decide) ?_
    exact fun empty => entry.text_ne_empty (String.append_eq_empty_iff.mp empty).2
  · exact extended_of ErrorFree entryFree (by unfold ErrorFree; decide) (errorFree.append entryFree)
  · rfl

theorem backspace_eq_new_or_mirrors (errorFree : ErrorFree calculator.expression) :
    calculator.backspace = new ∨ Mirrors calculator.backspace := by
  by_cases empty : String.ofList calculator.expression.toList.dropLast = ""
  · left
    rw [backspace, if_pos empty, empty]
    rfl
  · right
    refine ⟨empty, ?_, ?_⟩
    · show ErrorFree (String.ofList calculator.expression.toList.dropLast)
      rw [ErrorFree, String.toList_ofList]
      exact fun member => errorFree (List.mem_of_mem_dropLast member)
    · exact if_neg empty

/-- A press that is no calculation writes no record, and leaves nothing or an expression that is
shown as it is. -/
theorem press_of_ne_equals {key : Key} (errorFree : ErrorFree calculator.expression)
    (notEquals : key ≠ .equals) :
    (calculator.press key).2 = [] ∧
      ((calculator.press key).1 = new ∨ Mirrors (calculator.press key).1) := by
  cases key with
  | entry entry => exact ⟨rfl, Or.inr (mirrors_append errorFree entry)⟩
  | allClear => exact ⟨rfl, Or.inl rfl⟩
  | backspace => exact ⟨rfl, backspace_eq_new_or_mirrors errorFree⟩
  | equals => exact absurd rfl notEquals

/-! ## Runs -/

theorem pressAll_append (first second : List Key) :
    calculator.pressAll (first ++ second) = (calculator.pressAll first).pressAll second :=
  List.foldl_append

end Calculator

end PocketCalc
