import PocketCalc.Proofs.Calculator.Recovery

/-!
Contract: what the backspace key leaves of an entry.

Owns:
- backspaces, as many as a text at the end of an expression has characters, remove that text;
- what stands in front of an entry's text after the entry is pressed;
- an entry and as many backspaces as it has characters leave the value of the expression.

Does not own: backspaces that go on into what was there before the entry.

An entry may put fewer or more characters into the expression than its text has, since it replaces a
lone zero and gives a point its zero. In both cases the expression ends in the text of the entry, so
the backspaces take off exactly this text. What is left is then empty or a lone zero, and both count
as zero.
-/

namespace PocketCalc.Calculator

variable {calculator : Calculator}

/-! ## Backspaces -/

/-- A calculator that shows its expression, or the idle text if there is none. -/
def showing (expression : String) : Calculator :=
  ⟨expression, if expression = "" then idleText else expression⟩

theorem backspace_of_expression_eq {front : String} {c : Char}
    (ends : calculator.expression = front ++ String.singleton c) :
    calculator.backspace = showing front := by
  have shorter : String.ofList calculator.expression.toList.dropLast = front := by
    rw [ends, String.toList_append, String.toList_singleton, List.dropLast_concat,
      String.ofList_toList]
  rw [backspace, shorter]
  rfl

/-- Backspaces remove the text that an expression ends in, character by character. -/
theorem pressAll_backspaces {front : String} {behind : List Char} (present : behind ≠ [])
    (ends : calculator.expression = front ++ String.ofList behind) :
    calculator.pressAll (List.replicate behind.length .backspace) = showing front := by
  induction behind using List.reverseRecOn generalizing calculator with
  | nil => exact absurd rfl present
  | append_singleton rest c inductionHypothesis =>
      have shortened : calculator.backspace = showing (front ++ String.ofList rest) := by
        refine backspace_of_expression_eq (c := c) ?_
        rw [ends, String.ofList_append, String.append_assoc]
        rfl
      have firstPress : calculator.pressAll (List.replicate (rest ++ [c]).length .backspace) =
          (showing (front ++ String.ofList rest)).pressAll
            (List.replicate rest.length .backspace) := by
        rw [List.length_append, List.length_singleton, List.replicate_succ, ← shortened]
        rfl
      rw [firstPress]
      by_cases last : rest = []
      · subst last
        rw [String.ofList_nil, String.append_empty]
        rfl
      · exact inductionHypothesis last rfl

/-! ## What an entry is put behind -/

/-- What stands in front of an entry's text after the entry is pressed on a reached calculator: the
expression, unless it is empty or a lone zero. In that case it is nothing, or the zero that a point
gets, which it does not get on an error. -/
def frontOf (keys : List Key) (entry : Entry) : String :=
  if (new.pressAll keys).expression ≠ "" ∧ (new.pressAll keys).expression ≠ "0" then
    (new.pressAll keys).expression
  else if entry = .point ∧ (new.pressAll keys).display ≠ errorText then "0"
  else ""

/-- Without an expression or with a lone zero a reached calculator is idle or shows an error. -/
theorem Consistent.idle_or_error {keys : List Key} {reached : Calculator}
    (consistent : Consistent keys reached)
    (little : reached.expression = "" ∨ reached.expression = "0") :
    Idle reached ∨ reached.display = errorText := by
  have zeroShown : Display.ofText "0" = idleText := by decide +kernel
  rcases consistent.shown with ⟨-, isIdle | isError⟩ | ⟨present, shown⟩
  · exact Or.inl ⟨isIdle, little⟩
  · exact Or.inr isError
  · have zero : reached.expression = "0" := little.resolve_left present
    rw [zero, zeroShown] at shown
    rcases shown with isIdle | ⟨-, isIdle⟩
    · exact Or.inl ⟨isIdle, little⟩
    · exact Or.inl ⟨isIdle, little⟩

theorem expression_append_entry (keys : List Key) (entry : Entry) :
    ((new.pressAll keys).append entry.text).expression = frontOf keys entry ++ entry.text := by
  have consistent := consistent_pressAll keys
  unfold frontOf
  generalize new.pressAll keys = reached at *
  by_cases kept : reached.expression ≠ "" ∧ reached.expression ≠ "0"
  · rw [if_pos kept]
    exact consistent.append_expression kept.1 kept.2 entry.text
  · have little : reached.expression = "" ∨ reached.expression = "0" := by
      rw [← not_ne_iff, ← not_ne_iff (a := reached.expression) (b := "0")]
      exact not_and_or.mp kept
    rw [if_neg kept]
    rcases consistent.idle_or_error little with idle | isError
    · have notError : reached.display ≠ errorText := by
        rw [idle.shown]
        decide
      by_cases isPoint : entry = .point
      · subst isPoint
        rw [if_pos ⟨rfl, notError⟩]
        exact congrArg expression idle.append_point
      · rw [if_neg fun both => isPoint both.1, idle.append (entry.text_ne_point isPoint),
          String.empty_append]
    · rw [if_neg fun both => both.2 isError, String.empty_append]
      show reached.extended entry.text = _
      rw [extended, if_pos (Or.inl isError)]

/-! ## Undoing an entry -/

theorem pressAll_entry_backspaces (keys : List Key) (entry : Entry) :
    new.pressAll (keys ++ .entry entry :: List.replicate entry.text.length .backspace) =
      showing (frontOf keys entry) := by
  have present : entry.text.toList ≠ [] := by
    simpa using entry.text_ne_empty
  have ends : ((new.pressAll keys).append entry.text).expression =
      frontOf keys entry ++ String.ofList entry.text.toList := by
    rw [String.ofList_toList, expression_append_entry]
  rw [pressAll_append]
  exact pressAll_backspaces present ends

/-- An expression that is empty counts as a zero. -/
theorem evaluate_empty_eq_evaluate_zero : evaluate (.text "") = evaluate (.text "0") := by
  decide +kernel

theorem evaluate_frontOf (keys : List Key) (entry : Entry) :
    evaluate (.text (frontOf keys entry)) = evaluate (.text (new.pressAll keys).expression) := by
  have zero := evaluate_empty_eq_evaluate_zero
  unfold frontOf
  split
  · rfl
  · rename_i little
    rcases not_and_or.mp little with isEmpty | isZero
    · rw [not_ne_iff.mp isEmpty]
      split
      · exact zero.symm
      · rfl
    · rw [not_ne_iff.mp isZero]
      split
      · rfl
      · exact zero

/-- After any run of presses an entry and as many backspaces as its text has characters leave the
expression, unless it is empty or a lone zero. In that case they leave a zero, if the entry is the
point and the last press was no calculation that failed, and nothing otherwise. The display shows
what is left, and its value is the same as before. -/
theorem backspaces_undo_entry (keys : List Key) (entry : Entry) :
    let reached := new.pressAll keys
    let undone :=
      new.pressAll (keys ++ .entry entry :: List.replicate entry.text.length .backspace)
    (reached.expression ≠ "" → reached.expression ≠ "0" →
        undone.expression = reached.expression) ∧
      (reached.expression = "" ∨ reached.expression = "0" →
        (undone.expression = "" ∨ undone.expression = "0") ∧
          (undone.expression = "0" ↔ entry = .point ∧ ¬LastFailed keys)) ∧
      undone.display = (if undone.expression = "" then "0" else undone.expression) ∧
      evaluate (.text undone.expression) = evaluate (.text reached.expression) := by
  intro reached undone
  have undoneEq : undone = showing (frontOf keys entry) := pressAll_entry_backspaces keys entry
  have errorIff : reached.display = errorText ↔ LastFailed keys :=
    (consistent_pressAll keys).error_iff
  rw [undoneEq]
  refine ⟨fun present notZero => if_pos ⟨present, notZero⟩, fun little => ?_, rfl,
    evaluate_frontOf keys entry⟩
  have notKept : ¬(reached.expression ≠ "" ∧ reached.expression ≠ "0") := by
    rintro ⟨present, notZero⟩
    exact little.elim present notZero
  have frontEq : frontOf keys entry =
      if entry = .point ∧ reached.display ≠ errorText then "0" else "" := if_neg notKept
  show (frontOf keys entry = "" ∨ frontOf keys entry = "0") ∧ (frontOf keys entry = "0" ↔ _)
  rw [frontEq, ← errorIff]
  split
  · rename_i pointed
    exact ⟨Or.inr rfl, iff_of_true rfl pointed⟩
  · rename_i other
    exact ⟨Or.inl rfl, iff_of_false (by decide) other⟩

/-- The four characters of a sine are removed behind a result of which the display shows a part, and
a point leaves its zero on an idle calculator but not on an error. -/
theorem sine_and_points_are_removed :
    let third := [Key.entry (.digit 1), .entry (.binary .divide), .entry (.digit 3), .equals]
    let failed := [Key.entry (.digit 2), .entry (.binary .add), .equals]
    let reached := new.pressAll third
    let back := List.replicate 4 Key.backspace
    reached.expression ≠ "" ∧ reached.expression ≠ "0" ∧
      new.pressAll (third ++ .entry (.apply .sine) :: back) =
        ⟨"0.3333333333333333", "0.3333333333333333"⟩ ∧
      (new.pressAll (third ++ .entry (.apply .sine) :: back)).expression = reached.expression ∧
      new.expression = "" ∧
      (new.pressAll [.entry .point, .backspace]).expression = "0" ∧
      (new.pressAll failed).expression = "" ∧
      (new.pressAll (failed ++ [.entry .point, .backspace])).expression ≠ "0" := by
  intro third failed reached back
  have expressionEq : reached.expression = "0.3333333333333333" := by decide +kernel
  have present : reached.expression ≠ "" := by
    rw [expressionEq]
    decide
  have notZero : reached.expression ≠ "0" := by
    rw [expressionEq]
    decide
  have sineUndone := (backspaces_undo_entry third (.apply .sine)).1 present notZero
  have failedLast : LastFailed failed := by
    refine ⟨[.entry (.digit 2), .entry (.binary .add)], rfl, ?_⟩
    decide +kernel
  have failedEmpty : (new.pressAll failed).expression = "" := by decide +kernel
  have onNew := ((backspaces_undo_entry [] .point).2.1 (Or.inl rfl)).2
  have onError := ((backspaces_undo_entry failed .point).2.1 (Or.inl failedEmpty)).2
  exact ⟨present, notZero, by decide +kernel, sineUndone, rfl,
    onNew.mpr ⟨rfl, not_lastFailed_nil⟩, failedEmpty, fun zero => (onError.mp zero).2 failedLast⟩

end PocketCalc.Calculator
