import PocketCalc.Proofs.Calculator.Press

/-!
Contract: the states that a new calculator can reach.

Owns:
- `LastSucceeded` and `LastFailed`, the runs of presses that end in a calculation;
- `Consistent`, what the expression and the display have to do with each other after a run;
- the invariant along every run, with the records of every further press;
- the expression after a run of entries, which are added to the end of what is no lone zero.

Does not own: the expression that particular keys leave; see `Calculator/Typing`.

The expression and the display are two texts, and what an entry does depends on the display alone.
So the invariant has to say what the idle text and the error text on the display mean for the
expression. That no key writes a capital E keeps the error text apart from what is entered, and
that the display shows short texts unchanged keeps the idle zero apart from longer results.
-/

namespace PocketCalc.Calculator

/-- Whether the last press on a new calculator was a calculation that succeeded. -/
def LastSucceeded (keys : List Key) : Prop :=
  ∃ before value, keys = before ++ [Key.equals] ∧
    evaluate (.text (new.pressAll before).expression) = .ok value

/-- Whether the last press on a new calculator was a calculation that failed. -/
def LastFailed (keys : List Key) : Prop :=
  ∃ before, keys = before ++ [Key.equals] ∧
    evaluate (.text (new.pressAll before).expression) = .error ⟨⟩

/-- What the expression and the display of a calculator are after presses on a new one. -/
structure Consistent (keys : List Key) (reached : Calculator) : Prop where
  /-- With an expression the display shows it, or after a calculation what fits of it. Without one
  the display is idle or shows an error. -/
  shown :
    (reached.expression = "" ∧ (reached.display = idleText ∨ reached.display = errorText)) ∨
      (reached.expression ≠ "" ∧ (reached.display = reached.expression ∨
        (LastSucceeded keys ∧ reached.display = Display.ofText reached.expression)))
  error_iff : reached.display = errorText ↔ LastFailed keys
  empty_of_error : reached.display = errorText → reached.expression = ""
  zero_of_idle : reached.display = idleText → reached.expression = "" ∨ reached.expression = "0"

/-! ## One press -/

theorem not_lastFailed_nil : ¬LastFailed [] := by
  rintro ⟨before, impossible, -⟩
  simp at impossible

theorem lastFailed_snoc_iff {before : List Key} {key : Key} :
    LastFailed (before ++ [key]) ↔
      key = .equals ∧ evaluate (.text (new.pressAll before).expression) = .error ⟨⟩ := by
  constructor
  · rintro ⟨other, same, refused⟩
    obtain ⟨rfl, sameKey⟩ := List.append_inj' same rfl
    exact ⟨List.singleton_inj.mp sameKey, refused⟩
  · rintro ⟨rfl, refused⟩
    exact ⟨before, rfl, refused⟩

/-- A state without an expression or with one that is shown is consistent with every run that does
not end in a failure. -/
theorem consistent_of_new_or_mirrors {keys : List Key} {reached : Calculator}
    (notFailed : ¬LastFailed keys) (quiet : reached = new ∨ Mirrors reached) :
    Consistent keys reached := by
  rcases quiet with rfl | mirrors
  · have notError : new.display ≠ errorText := by decide
    exact ⟨Or.inl ⟨rfl, Or.inl rfl⟩, iff_of_false notError notFailed,
      fun impossible => absurd impossible notError, fun _ => Or.inl rfl⟩
  · have notError : reached.display ≠ errorText := by
      rw [mirrors.shown]
      exact mirrors.errorFree.ne_errorText
    refine ⟨Or.inr ⟨mirrors.present, Or.inl mirrors.shown⟩, iff_of_false notError notFailed,
      fun impossible => absurd impossible notError, fun idle => Or.inr ?_⟩
    rw [← mirrors.shown]
    exact idle

/-- The display shows neither the error text of any result nor the idle text of a result other than
zero. -/
theorem ofText_positionalText_ne_errorText (value : Float) :
    Display.ofText (Number.positionalText value) ≠ errorText := by
  intro same
  have textEq := Display.eq_of_ofText_eq (by decide) (by decide) same
  exact (errorFree_positionalText value).ne_errorText textEq

theorem eq_zero_of_ofText_eq_idleText {text : String} (same : Display.ofText text = idleText) :
    text = "0" :=
  Display.eq_of_ofText_eq (by decide) (by decide) same

theorem consistent_press {before : List Key}
    (errorFree : ErrorFree (new.pressAll before).expression) (key : Key) :
    Consistent (before ++ [key]) ((new.pressAll before).press key).1 := by
  by_cases isEquals : key = .equals
  · subst isEquals
    cases evaluated : evaluate (.text (new.pressAll before).expression) with
    | ok value =>
        have notFailed : ¬LastFailed (before ++ [.equals]) := by
          rw [lastFailed_snoc_iff, evaluated]
          simp
        rw [press_equals_of_value evaluated]
        exact ⟨Or.inr ⟨Number.positionalText_ne_empty value,
            Or.inr ⟨⟨before, value, rfl, evaluated⟩, rfl⟩⟩,
          iff_of_false (ofText_positionalText_ne_errorText value) notFailed,
          fun impossible => absurd impossible (ofText_positionalText_ne_errorText value),
          fun idle => Or.inr (eq_zero_of_ofText_eq_idleText idle)⟩
    | error invalid =>
        rw [press_equals_of_error evaluated]
        exact ⟨Or.inl ⟨rfl, Or.inr rfl⟩, iff_of_true rfl (lastFailed_snoc_iff.mpr ⟨rfl, evaluated⟩),
          fun _ => rfl, fun _ => Or.inl rfl⟩
  · have notFailed : ¬LastFailed (before ++ [key]) := fun failed =>
      isEquals (lastFailed_snoc_iff.mp failed).1
    exact consistent_of_new_or_mirrors notFailed (press_of_ne_equals errorFree isEquals).2

theorem errorFree_press {calculator : Calculator} (errorFree : ErrorFree calculator.expression)
    (key : Key) : ErrorFree (calculator.press key).1.expression := by
  have emptyFree : ErrorFree "" := by
    unfold ErrorFree
    decide
  by_cases isEquals : key = .equals
  · subst isEquals
    cases evaluated : evaluate (.text calculator.expression) with
    | ok value =>
        rw [press_equals_of_value evaluated]
        exact errorFree_positionalText value
    | error invalid =>
        rw [press_equals_of_error evaluated]
        exact emptyFree
  · rcases (press_of_ne_equals errorFree isEquals).2 with isNew | mirrors
    · rw [isNew]
      exact emptyFree
    · exact mirrors.errorFree

/-! ## Whole runs -/

theorem errorFree_pressAll (keys : List Key) : ErrorFree (new.pressAll keys).expression := by
  induction keys using List.reverseRecOn with
  | nil =>
      unfold ErrorFree
      decide
  | append_singleton before key inductionHypothesis =>
      rw [pressAll_append]
      exact errorFree_press inductionHypothesis key

theorem consistent_pressAll (keys : List Key) : Consistent keys (new.pressAll keys) := by
  rcases List.eq_nil_or_concat keys with rfl | ⟨before, key, rfl⟩
  · exact consistent_of_new_or_mirrors not_lastFailed_nil (Or.inl rfl)
  · rw [List.concat_eq_append, pressAll_append]
    exact consistent_press (errorFree_pressAll before) key

/-- An expression other than a lone zero is never given up by an entry. -/
theorem Consistent.append_expression {keys : List Key} {reached : Calculator}
    (consistent : Consistent keys reached) (present : reached.expression ≠ "")
    (notZero : reached.expression ≠ "0") (text : String) :
    (reached.append text).expression = reached.expression ++ text := by
  have notError : reached.display ≠ errorText := mt consistent.empty_of_error present
  have notIdle : reached.display ≠ idleText := fun idle =>
    (consistent.zero_of_idle idle).elim present notZero
  show reached.extended text = _
  rw [extended, if_neg, if_neg]
  · exact fun starts => present starts.1
  · exact not_or.mpr ⟨notError, fun starts => notIdle starts.1⟩

/-- An expression with an entry behind it is longer than a zero. -/
theorem append_entry_ne_zero {expression : String} (present : expression ≠ "") (entry : Entry) :
    expression ++ entry.text ≠ "0" := by
  intro same
  have length := congrArg String.length same
  have expressionLength : expression.length ≠ 0 := by simpa using present
  have entryLength : entry.text.length ≠ 0 := by simpa using Entry.text_ne_empty entry
  have oneLength : "0".length = 1 := by decide
  rw [String.length_append, oneLength] at length
  omega

/-- A run of entries is added to the end of an expression other than a lone zero. -/
theorem expression_pressAll_entries {keys : List Key}
    (present : (new.pressAll keys).expression ≠ "")
    (notZero : (new.pressAll keys).expression ≠ "0") (entries : List Entry) :
    (new.pressAll (keys ++ entries.map Key.entry)).expression =
      (new.pressAll keys).expression ++ Entry.typed entries := by
  -- Each entry leads to a state that is reached too, so the invariant holds at every one of them.
  induction entries generalizing keys with
  | nil =>
      rw [List.map_nil, List.append_nil, Entry.typed, String.append_empty]
  | cons entry rest inductionHypothesis =>
      have appended : (new.pressAll (keys ++ [.entry entry])).expression =
          (new.pressAll keys).expression ++ entry.text := by
        rw [pressAll_append]
        exact (consistent_pressAll keys).append_expression present notZero entry.text
      have nextPresent : (new.pressAll keys).expression ++ entry.text ≠ "" := fun empty =>
        present (String.append_eq_empty_iff.mp empty).1
      have nextNotZero : (new.pressAll keys).expression ++ entry.text ≠ "0" :=
        append_entry_ne_zero present entry
      have further := inductionHypothesis
        (by rw [appended]; exact nextPresent) (by rw [appended]; exact nextNotZero)
      rw [appended, List.append_assoc] at further
      rw [List.map_cons, Entry.typed, ← String.append_assoc]
      exact further

/-- After any run of presses on a new calculator the expression and the display are consistent, so
that an entry gives up no expression but a lone zero. The evaluation of the expression comes to no
fault. A calculation writes one record, of its value or of the cause for which it fails, and every
other press writes none. -/
theorem reachable_states (keys : List Key) :
    let reached := new.pressAll keys
    Consistent keys reached ∧
      (∀ text, reached.expression ≠ "" → reached.expression ≠ "0" →
        (reached.append text).expression = reached.expression ++ text) ∧
      (∀ fault, (Evaluation.run (.text reached.expression)).result ≠ .error (.internal fault)) ∧
      (∀ key, key ≠ .equals → (reached.press key).2 = []) ∧
      ((∃ value, evaluate (.text reached.expression) = .ok value ∧
          (reached.press .equals).2 = [⟨.calculator, .debug,
            Text.quote reached.expression ++ " = " ++ Number.positionalText value⟩]) ∨
        ∃ cause reason, Evaluation.Explains reached.expression cause reason ∧
          (Evaluation.run (.text reached.expression)).result = .error cause ∧
          (reached.press .equals).2 = [⟨.engine, .error,
            "Evaluation error in " ++ Text.quote reached.expression ++ ": " ++ reason⟩]) := by
  intro reached
  have consistent := consistent_pressAll keys
  refine ⟨consistent, fun text present notZero =>
    consistent.append_expression present notZero text, ?_, ?_, ?_⟩
  · intro fault failed
    obtain ⟨-, noText⟩ := Evaluation.exists_fault_iff.mp ⟨fault, failed⟩
    exact noText reached.expression rfl
  · intro key notEquals
    exact (press_of_ne_equals (errorFree_pressAll keys) notEquals).1
  · cases evaluated : evaluate (.text reached.expression) with
    | ok value =>
        refine Or.inl ⟨value, rfl, ?_⟩
        rw [press, calculate_of_value evaluated]
    | error invalid =>
        obtain ⟨cause, reason, explains, failed, outcome⟩ := calculate_of_error evaluated
        refine Or.inr ⟨cause, reason, explains, failed, ?_⟩
        rw [press, outcome]

/-- Of a third the display shows what fits, and an entry continues all of it. -/
theorem third_is_cut_and_continued :
    let keys := [Key.entry (.digit 1), .entry (.binary .divide), .entry (.digit 3), .equals]
    let reached := new.pressAll keys
    reached.expression = "0.3333333333333333" ∧ reached.display = "0.3333333333" ∧
      reached.expression ≠ "" ∧ reached.expression ≠ "0" ∧ Key.entry .point ≠ .equals ∧
      (reached.append "+").expression = reached.expression ++ "+" ∧
      (reached.press (.entry .point)).2 = [] := by
  intro keys reached
  have expressionEq : reached.expression = "0.3333333333333333" := by decide +kernel
  have displayEq : reached.display = "0.3333333333" := by decide +kernel
  have present : reached.expression ≠ "" := by
    rw [expressionEq]
    decide
  have notZero : reached.expression ≠ "0" := by
    rw [expressionEq]
    decide
  obtain ⟨-, continues, -, quiet, -⟩ := reachable_states keys
  exact ⟨expressionEq, displayEq, present, notZero, by decide, continues "+" present notZero,
    quiet (.entry .point) (by decide)⟩

end PocketCalc.Calculator
