import PocketCalc.Proofs.Calculator.Typing

/-!
Contract: what the calculator still knows of a calculation that failed.

Owns:
- presses other than entries, whose effect depends on the expression alone;
- the presses after a failure, compared with the same presses after everything is cleared.

Does not own: what leads to a failure; see `Evaluation/Outcome`.

After a failure the expression is as empty as on a new calculator, and only the display differs. An
entry restarts the expression in both cases, but a point gets its zero only on the idle display. So
the first press decides: the point is kept apart from then on, and every other press joins the runs.
-/

namespace PocketCalc.Calculator

/-! ## One press -/

/-- What a press does that is no entry depends on the expression and not on the display. -/
theorem press_eq_of_expression_eq {left right : Calculator}
    (same : left.expression = right.expression) {key : Key}
    (noEntry : ∀ entry, key ≠ .entry entry) : left.press key = right.press key := by
  cases key with
  | entry entry => exact absurd rfl (noEntry entry)
  | allClear => rfl
  | backspace => simp only [press, backspace, same]
  | equals => simp only [press, calculate, same]

theorem pressAll_of_lastFailed {keys : List Key} (failed : LastFailed keys) :
    new.pressAll keys = ⟨"", errorText⟩ := by
  obtain ⟨before, rfl, refused⟩ := failed
  rw [pressAll_append]
  exact press_equals_of_error refused

theorem append_after_error (text : String) :
    (⟨"", errorText⟩ : Calculator).append text = ⟨text, text⟩ := by
  rw [append, extended, if_pos (Or.inl rfl)]

theorem idle_new : Idle new := ⟨rfl, Or.inl rfl⟩

/-- A press other than the point does the same on an error as on a new calculator. -/
theorem press_after_error_eq_press_new {key : Key} (notPoint : key ≠ .entry .point) :
    (⟨"", errorText⟩ : Calculator).press key = new.press key := by
  cases key with
  | entry entry =>
      have notPointText : entry.text ≠ "." := by
        refine entry.text_ne_point ?_
        rintro rfl
        exact notPoint rfl
      rw [press, press, append_after_error, idle_new.append notPointText]
  | allClear | backspace | equals => exact press_eq_of_expression_eq rfl (by simp)

/-! ## Runs -/

/-- Presses that start with the same effect go on with the same effects. -/
theorem trace_eq_of_press_eq {left right : Calculator} {key : Key}
    (same : left.press key = right.press key) (further : List Key) :
    left.trace ((key :: further).map .press) = right.trace ((key :: further).map .press) := by
  simp only [List.map_cons, trace, perform, same]

/-- On an error and on a new calculator the same presses lead to the same states, unless the first of
them is the point. -/
theorem states_after_error_eq_iff (further : List Key) :
    ((⟨"", errorText⟩ : Calculator).trace (further.map .press)).map Prod.fst =
        (new.trace (further.map .press)).map Prod.fst ↔
      further.head? ≠ some (.entry .point) := by
  cases further with
  | nil => simp [trace]
  | cons key rest =>
      rw [List.head?_cons, ne_eq, Option.some.injEq]
      constructor
      · rintro sameStates rfl
        have firstStates := (List.cons.inj sameStates).1
        exact absurd firstStates (by decide)
      · intro notPoint
        rw [trace_eq_of_press_eq (press_after_error_eq_press_new notPoint)]

/-- Entries go on behind a text that the display shows, unless it is a lone zero. -/
theorem expression_pressAll_entries_of_shown {keys : List Key} {text : String}
    (shown : new.pressAll keys = ⟨text, text⟩) (present : text ≠ "") (notZero : text ≠ "0")
    (entries : List Entry) :
    (new.pressAll (keys ++ entries.map Key.entry)).expression = text ++ Entry.typed entries := by
  have expressionEq : (new.pressAll keys).expression = text := by rw [shown]
  rw [← expressionEq] at present notZero ⊢
  exact expression_pressAll_entries present notZero entries

theorem expression_point_after_error {keys : List Key} (failed : LastFailed keys)
    (entries : List Entry) :
    (new.pressAll (keys ++ .entry .point :: entries.map Key.entry)).expression =
      "." ++ Entry.typed entries := by
  have pointed : new.pressAll (keys ++ [.entry .point]) = ⟨".", "."⟩ := by
    rw [pressAll_append, pressAll_of_lastFailed failed]
    exact append_after_error "."
  have appended := expression_pressAll_entries_of_shown pointed (by decide) (by decide) entries
  rw [List.append_assoc] at appended
  exact appended

theorem expression_point_after_clearing (keys : List Key) (entries : List Entry) :
    (new.pressAll (keys ++ .allClear :: .entry .point :: entries.map Key.entry)).expression =
      "0." ++ Entry.typed entries := by
  have pointed : new.pressAll (keys ++ [.allClear, .entry .point]) = ⟨"0.", "0."⟩ := by
    rw [pressAll_append]
    exact idle_new.append_point
  have appended := expression_pressAll_entries_of_shown pointed (by decide) (by decide) entries
  rw [List.append_assoc] at appended
  exact appended

/-- After a failure and after everything is cleared the same presses lead to the same states, press
by press, exactly if the first of them is not the point. A point that comes first starts the
expression without its zero after a failure, so that whatever entries follow it have no value, while
on the cleared calculator they go on with a number. -/
theorem error_is_forgotten_unless_point_follows {keys : List Key} (failed : LastFailed keys) :
    (∀ further : List Key,
      ((new.pressAll keys).trace (further.map .press)).map Prod.fst =
          ((new.pressAll (keys ++ [.allClear])).trace (further.map .press)).map Prod.fst ↔
        further.head? ≠ some (.entry .point)) ∧
      ∀ entries : List Entry,
        let typed := Key.entry .point :: entries.map Key.entry
        let pointed := new.pressAll (keys ++ typed)
        let clearedAndPointed := new.pressAll (keys ++ .allClear :: typed)
        pointed.expression = "." ++ Entry.typed entries ∧
          (pointed.press .equals).1 = ⟨"", errorText⟩ ∧
          clearedAndPointed.expression = "0." ++ Entry.typed entries ∧
          ∀ value, evaluate (.text ("0." ++ Entry.typed entries)) = .ok value →
            (clearedAndPointed.press .equals).1.expression = Number.positionalText value := by
  constructor
  · intro further
    have cleared : new.pressAll (keys ++ [.allClear]) = new := by
      rw [pressAll_append]
      rfl
    rw [pressAll_of_lastFailed failed, cleared]
    exact states_after_error_eq_iff further
  · intro entries typed pointed clearedAndPointed
    have pointedEq : pointed.expression = _ := expression_point_after_error failed entries
    have clearedEq : clearedAndPointed.expression = _ := expression_point_after_clearing keys entries
    refine ⟨pointedEq, press_equals_of_error ?_, clearedEq, fun value valued => ?_⟩
    · rw [pointedEq]
      exact evaluate_point_append (Entry.typed entries)
    · rw [← clearedEq] at valued
      rw [press_equals_of_value valued]

/-- After a sum without its second operand the keys of a half come to an error again, and with
everything cleared before them to a half. -/
theorem half_after_failed_sum_fails :
    let keys := [Key.entry (.digit 2), .entry (.binary .add), .equals]
    let half := [Key.entry .point, .entry (.digit 5)]
    LastFailed keys ∧
      (new.pressAll (keys ++ .allClear :: half)).expression = "0.5" ∧
      ((new.pressAll (keys ++ .allClear :: half)).press .equals).1.expression =
        Number.positionalText (Number.ofMagnitude false 0x3fe0000000000000) ∧
      ((new.pressAll (keys ++ half)).press .equals).1 = ⟨"", errorText⟩ ∧
      [Key.entry (.digit 9)].head? ≠ some (.entry .point) ∧
      ((new.pressAll keys).trace ([Key.entry (.digit 9)].map .press)).map Prod.fst =
        ((new.pressAll (keys ++ [.allClear])).trace ([Key.entry (.digit 9)].map .press)).map
          Prod.fst := by
  intro keys half
  have failed : LastFailed keys := by
    refine ⟨[.entry (.digit 2), .entry (.binary .add)], rfl, ?_⟩
    decide +kernel
  have valued : evaluate (.text ("0." ++ Entry.typed [.digit 5])) =
      .ok (Number.ofMagnitude false 0x3fe0000000000000) := by
    decide +kernel
  have notPoint : [Key.entry (.digit 9)].head? ≠ some (.entry .point) := by decide
  obtain ⟨joins, point⟩ := error_is_forgotten_unless_point_follows failed
  obtain ⟨-, fails, clearedEq, computes⟩ := point [.digit 5]
  exact ⟨failed, clearedEq, computes _ valued, fails, notPoint, (joins _).mpr notPoint⟩

/-- The point alone shows whether the last calculation failed or everything was cleared. -/
theorem point_after_error_is_not_forgotten :
    let keys := [Key.entry (.digit 2), .entry (.binary .add), .equals]
    new.pressAll (keys ++ [.entry .point]) = ⟨".", "."⟩ ∧
      new.pressAll (keys ++ [.allClear, .entry .point]) = ⟨"0.", "0."⟩ ∧
      ¬∀ (keys further : List Key), LastFailed keys →
        ((new.pressAll keys).trace (further.map .press)).map Prod.fst =
          ((new.pressAll (keys ++ [.allClear])).trace (further.map .press)).map Prod.fst := by
  intro keys
  have failed : LastFailed keys := by
    refine ⟨[.entry (.digit 2), .entry (.binary .add)], rfl, ?_⟩
    decide +kernel
  have pointed : new.pressAll (keys ++ [.entry .point]) = ⟨".", "."⟩ := by decide +kernel
  have cleared : new.pressAll (keys ++ [.allClear, .entry .point]) = ⟨"0.", "0."⟩ := by
    decide +kernel
  refine ⟨pointed, cleared, fun forgotten => ?_⟩
  have sameStates := (List.cons.inj (forgotten keys [.entry .point] failed)).1
  exact absurd sameStates (by decide +kernel)

end PocketCalc.Calculator
