import PocketCalc.Proofs.Calculator.Invariant
import PocketCalc.Proofs.Evaluation.LeadingZero

/-!
Contract: what a calculator computes of the entries that are typed on it.

Owns:
- `Entry.continuesZero` and `Entry.DropsZero`, the entries that replace an idle zero by something
  other than a number that it starts;
- the expression that a run of entries leaves on a new calculator;
- a calculation after the run has the value of the text that was typed, unless the entries drop a
  zero, and then it fails.

Does not own: keys that are no entries; see `Calculator/Invariant`.

The expression is the typed text but for its start: of the zeros in front only one is kept, and none
once another entry than the point follows. A digit and the circle constant go on with the zeros as
one number, so the value is the same without them. Every other entry needs the zero as an operand.
-/

namespace PocketCalc

open PocketCalc.Lexeme

namespace Entry

/-- Whether an entry goes on with the number that a zero starts. The circle constant does so too,
since it counts as its digits. -/
def continuesZero : Entry → Bool
  | digit _ | point | circleConstant => true
  | _ => false

/-- Whether entries start with one or more zeros and then something that does not go on with them. -/
def DropsZero (entries : List Entry) : Prop :=
  ∃ zeros next rest, entries = zeros ++ next :: rest ∧ zeros ≠ [] ∧
    (∀ entry ∈ zeros, entry.text = "0") ∧ next.continuesZero = false

/-- The zeros are presses of one key. -/
theorem dropsZero_iff {entries : List Entry} :
    DropsZero entries ↔
      ∃ zeros next rest, entries = List.replicate (zeros + 1) (digit 0) ++ next :: rest ∧
        next.continuesZero = false := by
  have textEq : ∀ entry : Entry, entry.text = "0" ↔ entry = digit 0 := by decide
  constructor
  · rintro ⟨zeros, next, rest, rfl, present, allZeros, stops⟩
    have sameKey := List.eq_replicate_of_mem fun entry member =>
      (textEq entry).mp (allZeros entry member)
    obtain ⟨count, lengthEq⟩ := Nat.exists_eq_succ_of_ne_zero (mt List.length_eq_zero_iff.mp present)
    rw [lengthEq] at sameKey
    exact ⟨count, next, rest, by rw [sameKey], stops⟩
  · rintro ⟨zeros, next, rest, rfl, stops⟩
    exact ⟨_, next, rest, rfl, by simp, fun entry member =>
      (textEq entry).mpr (List.eq_of_mem_replicate member), stops⟩

/-- What an entry starts with, as it counts in an expression: a digit if it goes on with a zero and
is not the point, and otherwise neither a digit nor the point. -/
theorem exists_expand_text {entry : Entry} (notPoint : entry ≠ point) (following : String) :
    ∃ c rest, DisplaySymbol.expand (entry.text ++ following).toList = c :: rest ∧
      c.isDigit = entry.continuesZero ∧ c ≠ '.' := by
  have checked : ∀ entry : Entry, entry ≠ point →
      (DisplaySymbol.expand entry.text.toList).head?.any
        (fun c => c.isDigit = entry.continuesZero ∧ c ≠ '.') = true := by
    decide
  have kind := checked entry notPoint
  cases expanded : DisplaySymbol.expand entry.text.toList with
  | nil =>
      rw [expanded] at kind
      cases kind
  | cons c rest =>
      rw [expanded] at kind
      refine ⟨c, rest ++ DisplaySymbol.expand following.toList, ?_, of_decide_eq_true kind⟩
      rw [String.toList_append, DisplaySymbol.expand_append, expanded, List.cons_append]

theorem typed_replicate_zero (zeros : Nat) :
    typed (List.replicate zeros (digit 0)) = String.ofList (List.replicate zeros '0') := by
  induction zeros with
  | zero => decide
  | succ zeros inductionHypothesis =>
      have zeroText : (digit 0).text = String.ofList ['0'] := by decide
      rw [List.replicate_succ, List.replicate_succ, typed, inductionHypothesis, zeroText,
        ← String.ofList_append]
      rfl

theorem typed_zeros (zeros : Nat) (next : Entry) (rest : List Entry) :
    typed (List.replicate zeros (digit 0) ++ next :: rest) =
      String.ofList (List.replicate zeros '0') ++ (next.text ++ typed rest) := by
  rw [typed_append, typed_replicate_zero, typed]

/-- Entries are zeros and then nothing or something other than a zero. -/
theorem exists_zeros (entries : List Entry) :
    ∃ zeros, entries = List.replicate zeros (digit 0) ∨
      ∃ next rest, entries = List.replicate zeros (digit 0) ++ next :: rest ∧ next ≠ digit 0 := by
  induction entries with
  | nil => exact ⟨0, Or.inl rfl⟩
  | cons first entries inductionHypothesis =>
      by_cases isZero : first = digit 0
      · subst isZero
        obtain ⟨zeros, onlyZeros | ⟨next, rest, split, notZero⟩⟩ := inductionHypothesis
        · exact ⟨zeros + 1, Or.inl (by rw [onlyZeros, List.replicate_succ])⟩
        · refine ⟨zeros + 1, Or.inr ⟨next, rest, ?_, notZero⟩⟩
          rw [split, List.replicate_succ, List.cons_append]
      · exact ⟨0, Or.inr ⟨first, entries, rfl, isZero⟩⟩

end Entry

namespace Calculator

/-! ## The expression that entries leave -/

/-- Whether a calculator shows the idle zero, which entries other than the point replace. -/
structure Idle (calculator : Calculator) : Prop where
  shown : calculator.display = idleText
  expression : calculator.expression = "" ∨ calculator.expression = "0"

theorem Idle.append {calculator : Calculator} (idle : Idle calculator) {text : String}
    (notPoint : text ≠ ".") : calculator.append text = ⟨text, text⟩ := by
  rw [Calculator.append, extended, if_pos (Or.inr ⟨idle.shown, notPoint⟩)]

theorem Idle.append_point {calculator : Calculator} (idle : Idle calculator) :
    calculator.append "." = ⟨"0.", "0."⟩ := by
  obtain ⟨expression, display⟩ := calculator
  obtain ⟨rfl, rfl | rfl⟩ := idle
  · decide
  · decide

theorem pressAll_replicate_zero (zeros : Nat) :
    new.pressAll ((List.replicate (zeros + 1) (Entry.digit 0)).map Key.entry) = ⟨"0", "0"⟩ := by
  induction zeros with
  | zero => decide
  | succ zeros inductionHypothesis =>
      have zeroAgain : (⟨"0", "0"⟩ : Calculator).press (.entry (.digit 0)) =
          (⟨"0", "0"⟩, []) := by decide
      rw [List.replicate_succ', List.map_append, pressAll_append, inductionHypothesis]
      exact congrArg Prod.fst zeroAgain

theorem idle_pressAll_replicate_zero (zeros : Nat) :
    Idle (new.pressAll ((List.replicate zeros (Entry.digit 0)).map Key.entry)) := by
  cases zeros with
  | zero => exact ⟨rfl, Or.inl rfl⟩
  | succ zeros =>
      rw [pressAll_replicate_zero]
      exact ⟨rfl, Or.inr rfl⟩

/-- The expression after zeros and an entry that is no zero consists of this entry, behind one zero
if it is the point, and all that follows. -/
theorem expression_pressAll_zeros (zeros : Nat) {next : Entry} (notZero : next ≠ .digit 0)
    (rest : List Entry) :
    (new.pressAll ((List.replicate zeros (Entry.digit 0) ++ next :: rest).map Key.entry)).expression =
      (if next = .point then "0." else next.text) ++ Entry.typed rest := by
  have idle := idle_pressAll_replicate_zero zeros
  have afterNext : (new.pressAll
      ((List.replicate zeros (Entry.digit 0) ++ [next]).map Key.entry)).expression =
        if next = .point then "0." else next.text := by
    rw [List.map_append, pressAll_append]
    show (Calculator.append next.text _).expression = _
    by_cases isPoint : next = .point
    · subst isPoint
      rw [if_pos rfl]
      exact congrArg Calculator.expression idle.append_point
    · rw [if_neg isPoint, idle.append (next.text_ne_point isPoint)]
  have checked : ∀ entry : Entry, entry ≠ .digit 0 →
      (if entry = .point then "0." else entry.text) ≠ "0" := by
    decide
  have present : (if next = .point then "0." else next.text) ≠ "" := by
    split
    · decide
    · exact next.text_ne_empty
  have further := expression_pressAll_entries (by rw [afterNext]; exact present)
    (by rw [afterNext]; exact checked next notZero) rest
  rw [afterNext, ← List.map_append, List.append_assoc, List.singleton_append] at further
  exact further

/-! ## Its value -/

/-- Unless the entries drop a zero, the expression that they leave has the value of their text. -/
theorem evaluate_pressAll_of_not_dropsZero {entries : List Entry} {value : Float}
    (kept : ¬Entry.DropsZero entries)
    (valued : evaluate (.text (Entry.typed entries)) = .ok value) :
    evaluate (.text (new.pressAll (entries.map Key.entry)).expression) = .ok value := by
  obtain ⟨zeros, rfl | ⟨next, rest, rfl, notZero⟩⟩ := Entry.exists_zeros entries
  · cases zeros with
    | zero => exact valued
    | succ zeros =>
        have shortened := evaluate_zeros_succ_append zeros ""
        rw [String.append_empty, ← Entry.typed_replicate_zero, valued] at shortened
        rw [pressAll_replicate_zero]
        exact shortened.symm
  · rw [expression_pressAll_zeros zeros notZero]
    rw [Entry.typed_zeros] at valued
    by_cases isPoint : next = .point
    · subst isPoint
      rw [if_pos rfl]
      cases zeros with
      | zero =>
          -- The expression gets a zero that was not typed, but the typed text has no value.
          have refused := evaluate_point_append (Entry.typed rest)
          rw [List.replicate_zero, String.ofList_nil, String.empty_append] at valued
          rw [show Entry.point.text = "." from rfl, refused] at valued
          cases valued
      | succ zeros =>
          rw [evaluate_zeros_succ_append, ← String.append_assoc] at valued
          exact valued
    · rw [if_neg isPoint]
      obtain ⟨c, behind, expanded, kind, -⟩ := Entry.exists_expand_text isPoint (Entry.typed rest)
      by_cases continues : next.continuesZero = true
      · rw [evaluate_zeros_append expanded (kind.trans continues)] at valued
        exact valued
      · cases zeros with
        | zero =>
            rw [List.replicate_zero, String.ofList_nil, String.empty_append] at valued
            exact valued
        | succ zeros =>
            exact absurd (Entry.dropsZero_iff.mpr
              ⟨zeros, next, rest, rfl, eq_false_of_ne_true continues⟩) kept

/-- Entries that drop a zero leave an expression without a value if their text has one: the zero is
a number that one of the operators needs. -/
theorem evaluate_pressAll_of_dropsZero {entries : List Entry} {value : Float}
    (drops : Entry.DropsZero entries)
    (valued : evaluate (.text (Entry.typed entries)) = .ok value) :
    evaluate (.text (new.pressAll (entries.map Key.entry)).expression) = .error ⟨⟩ := by
  obtain ⟨zeros, next, rest, rfl, stops⟩ := Entry.dropsZero_iff.mp drops
  have notZero : next ≠ .digit 0 := by
    rintro rfl
    cases stops
  have notPoint : next ≠ .point := by
    rintro rfl
    cases stops
  have allZeros : AllDigits (List.replicate (zeros + 1) '0') := by
    intro c member
    rw [List.eq_of_mem_replicate member]
    rfl
  obtain ⟨c, behind, expanded, kind, notPointChar⟩ :=
    Entry.exists_expand_text notPoint (Entry.typed rest)
  rw [Entry.typed_zeros] at valued
  rw [expression_pressAll_zeros (zeros + 1) notZero, if_neg notPoint]
  exact evaluate_of_evaluate_digits_append (by simp) allZeros expanded
    (kind.trans stops) notPointChar valued

/-- If the text that entries spell has a value, then a calculation after the entries gives that
value, unless they start with a zero that does not go on as a longer number. Such a zero is taken
for the idle one, and the calculation fails. -/
theorem typed_value_is_computed {entries : List Entry} {value : Float}
    (valued : evaluate (.text (Entry.typed entries)) = .ok value) :
    let entered := new.pressAll (entries.map Key.entry)
    (¬Entry.DropsZero entries →
        evaluate (.text entered.expression) = .ok value ∧
          (entered.press .equals).1.expression = Number.positionalText value) ∧
      (Entry.DropsZero entries →
        evaluate (.text entered.expression) = .error ⟨⟩ ∧
          (entered.press .equals).1 = ⟨"", errorText⟩) := by
  intro entered
  constructor
  · intro kept
    have computed := evaluate_pressAll_of_not_dropsZero kept valued
    refine ⟨computed, ?_⟩
    rw [press_equals_of_value computed]
  · intro drops
    have refused := evaluate_pressAll_of_dropsZero drops valued
    exact ⟨refused, press_equals_of_error refused⟩

/-- The zeros of a typed 007 are not kept in the expression, but its value is. -/
theorem zeros_before_digit_are_no_loss :
    let entries := [Entry.digit 0, .digit 0, .digit 7]
    let entered := new.pressAll (entries.map Key.entry)
    let seven := Number.ofMagnitude false 0x401c000000000000
    Entry.typed entries = "007" ∧ entered.expression = "7" ∧
      evaluate (.text (Entry.typed entries)) = .ok seven ∧ ¬Entry.DropsZero entries ∧
      (entered.press .equals).1.expression = Number.positionalText seven := by
  intro entries entered seven
  have valued : evaluate (.text (Entry.typed entries)) = .ok seven := by decide +kernel
  have kept : ¬Entry.DropsZero entries := by
    rw [Entry.dropsZero_iff]
    rintro ⟨zeros, next, rest, split, stops⟩
    rcases zeros with _ | _ | zeros
    · obtain ⟨rfl, rfl⟩ : .digit 0 = next ∧ [.digit 7] = rest := by simpa [entries] using split
      cases stops
    · obtain ⟨rfl, rfl⟩ : .digit 7 = next ∧ [] = rest := by
        simpa [entries, List.replicate_succ] using split
      cases stops
    · simp [entries, List.replicate_succ] at split
  exact ⟨by decide, by decide, valued, kept, ((typed_value_is_computed valued).1 kept).2⟩

/-- A typed zero that an operator follows is dropped, and the sum of zero and five is not computed.
-/
theorem zero_before_operator_is_dropped :
    let entries := [Entry.digit 0, .binary .add, .digit 5]
    let entered := new.pressAll (entries.map Key.entry)
    Entry.typed entries = "0+5" ∧
      evaluate (.text (Entry.typed entries)) =
        .ok (Number.ofMagnitude false 0x4014000000000000) ∧
      entered.expression = "+5" ∧ (entered.press .equals).1 = ⟨"", errorText⟩ ∧
      ¬∀ (entries : List Entry) (value : Float),
        evaluate (.text (Entry.typed entries)) = .ok value →
          ((new.pressAll (entries.map Key.entry)).press .equals).1.expression =
            Number.positionalText value := by
  intro entries entered
  have valued : evaluate (.text (Entry.typed entries)) =
      .ok (Number.ofMagnitude false 0x4014000000000000) := by decide +kernel
  have failed : (entered.press .equals).1 = ⟨"", errorText⟩ := by decide +kernel
  refine ⟨by decide, valued, by decide, failed, fun computed => ?_⟩
  have textEq : (entered.press .equals).1.expression = _ := computed entries _ valued
  rw [failed] at textEq
  exact Number.positionalText_ne_empty _ textEq.symm

end Calculator

end PocketCalc
