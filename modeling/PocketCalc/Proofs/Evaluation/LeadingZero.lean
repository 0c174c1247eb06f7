import PocketCalc.Proofs.Evaluation.ReadBack
import PocketCalc.Proofs.PostOrder.Balance
import PocketCalc.Proofs.Yard.Operand

/-!
Contract: what zeros in front of a text do to its value.

Owns:
- zeros in front of a digit belong to the digit's number and leave its value;
- a text that starts with a point has no value;
- a number in front of a character that cannot go on with it is a token of its own, so of a text and
  the text behind such a number at most one has a value.

Does not own: numbers inside of a text.
-/

namespace PocketCalc

open PocketCalc.Lexeme PocketCalc.Stage

/-! ## Zeros in front of a number -/

theorem Lexeme.AllDigits.zero_cons {text : List Char} (digits : AllDigits text) :
    AllDigits ('0' :: text) := by
  intro c member
  rcases List.mem_cons.mp member with rfl | inText
  · rfl
  · exact digits c inText

theorem Lexeme.IsNumeral.zero_cons {text : List Char} (numeral : IsNumeral text) :
    IsNumeral ('0' :: text) := by
  rcases numeral with ⟨-, digits⟩ | ⟨whole, fraction, rfl, -, digits, fractionDigits⟩
  · exact Or.inl ⟨List.cons_ne_nil _ _, digits.zero_cons⟩
  · exact Or.inr ⟨'0' :: whole, fraction, rfl, List.cons_ne_nil _ _, digits.zero_cons,
      fractionDigits⟩

namespace Number

theorem Decimal.ofDigits_zero_cons (whole fraction : List Char) :
    Decimal.ofDigits ('0' :: whole) fraction = Decimal.ofDigits whole fraction := by
  have sameNumber : Nat.ofDigitChars 10 ('0' :: (whole ++ fraction)) 0 =
      Nat.ofDigitChars 10 (whole ++ fraction) 0 := by
    simp [Nat.ofDigitChars_cons]
  rw [Decimal.ofDigits, Decimal.ofDigits, List.cons_append, sameNumber]

theorem read?_zero_cons {text : List Char} (numeral : IsNumeral text) :
    read? (String.ofList ('0' :: text)) = read? (String.ofList text) := by
  rcases numeral with ⟨present, digits⟩ | ⟨whole, fraction, rfl, present, digits, fractionDigits⟩
  · rw [read?_digits (List.cons_ne_nil _ _) digits.zero_cons, read?_digits present digits,
      Decimal.ofDigits_zero_cons]
  · rw [← List.cons_append,
      read?_pointed (List.cons_ne_nil _ _) digits.zero_cons fractionDigits,
      read?_pointed present digits fractionDigits, Decimal.ofDigits_zero_cons]

end Number

/-- A zero in front of a digit is part of the same lexeme. -/
theorem Lexeme.splitChars_zero_cons {c : Char} (isDigit : c.isDigit = true) (rest : List Char) :
    ∃ first further, splitChars (c :: rest) = first :: further ∧ IsNumeral first ∧
      splitChars ('0' :: c :: rest) = ('0' :: first) :: further := by
  have zeroStarts : Shape.start? '0' = some .digits := by decide
  have single : AllDigits [c] := by simpa [AllDigits] using isDigit
  have goesOn : scan (some .digits) (c :: rest) =
      (c :: (scan (some .digits) rest).1, (scan (some .digits) rest).2) :=
    scan_append_of_extends (extend?_digits single) rest
  have divided : splitChars (c :: rest) =
      (c :: (scan (some .digits) rest).1) :: (scan (some .digits) rest).2 := by
    rw [splitChars, scan]
    simp only [Option.bind_none, start?_of_isDigit isDigit]
  have dividedBehind : splitChars ('0' :: c :: rest) =
      ('0' :: c :: (scan (some .digits) rest).1) :: (scan (some .digits) rest).2 := by
    rw [splitChars, scan]
    simp only [Option.bind_none, zeroStarts, goesOn]
  have firstMember : c :: (scan (some .digits) rest).1 ∈ splitChars (c :: rest) := by
    rw [divided]
    exact List.mem_cons_self
  obtain ⟨shape, spelled⟩ := exists_spells_of_mem_splitChars firstMember
  exact ⟨_, _, divided, (head_isDigit_iff spelled).mp isDigit, dividedBehind⟩

/-- Zeros in front of a text that starts with a digit leave its value, or the cause for which it has
none. -/
theorem Evaluation.ofText_zero_append {text : String} {c : Char} {rest : List Char}
    (expanded : DisplaySymbol.expand text.toList = c :: rest) (isDigit : c.isDigit = true) :
    ofText ("0" ++ text) = ofText text := by
  obtain ⟨first, further, divided, numeral, dividedBehind⟩ := splitChars_zero_cons isDigit rest
  obtain ⟨value, read⟩ := exists_read?_of_isNumeral numeral
  have readBehind := Number.read?_zero_cons numeral
  rw [read] at readBehind
  have expandedBehind : DisplaySymbol.expand ("0" ++ text).toList = '0' :: c :: rest := by
    rw [String.toList_append, DisplaySymbol.expand_append, expanded]
    rfl
  have lexed : Token.ofText text = ((further.map String.ofList).mapM Token.ofLexeme).map
      (Token.ofNumber (String.ofList first) value :: ·) := by
    rw [Token.ofText, split, expanded, divided, List.map_cons, List.mapM_cons,
      Token.ofLexeme_of_isNumeral numeral read]
    rfl
  have lexedBehind : Token.ofText ("0" ++ text) =
      ((further.map String.ofList).mapM Token.ofLexeme).map
        (Token.ofNumber (String.ofList ('0' :: first)) value :: ·) := by
    rw [Token.ofText, split, expandedBehind, dividedBehind, List.map_cons, List.mapM_cons,
      Token.ofLexeme_of_isNumeral numeral.zero_cons readBehind]
    rfl
  rw [ofText_eq, ofText_eq, lexed, lexedBehind]
  cases (further.map String.ofList).mapM Token.ofLexeme with
  | error cause => rfl
  | ok tokens =>
      simp only [Except.map, ok_bind]
      rw [PostOrder.ofTokens_number_cons rfl, PostOrder.ofTokens_number_cons rfl]
      cases PostOrder.ofTokens tokens with
      | error cause => rfl
      | ok ordered => exact PostOrder.value_number_cons_congr rfl rfl rfl ordered

/-- Zeros in front of an expression that starts with a digit leave its value. -/
theorem evaluate_zeros_append {text : String} {c : Char} {rest : List Char}
    (expanded : DisplaySymbol.expand text.toList = c :: rest) (isDigit : c.isDigit = true)
    (zeros : Nat) :
    evaluate (.text (String.ofList (List.replicate zeros '0') ++ text)) =
      evaluate (.text text) := by
  have sameValue : Evaluation.ofText (String.ofList (List.replicate zeros '0') ++ text) =
      Evaluation.ofText text := by
    -- The zero nearest to the text is one that the text starts with, for the zeros before it.
    induction zeros generalizing text c rest with
    | zero => rw [List.replicate_zero, String.ofList_nil, String.empty_append]
    | succ zeros inductionHypothesis =>
        have expandedBehind : DisplaySymbol.expand ("0" ++ text).toList = '0' :: c :: rest := by
          rw [String.toList_append, DisplaySymbol.expand_append, expanded]
          rfl
        rw [List.replicate_succ', String.ofList_append, String.append_assoc]
        exact (inductionHypothesis expandedBehind rfl).trans
          (Evaluation.ofText_zero_append expanded isDigit)
  have present : text ≠ "" := by
    rintro rfl
    cases expanded
  have wholePresent : String.ofList (List.replicate zeros '0') ++ text ≠ "" := fun empty =>
    present (String.append_eq_empty_iff.mp empty).2
  unfold evaluate
  rw [Evaluation.result_run_text wholePresent, Evaluation.result_run_text present, sameValue]

/-- The zero nearest to a text that starts with it is the only one that counts. -/
theorem evaluate_zeros_succ_append (zeros : Nat) (text : String) :
    evaluate (.text (String.ofList (List.replicate (zeros + 1) '0') ++ text)) =
      evaluate (.text ("0" ++ text)) := by
  have expanded : DisplaySymbol.expand ("0" ++ text).toList =
      '0' :: DisplaySymbol.expand text.toList := by
    rw [String.toList_append, DisplaySymbol.expand_append]
    rfl
  rw [List.replicate_succ', String.ofList_append, String.append_assoc]
  exact evaluate_zeros_append expanded rfl zeros

/-- A point that a text starts with is no part of a number, and unknown on its own. -/
theorem evaluate_point_append (following : String) :
    evaluate (.text ("." ++ following)) = .error ⟨⟩ := by
  have present : "." ++ following ≠ "" := fun empty =>
    absurd (String.append_eq_empty_iff.mp empty).1 (by decide)
  have divided : Lexeme.split ("." ++ following) = "." :: Lexeme.split following := by
    have pointText : "." = String.singleton '.' := by decide
    rw [pointText]
    exact split_singleton_append (by decide) (by decide) following
  have unknown : Token.ofLexeme "." = .error (.unknownSymbol ".") := by decide +kernel
  rw [evaluate_eq_error_iff, Evaluation.result_run_text present, Evaluation.ofText_eq,
    Token.ofText, divided, List.mapM_cons, unknown]
  exact ⟨_, rfl⟩

/-! ## A number in front of something else -/

/-- Digits in front of a character that is neither a digit nor a point are a lexeme. -/
theorem Lexeme.splitChars_digits_append {digits : List Char} {c : Char} (present : digits ≠ [])
    (allDigits : AllDigits digits) (notDigit : c.isDigit = false) (notPoint : c ≠ '.')
    (rest : List Char) :
    splitChars (digits ++ c :: rest) = digits :: splitChars (c :: rest) := by
  obtain ⟨first, further, rfl⟩ := List.exists_cons_of_ne_nil present
  have stops : scan (some .digits) (c :: rest) = ([], splitChars (c :: rest)) := by
    have noDigits : Shape.extend? .digits c = none := by
      simp [Shape.extend?, notDigit, notPoint]
    rw [splitChars, scan, scan]
    simp only [Option.bind_some, Option.bind_none, noDigits]
    cases Shape.start? c <;> rfl
  rw [List.cons_append, splitChars, scan]
  simp only [Option.bind_none, start?_of_isDigit allDigits.head,
    scan_append_of_extends (extend?_digits allDigits.tail), stops, List.append_nil]

/-- The tokens of a text behind digits that it cannot go on with. -/
theorem Token.exists_ofText_digits_append {digits : List Char} {text : String} {c : Char}
    {rest : List Char} (present : digits ≠ []) (allDigits : AllDigits digits)
    (expanded : DisplaySymbol.expand text.toList = c :: rest) (notDigit : c.isDigit = false)
    (notPoint : c ≠ '.') :
    ∃ value, ofText (String.ofList digits ++ text) =
      (ofText text).map (ofNumber (String.ofList digits) value :: ·) := by
  have numeral : IsNumeral digits := Or.inl ⟨present, allDigits⟩
  obtain ⟨value, read⟩ := exists_read?_of_isNumeral numeral
  have expandedBehind : DisplaySymbol.expand (String.ofList digits ++ text).toList =
      digits ++ c :: rest := by
    rw [String.toList_append, String.toList_ofList, DisplaySymbol.expand_append, expanded,
      expand_of_isNumeral numeral]
  refine ⟨value, ?_⟩
  rw [ofText, ofText, split, split, expandedBehind, expanded,
    splitChars_digits_append present allDigits notDigit notPoint, List.map_cons, List.mapM_cons,
    ofLexeme_of_isNumeral numeral read]
  rfl

/-- A text that has a value behind digits that it cannot go on with has none without them: it lacks
a number for one of its operators. -/
theorem evaluate_of_evaluate_digits_append {digits : List Char} {text : String} {c : Char}
    {rest : List Char} {value : Float} (present : digits ≠ []) (allDigits : AllDigits digits)
    (expanded : DisplaySymbol.expand text.toList = c :: rest) (notDigit : c.isDigit = false)
    (notPoint : c ≠ '.')
    (valued : evaluate (.text (String.ofList digits ++ text)) = .ok value) :
    evaluate (.text text) = .error ⟨⟩ := by
  have textPresent : text ≠ "" := by
    rintro rfl
    cases expanded
  have wholePresent : String.ofList digits ++ text ≠ "" := fun empty =>
    textPresent (String.append_eq_empty_iff.mp empty).2
  rw [evaluate_eq_ok_iff, Evaluation.result_run_text wholePresent] at valued
  obtain ⟨tokens, ordered, lexed, reordered, orderedValued⟩ :=
    Evaluation.ofText_eq_ok_iff.mp valued
  obtain ⟨number, numberLexed⟩ :=
    Token.exists_ofText_digits_append present allDigits expanded notDigit notPoint
  rw [numberLexed] at lexed
  cases textLexed : Token.ofText text with
  | error cause =>
      rw [textLexed] at lexed
      cases lexed
  | ok behind =>
      rw [textLexed] at lexed
      cases lexed
      have balanced := PostOrder.balanced_of_value reordered orderedValued
      refine evaluate_of_not_balanced textLexed textPresent fun behindBalanced => ?_
      have counted : Token.numbers behind = Token.operators behind := by
        simpa [Token.Balanced, Token.ofNumber] using balanced
      rw [Token.Balanced] at behindBalanced
      omega

end PocketCalc
