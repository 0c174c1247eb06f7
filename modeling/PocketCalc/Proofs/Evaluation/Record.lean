import PocketCalc.Proofs.Calculator.Press
import PocketCalc.Proofs.Text.Quotation

/-!
Contract: what the log's records show of the expressions that they are about.

Owns:
- `Log.Written`, the records of an evaluation and of a calculation, and `Log.Shows`, the form of
  their messages;
- every message is printable, as is the reason of every failure;
- `Log.shownExpression?`, which reads the expression off a message, and that it is the one that was
  evaluated, so that different expressions never leave the same message.

Does not own: when a record is written; see `Evaluation/Outcome` and `Calculator/Invariant`.
-/

namespace PocketCalc

open PocketCalc.Text

namespace Log

/-- The words in front of the expression in the record of a failure. -/
def failureWords : String := "Evaluation error in "

/-- The expression that a message shows, quoted at its start or right behind the words of a
failure. -/
def shownExpression? (message : String) : Option String :=
  let chars := message.toList
  let words := failureWords.toList
  let quoted := if chars.take words.length = words then chars.drop words.length else chars
  (unquote? quoted).map (String.ofList ·.1)

/-- The records that an expression leaves: when it is evaluated, or when a calculator on which it is
entered calculates. -/
inductive Written (expression : String) : Record → Prop
  | evaluation {record : Record} (member : record ∈ (Evaluation.run (.text expression)).log) :
      Written expression record
  | calculation {calculator : Calculator} {record : Record}
      (entered : calculator.expression = expression) (member : record ∈ calculator.calculate.2) :
      Written expression record

end Log

/-! ## Printable messages -/

theorem Number.isPrintableText_positionalText (value : Float) :
    IsPrintableText (positionalText value).toList := by
  intro c member
  rcases mem_positionalText member with (isDigit | rfl) | isLetter
  · exact isPrintable_of_isDigit isDigit
  · exact isPrintable_of_isGraphic (by decide)
  · have letters : IsGraphicText ['-', 'i', 'n', 'f', 'a'] := by decide
    exact letters.isPrintableText c isLetter

theorem Text.isPrintableText_quote (text : String) : IsPrintableText (quote text).toList := by
  rw [quote, String.toList_ofList]
  exact isPrintableText_quoteChars text.toList

theorem isPrintableText_toString (count : Nat) : IsPrintableText (toString count).toList := by
  rw [Nat.toString_eq_ofList_toDigits, String.toList_ofList]
  exact fun c member => isPrintable_of_isDigit (Number.allDigits_digits count c member)

theorem Evaluation.Explains.isPrintableText {expression reason : String} {cause : Failure}
    (explains : Explains expression cause reason) : IsPrintableText reason.toList := by
  cases explains with
  | unknownSymbol first =>
      rw [String.toList_append]
      exact (IsGraphicText.isPrintableText (by decide)).append (isPrintableText_quote _)
  | unmatchedClosing => exact IsGraphicText.isPrintableText (by decide)
  | unmatchedOpening => exact IsGraphicText.isPrintableText (by decide)
  | missingOperand function =>
      refine IsGraphicText.isPrintableText ?_
      cases function <;> decide
  | missingOperands operator =>
      refine IsGraphicText.isPrintableText ?_
      cases operator <;> decide
  | valuesLeft notOne =>
      rw [String.toList_append]
      exact (isPrintableText_toString _).append (IsGraphicText.isPrintableText (by decide))

/-! ## The expression in a message -/

theorem Text.unquote?_quote (text : String) (behind : List Char) :
    unquote? ((quote text).toList ++ behind) = some (text.toList, behind) := by
  rw [quote, String.toList_ofList]
  exact unquote?_quoteChars text.toList behind

namespace Log

/-- A quoted expression at the start of a message is the one that the message shows. -/
theorem shownExpression?_quote (expression behind : String) :
    shownExpression? (Text.quote expression ++ behind) = some expression := by
  -- A message that starts with a quotation mark does not start with the words of a failure.
  have startsOtherwise :
      (Text.quote expression ++ behind).toList.take failureWords.toList.length ≠
        failureWords.toList := by
    have wordsEq : failureWords.toList = 'E' :: "valuation error in ".toList := by decide +kernel
    have noMark : 'E' ≠ singleQuote ∧ 'E' ≠ doubleQuote := by decide
    rw [String.toList_append, Text.quote, String.toList_ofList, quoteChars, wordsEq]
    intro same
    have sameHead : quoteMark expression.toList = 'E' := (List.cons.inj same).1
    rcases quoteMark_eq_or expression.toList with isSingle | isDouble
    · exact noMark.1 (sameHead.symm.trans isSingle)
    · exact noMark.2 (sameHead.symm.trans isDouble)
  rw [shownExpression?, if_neg startsOtherwise, String.toList_append, unquote?_quote,
    Option.map_some, String.ofList_toList]

theorem shownExpression?_failureWords (expression behind : String) :
    shownExpression? (failureWords ++ Text.quote expression ++ behind) = some expression := by
  rw [shownExpression?, String.toList_append, String.toList_append, List.append_assoc,
    if_pos List.take_left, List.drop_left, unquote?_quote, Option.map_some, String.ofList_toList]

/-- Whether a message shows an expression: quoted, with nothing or the words of a failure in front
and printable characters behind. -/
def Shows (message expression : String) : Prop :=
  ∃ front behind, (front = "" ∨ front = failureWords) ∧ IsPrintableText behind.toList ∧
    message = front ++ Text.quote expression ++ behind

namespace Shows

variable {message expression : String}

theorem of_failure {reason : String} {cause : Failure}
    (explains : Evaluation.Explains expression cause reason) :
    Shows ("Evaluation error in " ++ Text.quote expression ++ ": " ++ reason) expression := by
  refine ⟨failureWords, ": " ++ reason, Or.inr rfl, ?_, ?_⟩
  · rw [String.toList_append]
    exact (IsGraphicText.isPrintableText (by decide)).append explains.isPrintableText
  · rw [← String.append_assoc]
    rfl

theorem of_value (expression : String) (value : Float) :
    Shows (Text.quote expression ++ " = " ++ Number.positionalText value) expression := by
  refine ⟨"", " = " ++ Number.positionalText value, Or.inl rfl, ?_, ?_⟩
  · rw [String.toList_append]
    exact (IsGraphicText.isPrintableText (by decide)).append
      (Number.isPrintableText_positionalText value)
  · rw [String.empty_append, String.append_assoc]

theorem isPrintableText (showing : Shows message expression) : IsPrintableText message.toList := by
  obtain ⟨front, behind, isFront, behindPrintable, rfl⟩ := showing
  have frontPrintable : IsPrintableText front.toList := by
    refine IsGraphicText.isPrintableText ?_
    rcases isFront with rfl | rfl <;> decide
  rw [String.toList_append, String.toList_append]
  exact (frontPrintable.append (isPrintableText_quote expression)).append behindPrintable

theorem shownExpression? (showing : Shows message expression) :
    Log.shownExpression? message = some expression := by
  obtain ⟨front, behind, rfl | rfl, -, rfl⟩ := showing
  · rw [String.empty_append]
    exact shownExpression?_quote expression behind
  · exact shownExpression?_failureWords expression behind

end Shows

/-- Every record that an expression leaves shows it. -/
theorem Written.shows {expression : String} {record : Record}
    (written : Written expression record) : Shows record.message expression := by
  cases written with
  | evaluation member =>
      by_cases nonempty : expression ≠ ""
      · rcases Evaluation.run_text_eq_or nonempty with ⟨value, outcome⟩ |
          ⟨cause, reason, explains, -, outcome⟩
        · rw [outcome] at member
          cases member
        · rw [outcome] at member
          rw [List.mem_singleton.mp member]
          exact .of_failure explains
      · rw [not_not.mp nonempty, Evaluation.run_of_falsy .emptyText] at member
        cases member
  | @calculation calculator _ entered member =>
      subst entered
      cases evaluated : evaluate (.text calculator.expression) with
      | ok value =>
          rw [Calculator.calculate_of_value evaluated] at member
          rw [List.mem_singleton.mp member]
          exact .of_value calculator.expression value
      | error invalid =>
          obtain ⟨cause, reason, explains, -, outcome⟩ := Calculator.calculate_of_error evaluated
          rw [outcome] at member
          rw [List.mem_singleton.mp member]
          exact .of_failure explains

end Log

/-- No text can forge a record or be taken for another one.

The reasons of failures and the messages of records are printable, whatever the expression. In a
message the expression stands quoted, which ends by itself whatever follows it, so that it can be
read off the message and different expressions leave different messages. -/
theorem records_show_their_expression :
    (∀ expression cause, (Evaluation.run (.text expression)).result = .error cause →
      IsPrintableText cause.reason.toList) ∧
    (∀ expression record, Log.Written expression record →
      IsPrintableText record.message.toList ∧
        (∃ front behind, (front = "" ∨ front = Log.failureWords) ∧
          record.message = front ++ Text.quote expression ++ behind) ∧
        Log.shownExpression? record.message = some expression) ∧
    (∀ expression behind,
      unquote? ((Text.quote expression).toList ++ behind) = some (expression.toList, behind)) ∧
    ∀ expression other record otherRecord, Log.Written expression record →
      Log.Written other otherRecord → record.message = otherRecord.message →
        expression = other := by
  refine ⟨fun expression cause failed => ?_, fun expression record written => ?_,
    fun expression behind => unquote?_quote expression behind, ?_⟩
  · by_cases nonempty : expression ≠ ""
    · rw [Evaluation.result_run_text nonempty] at failed
      obtain ⟨reason, explains⟩ := Evaluation.explains_of_ofText_eq_error failed
      rw [explains.reason_eq]
      exact explains.isPrintableText
    · rw [not_not.mp nonempty, Evaluation.run_of_falsy .emptyText] at failed
      cases failed
  · obtain ⟨front, behind, isFront, -, messageEq⟩ := written.shows
    exact ⟨written.shows.isPrintableText, ⟨front, behind, isFront, messageEq⟩,
      written.shows.shownExpression?⟩
  · intro expression other record otherRecord written otherWritten same
    have shown := written.shows.shownExpression?
    rw [same, otherWritten.shows.shownExpression?] at shown
    exact (Option.some.inj shown).symm

/-- Both quotation marks, a backslash, a line feed, a blank without width and the last code point
are all written so that they print and can be read back; and the record of the failure is not that
of an empty calculator. -/
theorem odd_characters_are_shown_and_read_back :
    let expression := String.ofList
      [singleQuote, doubleQuote, backslash, '\n', '\u200b', Char.ofNat 0x10ffff]
    let quoted := "\x27\\\x27\x22\\\\\\n\\u200b\\U0010ffff\x27"
    let record : Log.Record := ⟨.engine, .error,
      "Evaluation error in " ++ quoted ++ ": unknown symbol \x22\x27\x22"⟩
    let blank : Log.Record := ⟨.calculator, .debug, "\x27\x27 = 0"⟩
    (Evaluation.run (.text expression)).result = .error (.unknownSymbol "\x27") ∧
      Log.Written expression record ∧ Log.Written "" blank ∧
      IsPrintableText (Failure.unknownSymbol "\x27").reason.toList ∧
      IsPrintableText record.message.toList ∧
      Log.shownExpression? record.message = some expression ∧
      record.message ≠ blank.message := by
  intro expression quoted record blank
  have outcome : (Evaluation.run (.text expression)).result = .error (.unknownSymbol "\x27") ∧
      (Evaluation.run (.text expression)).log = [record] := by
    decide +kernel
  have blankLog : (Calculator.new.calculate).2 = [blank] := by decide +kernel
  have written : Log.Written expression record :=
    .evaluation (by rw [outcome.2]; exact List.mem_singleton_self record)
  have blankWritten : Log.Written "" blank :=
    .calculation (show Calculator.new.expression = "" from rfl)
      (by rw [blankLog]; exact List.mem_singleton_self blank)
  obtain ⟨reasons, messages, -, apart⟩ := records_show_their_expression
  obtain ⟨printable, -, shown⟩ := messages expression record written
  refine ⟨outcome.1, written, blankWritten, reasons _ _ outcome.1, printable, shown, fun same => ?_⟩
  exact absurd (apart expression "" record blank written blankWritten same) (by decide +kernel)

end PocketCalc
