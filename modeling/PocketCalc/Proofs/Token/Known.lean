import PocketCalc.Proofs.Number.Literal
import PocketCalc.Proofs.Stage
import PocketCalc.Token.Lexical

/-!
Contract: which lexemes have a token.

Owns:
- `Lexeme.Known`, the lexemes that mean something, by their text alone;
- `Token.Proper`, the tokens that lexemes stand for;
- a text has tokens exactly if all its lexemes are known, and is refused for the first that is not.

Does not own: texts that no scan yields as a lexeme.
-/

namespace PocketCalc

open PocketCalc.Stage

namespace Lexeme

/-- The lexemes that mean something. -/
inductive Known : String → Prop where
  | number {text : List Char} : IsNumeral text → Known (String.ofList text)
  | function (function : NamedFunction) : Known function.name
  | opening : Known "("
  | closing : Known ")"
  | operator (operator : Operator) : Known operator.symbol

/-- Whether a lexeme is the leftmost of a list that means nothing. -/
def FirstUnknown (lexemes : List String) (lexeme : String) : Prop :=
  ∃ before after, lexemes = before ++ lexeme :: after ∧ (∀ earlier ∈ before, Known earlier) ∧
    ¬Known lexeme

theorem exists_spells_of_mem_split {expression lexeme : String}
    (member : lexeme ∈ split expression) : ∃ shape : Shape, shape.Spells lexeme.toList := by
  obtain ⟨text, inText, rfl⟩ := List.mem_map.mp member
  rw [String.toList_ofList]
  exact exists_spells_of_mem_splitChars inText

theorem exists_read?_of_isNumeral {text : List Char} (numeral : IsNumeral text) :
    ∃ value, Number.read? (String.ofList text) = some value := by
  rcases numeral with ⟨present, digits⟩ | ⟨whole, fraction, rfl, present, digits, fractionDigits⟩
  · exact ⟨_, Number.read?_digits present digits⟩
  · exact ⟨_, Number.read?_pointed present digits fractionDigits⟩

/-- A lexeme starts with a digit exactly if it is a number. -/
theorem head_isDigit_iff {shape : Shape} {text : List Char} (spelled : shape.Spells text) :
    text.head?.any Char.isDigit = true ↔ IsNumeral text := by
  have ofNumeral : IsNumeral text → text.head?.any Char.isDigit = true := by
    rintro (⟨present, digits⟩ | ⟨whole, fraction, rfl, present, digits, -⟩)
    · obtain ⟨c, rest, rfl⟩ := List.exists_cons_of_ne_nil present
      exact digits.head
    · obtain ⟨c, rest, rfl⟩ := List.exists_cons_of_ne_nil present
      exact digits.head
  refine ⟨fun startsDigit => ?_, ofNumeral⟩
  cases shape with
  | digits => exact Or.inl spelled
  | digitsWithPoint => exact Or.inr spelled
  | letters =>
      obtain ⟨present, alphas⟩ := spelled
      obtain ⟨c, rest, rfl⟩ := List.exists_cons_of_ne_nil present
      have letter := start?_of_isAlpha (alphas c List.mem_cons_self)
      rw [start?_of_isDigit startsDigit] at letter
      cases letter
  | single =>
      obtain ⟨c, rfl, -, notDigit, -⟩ := spelled
      exact absurd startsDigit (by simp [notDigit])

end Lexeme

namespace Token

open PocketCalc.Lexeme

/-- The tokens that lexemes stand for. -/
inductive Proper : Token → Prop where
  | number (text : String) (value : Float) : Proper (ofNumber text value)
  | function (function : NamedFunction) : Proper (ofFunction function)
  | opening : Proper opening
  | closing : Proper closing
  | operator (operator : Operator) : Proper (ofOperator operator)

theorem Proper.ofSymbol?_ne_none {token : Token} (proper : token.Proper)
    (isOperator : token.kind = .operator) : Operator.ofSymbol? token.text ≠ none := by
  cases proper with
  | operator operator =>
      rw [ofOperator, Operator.ofSymbol?_eq_some_iff.mpr rfl]
      simp
  | number text value => cases isOperator
  | function function => cases isOperator
  | opening => cases isOperator
  | closing => cases isOperator

theorem numberValue?_of_isNumeral {text : List Char} (numeral : IsNumeral text) :
    numberValue? (String.ofList text) = Number.read? (String.ofList text) := by
  have startsDigit : text.head?.any Char.isDigit = true := by
    rcases numeral with digits | pointed
    · exact (head_isDigit_iff digits).mpr (Or.inl digits)
    · exact (head_isDigit_iff pointed).mpr (Or.inr pointed)
  rw [numberValue?, String.toList_ofList, if_pos startsDigit]

/-- A number is the token of the double that it is read as. -/
theorem ofLexeme_of_isNumeral {text : List Char} {value : Float} (numeral : IsNumeral text)
    (read : Number.read? (String.ofList text) = some value) :
    ofLexeme (String.ofList text) = .ok (ofNumber (String.ofList text) value) := by
  have present : String.ofList text ≠ "" := by
    intro empty
    rcases numeral with ⟨nonempty, -⟩ | ⟨whole, fraction, rfl, -⟩
    · exact nonempty (String.ofList_injective empty)
    · have impossible : whole ++ '.' :: fraction = [] := String.ofList_injective empty
      simp at impossible
  rw [ofLexeme, if_neg present, numberValue?_of_isNumeral numeral, read]

/-- A lexeme of a text has a proper token if it is known, and is refused as unknown otherwise. -/
theorem ofLexeme_of_spells {shape : Shape} {lexeme : String}
    (spelled : shape.Spells lexeme.toList) :
    (Known lexeme ∧ ∃ token, ofLexeme lexeme = .ok token ∧ token.Proper) ∨
      (¬Known lexeme ∧ ofLexeme lexeme = .error (.unknownSymbol lexeme)) := by
  by_cases numeral : IsNumeral lexeme.toList
  · obtain ⟨value, read⟩ := exists_read?_of_isNumeral numeral
    have token := ofLexeme_of_isNumeral numeral read
    rw [String.ofList_toList] at token
    have known := Known.number numeral
    rw [String.ofList_toList] at known
    exact Or.inl ⟨known, _, token, .number lexeme value⟩
  · have present : lexeme ≠ "" := by
      rintro rfl
      cases shape with
      | digits => exact spelled.1 rfl
      | digitsWithPoint => exact numeral (Or.inr spelled)
      | letters => exact spelled.1 rfl
      | single =>
          obtain ⟨c, impossible, -⟩ := spelled
          cases impossible
    have noNumber : numberValue? lexeme = none := by
      rw [numberValue?, if_neg (mt (head_isDigit_iff spelled).mp numeral)]
    rw [ofLexeme, if_neg present, noNumber]
    dsimp only
    cases named : NamedFunction.ofName? lexeme with
    | some function =>
        obtain rfl := NamedFunction.ofName?_eq_some_iff.mp named
        exact Or.inl ⟨.function function, _, rfl, .function function⟩
    | none =>
        dsimp only
        by_cases isOpening : lexeme = "("
        · rw [if_pos isOpening, isOpening]
          exact Or.inl ⟨.opening, _, rfl, .opening⟩
        · rw [if_neg isOpening]
          by_cases isClosing : lexeme = ")"
          · rw [if_pos isClosing, isClosing]
            exact Or.inl ⟨.closing, _, rfl, .closing⟩
          · rw [if_neg isClosing]
            cases found : Operator.ofSymbol? lexeme with
            | some operator =>
                obtain rfl := Operator.ofSymbol?_eq_some_iff.mp found
                exact Or.inl ⟨.operator operator, _, rfl, .operator operator⟩
            | none =>
                refine Or.inr ⟨?_, rfl⟩
                intro known
                cases known with
                | number isNumeral =>
                    rw [String.toList_ofList] at numeral
                    exact numeral isNumeral
                | function function =>
                    rw [NamedFunction.ofName?_eq_some_iff.mpr rfl] at named
                    cases named
                | opening => exact isOpening rfl
                | closing => exact isClosing rfl
                | operator operator =>
                    rw [Operator.ofSymbol?_eq_some_iff.mpr rfl] at found
                    cases found

theorem exists_ofLexeme_iff_known {expression lexeme : String}
    (member : lexeme ∈ split expression) :
    (∃ token, ofLexeme lexeme = .ok token) ↔ Known lexeme := by
  obtain ⟨shape, spelled⟩ := exists_spells_of_mem_split member
  rcases ofLexeme_of_spells spelled with ⟨known, token, made, -⟩ | ⟨unknown, refused⟩
  · exact ⟨fun _ => known, fun _ => ⟨token, made⟩⟩
  · rw [refused]
    simp [unknown]

theorem ofLexeme_eq_error_iff {expression lexeme : String} {cause : Failure}
    (member : lexeme ∈ split expression) :
    ofLexeme lexeme = .error cause ↔ ¬Known lexeme ∧ cause = .unknownSymbol lexeme := by
  obtain ⟨shape, spelled⟩ := exists_spells_of_mem_split member
  rcases ofLexeme_of_spells spelled with ⟨known, token, made, -⟩ | ⟨unknown, refused⟩
  · rw [made]
    simp [known]
  · rw [refused]
    simp [unknown, eq_comm]

/-- The tokens of a text are proper, and all its lexemes are known. -/
theorem proper_of_ofText {expression : String} {tokens : List Token}
    (lexed : ofText expression = .ok tokens) :
    (∀ token ∈ tokens, token.Proper) ∧ ∀ lexeme ∈ split expression, Known lexeme := by
  constructor
  · refine forall_mem_of_mapM_eq_ok ?_ lexed
    intro lexeme member token made
    obtain ⟨shape, spelled⟩ := exists_spells_of_mem_split member
    rcases ofLexeme_of_spells spelled with ⟨-, other, otherMade, proper⟩ | ⟨-, refused⟩
    · rw [made] at otherMade
      cases otherMade
      exact proper
    · rw [made] at refused
      cases refused
  · intro lexeme member
    exact (exists_ofLexeme_iff_known member).mp (exists_of_mapM_eq_ok lexed lexeme member)

/-- A text is refused exactly for the leftmost lexeme that means nothing. -/
theorem ofText_eq_error_iff {expression : String} {cause : Failure} :
    ofText expression = .error cause ↔
      ∃ lexeme, FirstUnknown (split expression) lexeme ∧ cause = .unknownSymbol lexeme := by
  rw [ofText, mapM_eq_error_iff]
  constructor
  · rintro ⟨before, lexeme, after, divided, treated, refused⟩
    have lexemeMember : lexeme ∈ split expression := by
      simp [divided]
    obtain ⟨unknown, causeEq⟩ := (ofLexeme_eq_error_iff lexemeMember).mp refused
    refine ⟨lexeme, ⟨before, after, divided, fun earlier inBefore => ?_, unknown⟩, causeEq⟩
    have earlierMember : earlier ∈ split expression := by
      simp [divided, inBefore]
    exact (exists_ofLexeme_iff_known earlierMember).mp (treated earlier inBefore)
  · rintro ⟨lexeme, ⟨before, after, divided, known, unknown⟩, causeEq⟩
    have lexemeMember : lexeme ∈ split expression := by
      simp [divided]
    have refused := (ofLexeme_eq_error_iff lexemeMember).mpr ⟨unknown, causeEq⟩
    refine ⟨before, lexeme, after, divided, fun earlier inBefore => ?_, refused⟩
    have earlierMember : earlier ∈ split expression := by
      simp [divided, inBefore]
    exact (exists_ofLexeme_iff_known earlierMember).mpr (known earlier inBefore)

end Token

end PocketCalc
