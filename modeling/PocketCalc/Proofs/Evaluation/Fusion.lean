import PocketCalc.Proofs.Evaluation.ReadBack
import PocketCalc.Proofs.Lexeme.Joint

/-!
Contract: symbols that are one lexeme with the text around them.

Owns:
- `DisplaySymbol.Fused`, the texts with which the ASCII text of a symbol goes on;
- a symbol is a lexeme of its own exactly if it is not fused;
- digits next to the circle constant, which are one number with its digits.

Does not own: texts without symbols; see `Lexeme/Joint`.

The texts around a symbol count with their own symbols expanded, since all are expanded before the
scan. So two symbols can fuse with each other too.
-/

namespace PocketCalc

open PocketCalc.Lexeme

namespace DisplaySymbol

/-- Whether the ASCII text of a symbol goes on with the expanded text before it or behind it. The
circle constant does so behind a number and in front of a digit, the root behind and in front of a
letter, and the three operators never. -/
def Fused : DisplaySymbol → List Char → List Char → Prop
  | circleConstant, before, after =>
      EndsIn IsNumeral before ∨ ∃ c ∈ after.head?, c.isDigit = true
  | root, before, after =>
      EndsIn Shape.letters.Spells before ∨ ∃ c ∈ after.head?, c.isAlpha = true
  | times, _, _ => False
  | minus, _, _ => False
  | obelus, _, _ => False

/-- The shape of the lexeme that a symbol stands for. -/
def shape : DisplaySymbol → Shape
  | circleConstant => .digitsWithPoint
  | root => .letters
  | times | minus | obelus => .single

/-- The first character of the ASCII text of a symbol. -/
def first : DisplaySymbol → Char
  | circleConstant => '3'
  | times => '*'
  | minus => '-'
  | obelus => '/'
  | root => 's'

/-- The digits of the circle constant behind its point. -/
def circleFraction : List Char :=
  ['1', '4', '1', '5', '9', '2', '6', '5', '3', '5', '8', '9', '7', '9', '3']

theorem circleConstant_toList :
    circleConstant.replacement.toList = '3' :: '.' :: circleFraction := by
  decide +kernel

theorem root_toList : root.replacement.toList = ['s', 'q', 'r', 't'] := by decide

theorem spells_replacement (symbol : DisplaySymbol) :
    symbol.shape.Spells symbol.replacement.toList := by
  cases symbol with
  | circleConstant =>
      rw [circleConstant_toList]
      exact ⟨['3'], circleFraction, rfl, by decide, by decide, by decide⟩
  | root =>
      rw [root_toList]
      exact ⟨by decide, by simp⟩
  | times | minus | obelus => exact ⟨_, rfl, by decide, by decide, by decide⟩

theorem exists_replacement_eq_first (symbol : DisplaySymbol) :
    ∃ rest, symbol.replacement.toList = symbol.first :: rest := by
  cases symbol with
  | circleConstant => exact ⟨_, circleConstant_toList⟩
  | root => exact ⟨_, root_toList⟩
  | times | minus | obelus => exact ⟨[], rfl⟩

/-- A symbol is fused if a lexeme goes on with its first character, or its own lexeme goes on with
the first character behind it. -/
theorem fused_iff (symbol : DisplaySymbol) (before after : List Char) :
    symbol.Fused before after ↔
      (∃ opened, openAfter none before = some opened ∧ opened.extend? symbol.first ≠ none) ∨
        ∃ c ∈ after.head?, symbol.shape.extend? c ≠ none := by
  cases symbol with
  | circleConstant =>
      refine or_congr ?_ (exists_congr fun c => and_congr_right fun _ => ?_)
      · rw [endsIn_isNumeral_iff]
        constructor
        · rintro (isOpen | isOpen)
          · exact ⟨_, isOpen, by decide⟩
          · exact ⟨_, isOpen, by decide⟩
        · rintro ⟨opened, isOpen, goesOn⟩
          cases opened with
          | digits => exact .inl isOpen
          | digitsWithPoint => exact .inr isOpen
          | letters | single => exact absurd rfl goesOn
      · simp [shape, Shape.extend?]
  | root =>
      refine or_congr ?_ (exists_congr fun c => and_congr_right fun _ => ?_)
      · rw [← openAfter_eq_some_iff]
        constructor
        · exact fun isOpen => ⟨_, isOpen, by decide⟩
        · rintro ⟨opened, isOpen, goesOn⟩
          cases opened with
          | letters => exact isOpen
          | digits | digitsWithPoint | single => exact absurd rfl goesOn
      · simp [shape, Shape.extend?]
  | times | minus | obelus =>
      refine iff_of_false not_false ?_
      rintro (⟨opened, -, goesOn⟩ | ⟨c, -, goesOn⟩)
      · cases opened <;> exact goesOn rfl
      · exact goesOn rfl

/-! ## Symbols in an expression -/

theorem expandChar_char (symbol : DisplaySymbol) :
    expandChar symbol.char = symbol.replacement.toList := by
  cases symbol <;> rfl

theorem expand_surrounded (symbol : DisplaySymbol) (before after : String) :
    expand (before ++ String.singleton symbol.char ++ after).toList =
      expand before.toList ++ (symbol.replacement.toList ++ expand after.toList) := by
  have alone : expand [symbol.char] = symbol.replacement.toList := by
    rw [expand, List.flatMap_singleton, expandChar_char]
  rw [String.toList_append, String.toList_append, expand_append, expand_append,
    String.toList_singleton, alone, List.append_assoc]

/-- A symbol is a lexeme of its own between two expressions exactly if it is not fused. -/
theorem split_surrounded_iff (symbol : DisplaySymbol) (before after : String) :
    split (before ++ String.singleton symbol.char ++ after) =
        split before ++ symbol.replacement :: split after ↔
      ¬symbol.Fused (expand before.toList) (expand after.toList) := by
  obtain ⟨rest, expanded⟩ := exists_replacement_eq_first symbol
  have spelled := spells_replacement symbol
  have written : symbol.replacement = String.ofList (symbol.first :: rest) := by
    rw [← expanded, String.ofList_toList]
  have lexemes : split before ++ symbol.replacement :: split after =
      (splitChars (expand before.toList) ++
        (symbol.first :: rest) :: splitChars (expand after.toList)).map String.ofList := by
    rw [List.map_append, List.map_cons, ← written]
    rfl
  have injective : Function.Injective (List.map String.ofList) :=
    List.map_injective_iff.mpr fun _ _ => String.ofList_injective
  rw [expanded] at spelled
  rw [lexemes, split, expand_surrounded, expanded, injective.eq_iff,
    splitChars_surrounded_iff spelled, fused_iff, not_or]
  refine and_congr ?_ ?_
  · rw [Option.bind_eq_none_iff]
    push Not
    rfl
  · push Not
    rfl

/-! ## Digits next to the circle constant -/

theorem expand_of_allDigits {text : List Char} (digits : AllDigits text) : expand text = text := by
  refine expand_of_ascii fun c member => ?_
  have := Number.Numeral.IsPlain.toNat_le (.inl (digits c member))
  omega

theorem isNumeral_circleConstant_surrounded {before after : List Char}
    (beforeDigits : AllDigits before) (afterDigits : AllDigits after) :
    IsNumeral (before ++ (circleConstant.replacement.toList ++ after)) := by
  rw [circleConstant_toList]
  have wholeDigits : AllDigits ['3'] := by decide
  have fractionDigits : AllDigits circleFraction := by decide
  exact .inr ⟨before ++ ['3'], circleFraction ++ after, by simp, by simp,
    List.forall_mem_append.mpr ⟨beforeDigits, wholeDigits⟩,
    List.forall_mem_append.mpr ⟨fractionDigits, afterDigits⟩⟩

/-- Digits next to the circle constant are one lexeme with it. -/
theorem split_circleConstant_surrounded {before after : String}
    (beforeDigits : AllDigits before.toList) (afterDigits : AllDigits after.toList) :
    split (before ++ String.singleton circleConstant.char ++ after) =
      [String.ofList (before.toList ++ (circleConstant.replacement.toList ++ after.toList))] := by
  have numeral := isNumeral_circleConstant_surrounded beforeDigits afterDigits
  rw [← split_of_isNumeral numeral, split, split, expand_surrounded, String.toList_ofList,
    expand_of_allDigits beforeDigits, expand_of_allDigits afterDigits, expand_of_isNumeral numeral]

end DisplaySymbol

/-- An expression of one lexeme that is a numeral has the value that the numeral is read as. -/
theorem evaluate_of_split {expression : String} {text : List Char} {value : Float}
    (numeral : IsNumeral text) (read : Number.read? (String.ofList text) = some value)
    (alone : split expression = [String.ofList text]) :
    evaluate (.text expression) = .ok value := by
  have lexed := Token.ofText_of_isNumeral numeral read
  rw [Token.ofText, split_of_isNumeral numeral, ← alone] at lexed
  exact evaluate_of_stages lexed (List.cons_ne_nil _ _) rfl rfl

open DisplaySymbol in
/-- A symbol is a lexeme of its own between two expressions exactly if its ASCII text goes on with
neither of them. With nothing but digits on either side the circle constant is one number with them
instead, which is the value of the expression. -/
theorem symbols_are_lexemes_unless_fused (symbol : DisplaySymbol) (before after : String) :
    (split (before ++ String.singleton symbol.char ++ after) =
        split before ++ symbol.replacement :: split after ↔
      ¬symbol.Fused (expand before.toList) (expand after.toList)) ∧
      (symbol = circleConstant → AllDigits before.toList → AllDigits after.toList →
        let expression := before ++ String.singleton symbol.char ++ after
        let number := before ++ symbol.replacement ++ after
        split expression = [number] ∧
          ∃ value, Number.read? number = some value ∧
            evaluate (.text expression) = .ok value) := by
  refine ⟨split_surrounded_iff symbol before after, ?_⟩
  rintro rfl beforeDigits afterDigits expression number
  have numeral := isNumeral_circleConstant_surrounded beforeDigits afterDigits
  have alone := split_circleConstant_surrounded beforeDigits afterDigits
  obtain ⟨value, read⟩ := exists_read?_of_isNumeral numeral
  have numberText : number =
      String.ofList (before.toList ++ (circleConstant.replacement.toList ++ after.toList)) := by
    simp only [number, String.ofList_append, String.ofList_toList, String.append_assoc]
  rw [numberText]
  exact ⟨alone, value, read, evaluate_of_split numeral read alone⟩

/-- Two digits around the circle constant are a number with its digits. -/
theorem two_and_five_around_circle_constant_are_one_number :
    split "2π5" = ["23.1415926535897935"] ∧
      ∃ value, Number.read? "23.1415926535897935" = some value ∧
        evaluate (.text "2π5") = .ok value := by
  have expressionText :
      "2" ++ String.singleton DisplaySymbol.circleConstant.char ++ "5" = "2π5" := by
    decide +kernel
  have numberText :
      "2" ++ DisplaySymbol.circleConstant.replacement ++ "5" = "23.1415926535897935" := by
    decide +kernel
  have fused := (symbols_are_lexemes_unless_fused .circleConstant "2" "5").2 rfl (by decide)
    (by decide)
  rw [← expressionText, ← numberText]
  exact fused

/-- A two in front of the circle constant is no number of its own, and the value is another. -/
theorem two_before_circle_constant_is_absorbed :
    split "2π" = ["23.141592653589793"] ∧
      evaluate (.text "2π") = .ok 23.141592653589793 ∧
      ¬∀ (symbol : DisplaySymbol) (before after : String),
        split (before ++ String.singleton symbol.char ++ after) =
          split before ++ symbol.replacement :: split after := by
  have absorbed : split "2π" = ["23.141592653589793"] := by decide +kernel
  refine ⟨absorbed, by decide +kernel, fun always => ?_⟩
  have expressionText :
      "2" ++ String.singleton DisplaySymbol.circleConstant.char ++ "" = "2π" := by
    decide +kernel
  have apart := always .circleConstant "2" ""
  rw [expressionText, absorbed] at apart
  exact absurd apart (by decide +kernel)

end PocketCalc
