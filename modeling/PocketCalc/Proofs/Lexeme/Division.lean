import Mathlib.Data.List.Basic
import PocketCalc.Proofs.Lexeme.Joint

/-!
Contract: the lexemes of a text as the one way to divide it.

Owns:
- the symbols replaced one after the other, which is their expansion in one pass;
- `Divides`, the divisions of a text into lexemes and the blanks between them, in which no lexeme
  can be extended;
- every text has exactly one such division, and the scan finds it.

Does not own: the way in which the scan reads a text; see `Lexeme/Scan`.

`Divides` speaks of the characters before and behind a lexeme only, and not of what the scan holds
open. So it says which lexemes a text has without saying how they are found.
-/

namespace PocketCalc

namespace DisplaySymbol

/-! ## Symbols one after the other -/

/-- A text with one symbol replaced by its ASCII text. -/
def replaceIn (symbol : DisplaySymbol) (text : List Char) : List Char :=
  text.flatMap fun c => if c = symbol.char then symbol.replacement.toList else [c]

/-- A text with the symbols replaced one after the other. -/
def replaceEach (text : List Char) : List Char :=
  all.foldl (fun replaced symbol => symbol.replaceIn replaced) text

theorem replaceIn_append (symbol : DisplaySymbol) (left right : List Char) :
    symbol.replaceIn (left ++ right) = symbol.replaceIn left ++ symbol.replaceIn right :=
  List.flatMap_append

theorem replaceEach_append (left right : List Char) :
    replaceEach (left ++ right) = replaceEach left ++ replaceEach right := by
  simp only [replaceEach, all, List.foldl_cons, List.foldl_nil, replaceIn_append]

/-- No ASCII text of a symbol holds a symbol, so a symbol is replaced once. -/
theorem replaceEach_singleton (c : Char) : replaceEach [c] = expandChar c := by
  cases found : ofChar? c with
  | some symbol =>
      have matched := List.find?_some found
      have isChar : symbol.char = c := eq_of_beq matched
      rw [expandChar, found, ← isChar]
      cases symbol <;> decide +kernel
  | none =>
      have noSymbol : ∀ symbol ∈ all, c ≠ symbol.char := by
        intro symbol member same
        exact List.find?_eq_none.mp found symbol member (beq_iff_eq.mpr same.symm)
      have unchanged : ∀ symbol ∈ all, symbol.replaceIn [c] = [c] := by
        intro symbol member
        rw [replaceIn, List.flatMap_singleton, if_neg (noSymbol symbol member)]
      rw [expandChar, found]
      simp only [replaceEach, all, List.foldl_cons, List.foldl_nil]
      simp only [all, List.forall_mem_cons] at unchanged
      obtain ⟨circle, times, minus, obelus, root, -⟩ := unchanged
      rw [circle, times, minus, obelus, root]

/-- Replacing one symbol after the other expands them all. -/
theorem replaceEach_eq_expand (text : List Char) : replaceEach text = expand text := by
  induction text with
  | nil => rfl
  | cons c text inductionHypothesis =>
      rw [← List.singleton_append, replaceEach_append, inductionHypothesis, replaceEach_singleton,
        expand_append]
      simp [expand]

end DisplaySymbol

namespace Lexeme

open PocketCalc.Text

/-! ## Divisions -/

/-- Whether a text consists of ASCII blanks. -/
def AllBlank (text : List Char) : Prop := ∀ c ∈ text, isAsciiBlank c = true

/-- Whether a lexeme cannot be extended by the text behind it. Letters are not followed by a letter,
and a number is followed neither by a digit nor, unless it holds one, by a point. -/
def Maximal (lexeme rest : List Char) : Prop :=
  ∀ c ∈ rest.head?,
    (Shape.letters.Spells lexeme → c.isAlpha = false) ∧
      (IsNumeral lexeme → c.isDigit = false ∧ (c = '.' → '.' ∈ lexeme))

/-- Whether a text is made of lexemes that cannot be extended, with nothing but blanks before,
between and behind them. -/
def Divides : List Char → List (List Char) → Prop
  | text, [] => AllBlank text
  | text, lexeme :: further =>
      ∃ gap rest, text = gap ++ (lexeme ++ rest) ∧ AllBlank gap ∧
        (∃ shape : Shape, shape.Spells lexeme) ∧ Maximal lexeme rest ∧ Divides rest further

theorem Shape.eq_of_spells {shape other : Shape} {text : List Char} (spelled : shape.Spells text)
    (otherSpelled : other.Spells text) : shape = other := by
  have isOpen := openAfter_of_spells spelled
  rw [openAfter_of_spells otherSpelled] at isOpen
  exact (Option.some.inj isOpen).symm

theorem Shape.ne_nil_of_spells {shape : Shape} {text : List Char} (spelled : shape.Spells text) :
    text ≠ [] := by
  rintro rfl
  cases openAfter_of_spells spelled

/-- A lexeme cannot be extended exactly if its shape does not go on. -/
theorem maximal_iff {shape : Shape} {lexeme rest : List Char} (spelled : shape.Spells lexeme) :
    Maximal lexeme rest ↔ ∀ c ∈ rest.head?, shape.extend? c = none := by
  refine forall_congr' fun c => imp_congr_right fun _ => ?_
  have isLetters : Shape.letters.Spells lexeme ↔ shape = .letters :=
    ⟨Shape.eq_of_spells spelled, fun same => same ▸ spelled⟩
  have isNumeral : IsNumeral lexeme ↔ shape = .digits ∨ shape = .digitsWithPoint := by
    constructor
    · rintro (digits | pointed)
      · exact .inl (Shape.eq_of_spells spelled digits)
      · exact .inr (Shape.eq_of_spells spelled pointed)
    · rintro (rfl | rfl)
      · exact .inl spelled
      · exact .inr spelled
  rw [isLetters, isNumeral]
  cases shape with
  | digits =>
      have noPoint : '.' ∉ lexeme := fun member => absurd (spelled.2 '.' member) (by decide)
      simp only [Shape.extend?, reduceCtorEq, noPoint]
      split_ifs with isDigit isPoint
      · simp [isDigit]
      · simp [isPoint]
      · simp [isDigit, isPoint]
  | digitsWithPoint =>
      obtain ⟨whole, fraction, rfl, -⟩ := spelled
      simp [Shape.extend?]
  | letters => simp [Shape.extend?]
  | single => simp [Shape.extend?]

/-! ## The division that the scan finds -/

theorem start?_eq_none_iff {c : Char} : Shape.start? c = none ↔ isAsciiBlank c = true :=
  @after_eq_none_iff none c

theorem AllBlank.cons {c : Char} {text : List Char} (isBlank : isAsciiBlank c = true)
    (blank : AllBlank text) : AllBlank (c :: text) := by
  intro d member
  rcases List.mem_cons.mp member with rfl | inText
  · exact isBlank
  · exact blank d inText

theorem Divides.blank_cons {c : Char} {text : List Char} {lexemes : List (List Char)}
    (isBlank : isAsciiBlank c = true) (divides : Divides text lexemes) :
    Divides (c :: text) lexemes := by
  cases lexemes with
  | nil => exact AllBlank.cons isBlank divides
  | cons lexeme further =>
      obtain ⟨gap, rest, rfl, gapBlank, isLexeme, maximal, restDivides⟩ := divides
      exact ⟨c :: gap, rest, rfl, gapBlank.cons isBlank, isLexeme, maximal, restDivides⟩

/-- The scan divides a text, and a text behind an open lexeme into the rest of that lexeme and the
lexemes after it. -/
theorem divides_scan (text : List Char) :
    Divides text (scan none text).2 ∧
      ∀ shape read, Shape.Spells shape read → ∃ rest,
        text = (scan (some shape) text).1 ++ rest ∧
          (∃ final : Shape, final.Spells (read ++ (scan (some shape) text).1)) ∧
          Maximal (read ++ (scan (some shape) text).1) rest ∧
          Divides rest (scan (some shape) text).2 := by
  induction text with
  | nil =>
      refine ⟨fun c member => absurd member List.not_mem_nil, fun shape read spelled => ?_⟩
      refine ⟨[], rfl, ⟨shape, by simpa [scan] using spelled⟩, ?_, ?_⟩
      · intro c member
        cases member
      · exact fun c member => absurd member List.not_mem_nil
  | cons c text inductionHypothesis =>
      obtain ⟨divides, completes⟩ := inductionHypothesis
      have fresh : Divides (c :: text) (scan none (c :: text)).2 := by
        cases started : Shape.start? c with
        | some shape =>
            obtain ⟨rest, textEq, isLexeme, maximal, restDivides⟩ :=
              completes shape [c] (Shape.spells_of_start? started)
            simp only [scan, Option.bind_none, started]
            refine ⟨[], rest, ?_, fun d member => absurd member List.not_mem_nil, isLexeme, maximal,
              restDivides⟩
            rw [List.nil_append, List.cons_append, ← textEq]
        | none =>
            simp only [scan, Option.bind_none, started]
            exact divides.blank_cons (start?_eq_none_iff.mp started)
      refine ⟨fresh, fun shape read spelled => ?_⟩
      cases extended : shape.extend? c with
      | some next =>
          obtain ⟨rest, textEq, isLexeme, maximal, restDivides⟩ :=
            completes next (read ++ [c]) (Shape.spells_of_extend? spelled extended)
          rw [List.append_assoc, List.singleton_append] at isLexeme maximal
          simp only [scan, Option.bind_some, extended]
          exact ⟨rest, congrArg (c :: ·) textEq, isLexeme, maximal, restDivides⟩
      | none =>
          -- The lexeme ends here, and the scan goes on as with no lexeme open.
          have closed : scan (some shape) (c :: text) = ([], (scan none (c :: text)).2) := by
            simp only [scan, Option.bind_some, extended, Option.bind_none]
            cases Shape.start? c <;> rfl
          rw [closed]
          refine ⟨c :: text, rfl, ⟨shape, by simpa using spelled⟩, ?_, fresh⟩
          rw [List.append_nil, maximal_iff spelled]
          rintro d member
          cases member
          exact extended

/-! ## No other division -/

theorem openAfter_of_allBlank {text : List Char} (blank : AllBlank text) :
    openAfter none text = none := by
  induction text with
  | nil => rfl
  | cons c text inductionHypothesis =>
      have closed : Shape.after none c = none := after_eq_none_iff.mpr (blank c List.mem_cons_self)
      rw [openAfter, List.foldl_cons, closed]
      exact inductionHypothesis fun d member => blank d (List.mem_cons_of_mem c member)

theorem splitChars_of_allBlank {text : List Char} (blank : AllBlank text) :
    splitChars text = [] := by
  induction text with
  | nil => rfl
  | cons c text inductionHypothesis =>
      rw [splitChars_cons_of_blank (blank c List.mem_cons_self)]
      exact inductionHypothesis fun d member => blank d (List.mem_cons_of_mem c member)

theorem splitChars_of_divides {text : List Char} {lexemes : List (List Char)}
    (divides : Divides text lexemes) : splitChars text = lexemes := by
  induction lexemes generalizing text with
  | nil => exact splitChars_of_allBlank divides
  | cons lexeme further inductionHypothesis =>
      obtain ⟨gap, rest, rfl, gapBlank, ⟨shape, spelled⟩, maximal, restDivides⟩ := divides
      obtain ⟨c, run, rfl⟩ := List.exists_cons_of_ne_nil (Shape.ne_nil_of_spells spelled)
      have apart := (splitChars_surrounded_iff spelled gap rest).mpr
        ⟨by rw [openAfter_of_allBlank gapBlank]; rfl, (maximal_iff spelled).mp maximal⟩
      rw [apart, splitChars_of_allBlank gapBlank, inductionHypothesis restDivides]
      rfl

/-- The lexemes of a text are its only division. -/
theorem divides_iff {text : List Char} {lexemes : List (List Char)} :
    Divides text lexemes ↔ splitChars text = lexemes := by
  refine ⟨splitChars_of_divides, ?_⟩
  rintro rfl
  exact (divides_scan text).1

/-- A character that is neither blank, digit, letter nor point is a lexeme wherever it stands. -/
theorem lone_of_other {c : Char} (notBlank : isAsciiBlank c = false) (notDigit : c.isDigit = false)
    (notAlpha : c.isAlpha = false) (notPoint : c ≠ '.') : Lone c :=
  ⟨boundary_iff.mpr ⟨notDigit, notAlpha, notPoint⟩,
    by simp [Shape.start?, notBlank, notDigit, notAlpha]⟩

/-- The lexemes of an expression are the one way to divide it, its symbols replaced, into blanks and
lexemes that cannot be extended. So nothing but blanks is lost, and every character that is neither
a blank, a digit, a letter nor a point of ASCII is a lexeme of its own, between the lexemes of the
text before it and those of the text behind it. -/
theorem split_is_the_only_division (expression : String) :
    let text := DisplaySymbol.replaceEach expression.toList
    (∀ lexemes : List String,
        Divides text (lexemes.map String.toList) ↔ split expression = lexemes) ∧
      ∀ before c after left right, text = before ++ c :: after →
        isAsciiBlank c = false → c.isDigit = false → c.isAlpha = false → c ≠ '.' →
        Divides before left → Divides after right →
        (split expression).map String.toList = left ++ [c] :: right := by
  intro text
  have textEq : text = DisplaySymbol.expand expression.toList :=
    DisplaySymbol.replaceEach_eq_expand expression.toList
  have asChars : (split expression).map String.toList = splitChars text := by
    rw [textEq, split, List.map_map]
    exact (List.map_congr_left fun _ _ => String.toList_ofList).trans (List.map_id _)
  constructor
  · intro lexemes
    have injective : Function.Injective (List.map String.toList) :=
      List.map_injective_iff.mpr fun _ _ same => String.toList_inj.mp same
    rw [divides_iff, ← asChars, injective.eq_iff]
  · intro before c after left right divided notBlank notDigit notAlpha notPoint leftDivides
      rightDivides
    have lone := lone_of_other notBlank notDigit notAlpha notPoint
    rw [asChars, divided, splitChars_append_of_boundary lone.1, splitChars_cons_of_single lone.2,
      divides_iff.mp leftDivides, divides_iff.mp rightDivides]

/-- A second point ends a number, letters of ASCII end before a letter of another script, and the
blank between them is no part of a lexeme. -/
theorem long_s_and_second_point_are_lexemes :
    let expression := "1.2.3 ABſ×√"
    let text := DisplaySymbol.replaceEach expression.toList
    let before := ['1', '.', '2', '.', '3', ' ', 'A', 'B']
    let after := ['*', 's', 'q', 'r', 't']
    text = before ++ 'ſ' :: after ∧
      Divides before [['1', '.', '2'], ['.'], ['3'], ['A', 'B']] ∧
      Divides after [['*'], ['s', 'q', 'r', 't']] ∧
      Divides text (["1.2", ".", "3", "AB", "ſ", "*", "sqrt"].map String.toList) ∧
      (split expression).map String.toList =
        [['1', '.', '2'], ['.'], ['3'], ['A', 'B']] ++ ['ſ'] :: [['*'], ['s', 'q', 'r', 't']] := by
  intro expression text before after
  have divided : text = before ++ 'ſ' :: after := by decide +kernel
  have leftDivides : Divides before [['1', '.', '2'], ['.'], ['3'], ['A', 'B']] :=
    divides_iff.mpr (by decide)
  have rightDivides : Divides after [['*'], ['s', 'q', 'r', 't']] := divides_iff.mpr (by decide)
  obtain ⟨onlyDivision, around⟩ := split_is_the_only_division expression
  exact ⟨divided, leftDivides, rightDivides, (onlyDivision _).mpr (by decide +kernel),
    around before 'ſ' after _ _ divided (by decide) (by decide) (by decide) (by decide)
      leftDivides rightDivides⟩

end Lexeme

end PocketCalc
