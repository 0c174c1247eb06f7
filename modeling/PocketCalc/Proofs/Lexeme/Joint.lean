import Mathlib.Data.List.Induction
import PocketCalc.Proofs.Lexeme.Scan

/-!
Contract: the lexemes at the joint of two texts.

Owns:
- `EndsIn`, the last lexeme of a text if nothing stands behind it, which is the lexeme that is open;
- the lexemes of a text with a lexeme that is open at its end and goes on;
- a text of one shape between two texts, which stays a lexeme exactly if neither joint goes on.

Does not own: the texts that symbols stand for; see `Evaluation/Fusion`.

A lexeme that goes on across a joint changes the last lexeme of the text before it, whatever follows.
So the lexemes of the two texts never come out side by side then, not even in another number.
-/

namespace PocketCalc.Lexeme

open PocketCalc.Text

/-! ## The open lexeme -/

theorem openAfter_append (opened : Option Shape) (before after : List Char) :
    openAfter opened (before ++ after) = openAfter (openAfter opened before) after :=
  List.foldl_append

theorem openAfter_snoc (opened : Option Shape) (before : List Char) (c : Char) :
    openAfter opened (before ++ [c]) = Shape.after (openAfter opened before) c :=
  openAfter_append opened before [c]

theorem openAfter_of_extends {shape : Shape} {run : List Char}
    (extends_ : ∀ c ∈ run, shape.extend? c = some shape) :
    openAfter (some shape) run = some shape := by
  induction run with
  | nil => rfl
  | cons c run inductionHypothesis =>
      have stays : Shape.after (some shape) c = some shape := by
        rw [Shape.after, Option.bind_some, extends_ c List.mem_cons_self]
      rw [openAfter, List.foldl_cons, stays]
      exact inductionHypothesis fun d member => extends_ d (List.mem_cons_of_mem c member)

theorem openAfter_of_starts {c : Char} {shape : Shape} (started : Shape.start? c = some shape) :
    openAfter none [c] = some shape :=
  started

/-- A text of one shape is open at its end, with this shape. -/
theorem openAfter_of_spells {shape : Shape} {text : List Char} (spelled : shape.Spells text) :
    openAfter none text = some shape := by
  cases shape with
  | digits =>
      obtain ⟨present, digits⟩ := spelled
      obtain ⟨c, run, rfl⟩ := List.exists_cons_of_ne_nil present
      rw [← List.singleton_append, openAfter_append,
        openAfter_of_starts (start?_of_isDigit digits.head)]
      exact openAfter_of_extends (extend?_digits digits.tail)
  | digitsWithPoint =>
      obtain ⟨whole, fraction, rfl, present, wholeDigits, fractionDigits⟩ := spelled
      obtain ⟨c, run, rfl⟩ := List.exists_cons_of_ne_nil present
      have point : openAfter (some .digits) ['.'] = some .digitsWithPoint := by decide
      rw [← List.singleton_append, List.append_assoc, openAfter_append,
        openAfter_of_starts (start?_of_isDigit wholeDigits.head), openAfter_append,
        openAfter_of_extends (extend?_digits wholeDigits.tail), ← List.singleton_append,
        openAfter_append, point]
      exact openAfter_of_extends (extend?_digitsWithPoint fractionDigits)
  | letters =>
      obtain ⟨present, alphas⟩ := spelled
      obtain ⟨c, run, rfl⟩ := List.exists_cons_of_ne_nil present
      rw [← List.singleton_append, openAfter_append,
        openAfter_of_starts (start?_of_isAlpha (alphas c List.mem_cons_self))]
      exact openAfter_of_extends
        (extend?_letters fun d member => alphas d (List.mem_cons_of_mem c member))
  | single =>
      obtain ⟨c, rfl, notBlank, notDigit, notAlpha⟩ := spelled
      exact openAfter_of_starts (by simp [Shape.start?, notBlank, notDigit, notAlpha])

/-- A lexeme that is open at the end of a text goes on with what follows, and the text before it
keeps its lexemes. -/
theorem exists_front_of_openAfter {text : List Char} {shape : Shape}
    (isOpen : openAfter none text = some shape) :
    ∃ front lexeme, text = front ++ lexeme ∧ shape.Spells lexeme ∧ ∀ after,
      splitChars (text ++ after) =
        splitChars front ++
          (lexeme ++ (scan (some shape) after).1) :: (scan (some shape) after).2 := by
  induction text using List.reverseRecOn generalizing shape with
  | nil => cases isOpen
  | append_singleton before c inductionHypothesis =>
      rw [openAfter_snoc, Shape.after] at isOpen
      cases extended : (openAfter none before).bind (·.extend? c) with
      | some next =>
          rw [extended] at isOpen
          cases isOpen
          obtain ⟨earlier, earlierOpen, extendsEarlier⟩ := Option.bind_eq_some_iff.mp extended
          obtain ⟨front, lexeme, split, spelled, goesOn⟩ := inductionHypothesis earlierOpen
          refine ⟨front, lexeme ++ [c], by rw [split, List.append_assoc],
            Shape.spells_of_extend? spelled extendsEarlier, fun after => ?_⟩
          rw [List.append_assoc, List.singleton_append, goesOn, scan, Option.bind_some,
            extendsEarlier]
          simp
      | none =>
          rw [extended] at isOpen
          have started : Shape.start? c = some shape := isOpen
          refine ⟨before, [c], rfl, Shape.spells_of_start? started, fun after => ?_⟩
          rw [List.append_assoc, List.singleton_append, splitChars_append_of_closed extended,
            splitChars_cons_of_starts started, List.singleton_append]

/-- Behind a blank no lexeme is open, and behind every other character one is. -/
theorem after_eq_none_iff {opened : Option Shape} {c : Char} :
    Shape.after opened c = none ↔ isAsciiBlank c = true := by
  unfold Shape.after
  constructor
  · intro closed
    cases extended : opened.bind (·.extend? c) with
    | some shape =>
        rw [extended] at closed
        cases closed
    | none =>
        rw [extended] at closed
        have startsNone : Shape.start? c = none := closed
        unfold Shape.start? at startsNone
        split_ifs at startsNone with isBlank
        exact isBlank
  · intro isBlank
    have boundary : Boundary c := by
      rw [boundary_iff]
      rcases isAsciiBlank_iff.mp isBlank with rfl | rfl | rfl | rfl | rfl | rfl <;> decide
    have extended : opened.bind (·.extend? c) = none := by
      cases opened with
      | none => rfl
      | some shape => exact boundary shape
    rw [extended]
    exact if_pos isBlank

/-- Whether the last lexeme of a text satisfies a condition and reaches to the end of the text. -/
def EndsIn (Allowed : List Char → Prop) (text : List Char) : Prop :=
  ∃ lexeme, (splitChars text).getLast? = some lexeme ∧ Allowed lexeme ∧ lexeme <:+ text

theorem endsIn_of_openAfter {text : List Char} {shape : Shape}
    (isOpen : openAfter none text = some shape) : EndsIn shape.Spells text := by
  obtain ⟨front, lexeme, split, spelled, goesOn⟩ := exists_front_of_openAfter isOpen
  have lexemes := goesOn []
  rw [List.append_nil] at lexemes
  refine ⟨lexeme, ?_, spelled, front, split.symm⟩
  rw [lexemes]
  simp [scan]

/-- The lexeme that is open at the end of a text is the one that the text ends in. -/
theorem openAfter_eq_some_iff {text : List Char} {shape : Shape} :
    openAfter none text = some shape ↔ EndsIn shape.Spells text := by
  refine ⟨endsIn_of_openAfter, ?_⟩
  rintro ⟨lexeme, last, spelled, front, rfl⟩
  have lexemeOpen := openAfter_of_spells spelled
  cases isOpen : openAfter none (front ++ lexeme) with
  | none =>
      -- The text would end in a blank, and so would the lexeme.
      rcases List.eq_nil_or_concat lexeme with rfl | ⟨init, c, rfl⟩
      · cases lexemeOpen
      · rw [List.concat_eq_append, ← List.append_assoc, openAfter_snoc] at isOpen
        rw [List.concat_eq_append, openAfter_snoc,
          after_eq_none_iff.mpr (after_eq_none_iff.mp isOpen)] at lexemeOpen
        cases lexemeOpen
  | some other =>
      obtain ⟨sameLexeme, sameLast, otherSpelled, -⟩ := endsIn_of_openAfter isOpen
      rw [last] at sameLast
      cases sameLast
      rw [← openAfter_of_spells otherSpelled, lexemeOpen]

/-- A number is open at the end of a text if its digits are, with or without a point. -/
theorem endsIn_isNumeral_iff {text : List Char} :
    EndsIn IsNumeral text ↔
      openAfter none text = some .digits ∨ openAfter none text = some .digitsWithPoint := by
  rw [openAfter_eq_some_iff, openAfter_eq_some_iff]
  constructor
  · rintro ⟨lexeme, last, digits | pointed, atEnd⟩
    · exact .inl ⟨lexeme, last, digits, atEnd⟩
    · exact .inr ⟨lexeme, last, pointed, atEnd⟩
  · rintro (⟨lexeme, last, digits, atEnd⟩ | ⟨lexeme, last, pointed, atEnd⟩)
    · exact ⟨lexeme, last, .inl digits, atEnd⟩
    · exact ⟨lexeme, last, .inr pointed, atEnd⟩

/-! ## Joints -/

/-- A lexeme that goes on across a joint is no lexeme of the text before it any more. -/
theorem splitChars_ne_of_goesOn {before : List Char} {c : Char} {shape next : Shape}
    (isOpen : openAfter none before = some shape) (goesOn : shape.extend? c = some next)
    (after : List Char) (further : List (List Char)) :
    splitChars (before ++ c :: after) ≠ splitChars before ++ further := by
  obtain ⟨front, lexeme, -, -, lexemes⟩ := exists_front_of_openAfter isOpen
  have alone := lexemes []
  rw [List.append_nil] at alone
  rw [lexemes, alone, List.append_assoc]
  simp only [scan, Option.bind_some, goesOn, List.append_nil, List.cons_append, List.nil_append]
  intro same
  have sameLexeme := (List.cons.inj (List.append_cancel_left same)).1
  have sameLength := congrArg List.length sameLexeme
  simp at sameLength

/-- A text of one shape is a lexeme of its own between two texts exactly if no lexeme goes on with
its first character and it does not go on with the first character behind it. -/
theorem splitChars_surrounded_iff {shape : Shape} {c : Char} {rest : List Char}
    (spelled : shape.Spells (c :: rest)) (before after : List Char) :
    splitChars (before ++ (c :: rest ++ after)) =
        splitChars before ++ (c :: rest) :: splitChars after ↔
      (openAfter none before).bind (·.extend? c) = none ∧
        ∀ d ∈ after.head?, shape.extend? d = none := by
  cases extended : (openAfter none before).bind (·.extend? c) with
  | some next =>
      obtain ⟨earlier, isOpen, goesOn⟩ := Option.bind_eq_some_iff.mp extended
      have changed := splitChars_ne_of_goesOn isOpen goesOn (rest ++ after)
        ((c :: rest) :: splitChars after)
      exact iff_of_false changed (by simp)
  | none =>
      have alone := splitChars_of_spells spelled
      have isOpen := openAfter_of_spells spelled
      rw [List.cons_append, splitChars_append_of_closed extended, List.append_cancel_left_eq,
        ← List.cons_append]
      cases after with
      | nil => simp [alone, splitChars_nil]
      | cons d after =>
          cases goesOn : shape.extend? d with
          | some next =>
              have changed := splitChars_ne_of_goesOn isOpen goesOn after (splitChars (d :: after))
              rw [alone, List.singleton_append] at changed
              exact iff_of_false changed (by simp [goesOn])
          | none =>
              have closed : (openAfter none (c :: rest)).bind (·.extend? d) = none := by
                rw [isOpen]
                exact goesOn
              rw [splitChars_append_of_closed closed, alone]
              simp [goesOn]

end PocketCalc.Lexeme
