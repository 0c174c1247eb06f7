import Mathlib.Tactic.SplitIfs
import PocketCalc.Lexeme

/-!
Contract: what the scan makes of a text.

Owns:
- `Shape.Spells`, the lexemes of each shape as plain texts;
- the scan yields lexemes of these shapes only, and a text of one shape is one lexeme;
- the shape of the lexeme that is open at the end of a text;
- the scan of a text that is divided where no lexeme goes on, as before a boundary.

Does not own: what a lexeme means; see `Token/Known`.
-/

namespace PocketCalc.Lexeme

open PocketCalc.Text

/-! ## Shapes as plain texts -/

/-- Whether a text consists of ASCII digits. -/
def AllDigits (text : List Char) : Prop := ∀ c ∈ text, c.isDigit = true

instance : DecidablePred AllDigits := fun text =>
  decidable_of_iff (text.all Char.isDigit = true) List.all_eq_true

/-- The complete lexemes of a shape. -/
def Shape.Spells : Shape → List Char → Prop
  | digits, text => text ≠ [] ∧ AllDigits text
  | digitsWithPoint, text =>
      ∃ whole fraction, text = whole ++ '.' :: fraction ∧ whole ≠ [] ∧ AllDigits whole ∧
        AllDigits fraction
  | letters, text => text ≠ [] ∧ ∀ c ∈ text, c.isAlpha = true
  | single, text =>
      ∃ c, text = [c] ∧ isAsciiBlank c = false ∧ c.isDigit = false ∧ c.isAlpha = false

/-- Whether a text is a number without a sign or an exponent. -/
def IsNumeral (text : List Char) : Prop :=
  Shape.digits.Spells text ∨ Shape.digitsWithPoint.Spells text

theorem AllDigits.tail {c : Char} {text : List Char} (digits : AllDigits (c :: text)) :
    AllDigits text :=
  fun d member => digits d (List.mem_cons_of_mem c member)

theorem AllDigits.head {c : Char} {text : List Char} (digits : AllDigits (c :: text)) :
    c.isDigit = true :=
  digits c List.mem_cons_self

namespace Shape

theorem spells_of_start? {c : Char} {shape : Shape} (started : start? c = some shape) :
    shape.Spells [c] := by
  unfold start? at started
  split at started
  · cases started
  · rename_i notBlank
    split at started
    · rename_i isDigit
      cases started
      simp [Spells, AllDigits, isDigit]
    · rename_i notDigit
      split at started
      · rename_i isAlpha
        cases started
        simp [Spells, isAlpha]
      · rename_i notAlpha
        cases started
        exact ⟨c, rfl, eq_false_of_ne_true notBlank, eq_false_of_ne_true notDigit,
          eq_false_of_ne_true notAlpha⟩

private theorem forall_mem_snoc {class_ : Char → Bool} {text : List Char} {c : Char}
    (before : ∀ d ∈ text, class_ d = true) (last : class_ c = true) :
    ∀ d ∈ text ++ [c], class_ d = true := by
  intro d member
  rcases List.mem_append.mp member with inText | isLast
  · exact before d inText
  · rw [List.mem_singleton.mp isLast]
    exact last

theorem spells_of_extend? {shape next : Shape} {text : List Char} {c : Char}
    (spelled : shape.Spells text) (extended : shape.extend? c = some next) :
    next.Spells (text ++ [c]) := by
  cases shape with
  | digits =>
      by_cases isDigit : c.isDigit = true
      · rw [extend?, if_pos isDigit] at extended
        cases extended
        exact ⟨by simp, forall_mem_snoc spelled.2 isDigit⟩
      · rw [extend?, if_neg isDigit] at extended
        by_cases isPoint : c = '.'
        · rw [if_pos isPoint] at extended
          cases extended
          exact ⟨text, [], by rw [isPoint], spelled.1, spelled.2, by simp [AllDigits]⟩
        · rw [if_neg isPoint] at extended
          cases extended
  | digitsWithPoint =>
      by_cases isDigit : c.isDigit = true
      · rw [extend?, if_pos isDigit] at extended
        cases extended
        obtain ⟨whole, fraction, rfl, present, wholeDigits, fractionDigits⟩ := spelled
        exact ⟨whole, fraction ++ [c], by simp, present, wholeDigits,
          forall_mem_snoc fractionDigits isDigit⟩
      · rw [extend?, if_neg isDigit] at extended
        cases extended
  | letters =>
      by_cases isAlpha : c.isAlpha = true
      · rw [extend?, if_pos isAlpha] at extended
        cases extended
        exact ⟨by simp, forall_mem_snoc spelled.2 isAlpha⟩
      · rw [extend?, if_neg isAlpha] at extended
        cases extended
  | single => cases extended

end Shape

/-! ## The lexemes of a text -/

/-- The rest of an open lexeme completes it, and the lexemes after it are complete. -/
theorem spells_of_scan (text : List Char) :
    (∀ shape read, Shape.Spells shape read →
      ∃ final : Shape, final.Spells (read ++ (scan (some shape) text).1)) ∧
    ∀ opened, ∀ lexeme ∈ (scan opened text).2, ∃ shape : Shape, shape.Spells lexeme := by
  induction text with
  | nil =>
      refine ⟨fun shape read spelled => ⟨shape, ?_⟩, fun opened lexeme member => ?_⟩
      · simpa [scan] using spelled
      · simp [scan] at member
  | cons c rest inductionHypothesis =>
      obtain ⟨completes, complete⟩ := inductionHypothesis
      constructor
      · intro shape read spelled
        cases extended : shape.extend? c with
        | some next =>
            obtain ⟨final, finalSpelled⟩ :=
              completes next (read ++ [c]) (Shape.spells_of_extend? spelled extended)
            refine ⟨final, ?_⟩
            simpa [scan, extended] using finalSpelled
        | none =>
            refine ⟨shape, ?_⟩
            cases started : Shape.start? c <;> simpa [scan, extended, started] using spelled
      · intro opened lexeme member
        cases extended : opened.bind (·.extend? c) with
        | some next =>
            simp only [scan, extended] at member
            exact complete (some next) lexeme member
        | none =>
            cases started : Shape.start? c with
            | some shape =>
                simp only [scan, extended, started, List.mem_cons] at member
                rcases member with rfl | inFurther
                · exact completes shape [c] (Shape.spells_of_start? started)
                · exact complete (some shape) lexeme inFurther
            | none =>
                simp only [scan, extended, started] at member
                exact complete none lexeme member

/-- Every lexeme of a text has one of the shapes. -/
theorem exists_spells_of_mem_splitChars {text lexeme : List Char}
    (member : lexeme ∈ splitChars text) : ∃ shape : Shape, shape.Spells lexeme :=
  (spells_of_scan text).2 none lexeme member

/-! ## Texts of one lexeme -/

theorem scan_append_of_extends {shape : Shape} {run : List Char}
    (extends_ : ∀ c ∈ run, shape.extend? c = some shape) (rest : List Char) :
    scan (some shape) (run ++ rest) =
      (run ++ (scan (some shape) rest).1, (scan (some shape) rest).2) := by
  induction run with
  | nil => rfl
  | cons c run inductionHypothesis =>
      have further := inductionHypothesis fun d member => extends_ d (List.mem_cons_of_mem c member)
      have extended := extends_ c List.mem_cons_self
      rw [List.cons_append, scan]
      simp only [Option.bind_some, extended, further, List.cons_append]

theorem extend?_digits {run : List Char} (digits : AllDigits run) :
    ∀ c ∈ run, Shape.extend? .digits c = some .digits := by
  intro c member
  rw [Shape.extend?, if_pos (digits c member)]

theorem extend?_digitsWithPoint {run : List Char} (digits : AllDigits run) :
    ∀ c ∈ run, Shape.extend? .digitsWithPoint c = some .digitsWithPoint := by
  intro c member
  rw [Shape.extend?, if_pos (digits c member)]

theorem extend?_letters {run : List Char} (alphas : ∀ c ∈ run, c.isAlpha = true) :
    ∀ c ∈ run, Shape.extend? .letters c = some .letters := by
  intro c member
  rw [Shape.extend?, if_pos (alphas c member)]

private theorem splitChars_of_extends {shape : Shape} {c : Char} {run : List Char}
    (rest : List Char)
    (started : Shape.start? c = some shape) (extends_ : ∀ d ∈ run, shape.extend? d = some shape) :
    splitChars (c :: run ++ rest) =
      (c :: run ++ (scan (some shape) rest).1) :: (scan (some shape) rest).2 := by
  rw [splitChars, List.cons_append, scan]
  simp only [Option.bind_none, started, scan_append_of_extends extends_, List.cons_append]

theorem start?_of_isDigit {c : Char} (isDigit : c.isDigit = true) :
    Shape.start? c = some .digits := by
  have notBlank : ¬isAsciiBlank c = true := by
    intro isBlank
    rcases isAsciiBlank_iff.mp isBlank with rfl | rfl | rfl | rfl | rfl | rfl <;>
      exact absurd isDigit (by decide)
  rw [Shape.start?, if_neg notBlank, if_pos isDigit]

theorem start?_of_isAlpha {c : Char} (isAlpha : c.isAlpha = true) :
    Shape.start? c = some .letters := by
  have notBlank : ¬isAsciiBlank c = true := by
    intro isBlank
    rcases isAsciiBlank_iff.mp isBlank with rfl | rfl | rfl | rfl | rfl | rfl <;>
      exact absurd isAlpha (by decide)
  have notDigit : ¬c.isDigit = true := by
    intro isDigit
    have bounds := Char.isDigit_iff_toNat.mp isDigit
    have letter : (decide (c.val ≥ 65 ∧ c.val ≤ 90) || c.val ≥ 97 && c.val ≤ 122) = true := isAlpha
    simp [UInt32.le_iff_toNat_le] at bounds letter
    omega
  rw [Shape.start?, if_neg notBlank, if_neg notDigit, if_pos isAlpha]

/-- A text of one shape is its own only lexeme. -/
theorem splitChars_of_spells {shape : Shape} {text : List Char} (spelled : shape.Spells text) :
    splitChars text = [text] := by
  cases shape with
  | digits =>
      obtain ⟨present, digits⟩ := spelled
      obtain ⟨c, run, rfl⟩ := List.exists_cons_of_ne_nil present
      have alone := splitChars_of_extends [] (start?_of_isDigit digits.head)
        (extend?_digits digits.tail)
      rw [List.append_nil] at alone
      rw [alone]
      simp [scan]
  | digitsWithPoint =>
      obtain ⟨whole, fraction, rfl, present, wholeDigits, fractionDigits⟩ := spelled
      obtain ⟨c, run, rfl⟩ := List.exists_cons_of_ne_nil present
      have point : Shape.extend? .digits '.' = some .digitsWithPoint := by decide
      have further := scan_append_of_extends (extend?_digitsWithPoint fractionDigits) []
      rw [List.append_nil] at further
      rw [splitChars_of_extends _ (start?_of_isDigit wholeDigits.head)
        (extend?_digits wholeDigits.tail), scan]
      simp only [Option.bind_some, point, further]
      simp [scan]
  | letters =>
      obtain ⟨present, alphas⟩ := spelled
      obtain ⟨c, run, rfl⟩ := List.exists_cons_of_ne_nil present
      have alone := splitChars_of_extends []
        (start?_of_isAlpha (alphas c List.mem_cons_self))
        (extend?_letters fun d member => alphas d (List.mem_cons_of_mem c member))
      rw [List.append_nil] at alone
      rw [alone]
      simp [scan]
  | single =>
      obtain ⟨c, rfl, notBlank, notDigit, notAlpha⟩ := spelled
      have started : Shape.start? c = some .single := by
        simp [Shape.start?, notBlank, notDigit, notAlpha]
      rw [splitChars, scan]
      simp [started, scan]

/-! ## Boundaries -/

/-- The shape of the lexeme that is open behind one more character. -/
def Shape.after (opened : Option Shape) (c : Char) : Option Shape :=
  match opened.bind (·.extend? c) with
  | some shape => some shape
  | none => start? c

/-- The shape of the lexeme that is open at the right end of a text. -/
def openAfter (opened : Option Shape) (text : List Char) : Option Shape :=
  text.foldl Shape.after opened

/-- Whether no lexeme goes on with a character. -/
def Boundary (c : Char) : Prop := ∀ shape : Shape, shape.extend? c = none

theorem boundary_iff {c : Char} :
    Boundary c ↔ c.isDigit = false ∧ c.isAlpha = false ∧ c ≠ '.' := by
  constructor
  · intro boundary
    have digits := boundary .digits
    have letters := boundary .letters
    simp only [Shape.extend?] at digits letters
    split_ifs at digits letters with isDigit isPoint isAlpha
    exact ⟨eq_false_of_ne_true isDigit, eq_false_of_ne_true isAlpha, isPoint⟩
  · rintro ⟨notDigit, notAlpha, notPoint⟩ shape
    cases shape <;> simp [Shape.extend?, notDigit, notAlpha, notPoint]

theorem scan_append_of_closed {c : Char} {before : List Char} {opened : Option Shape}
    (closed : (openAfter opened before).bind (·.extend? c) = none) (after : List Char) :
    scan opened (before ++ c :: after) =
      ((scan opened before).1, (scan opened before).2 ++ splitChars (c :: after)) := by
  induction before generalizing opened with
  | nil =>
      have closes : opened.bind (·.extend? c) = none := closed
      simp only [List.nil_append, splitChars, scan, closes, Option.bind_none]
      cases Shape.start? c <;> rfl
  | cons d before inductionHypothesis =>
      have rest := inductionHypothesis closed
      rw [List.cons_append, scan, scan]
      unfold Shape.after at rest
      cases extended : opened.bind (·.extend? d) with
      | some next =>
          rw [extended] at rest
          simp only [rest]
      | none =>
          rw [extended] at rest
          cases started : Shape.start? d with
          | some shape =>
              rw [started] at rest
              simp only [rest, List.cons_append]
          | none =>
              rw [started] at rest
              simp only [rest]

/-- Texts at whose joint no lexeme goes on have their lexemes one behind the other. -/
theorem splitChars_append_of_closed {c : Char} {before : List Char}
    (closed : (openAfter none before).bind (·.extend? c) = none) (after : List Char) :
    splitChars (before ++ c :: after) = splitChars before ++ splitChars (c :: after) := by
  rw [splitChars, scan_append_of_closed closed]
  rfl

/-- A boundary divides the lexemes of a text. -/
theorem splitChars_append_of_boundary {c : Char} (boundary : Boundary c)
    (before after : List Char) :
    splitChars (before ++ c :: after) = splitChars before ++ splitChars (c :: after) := by
  refine splitChars_append_of_closed ?_ after
  cases openAfter none before with
  | none => rfl
  | some shape => exact boundary shape

theorem splitChars_nil : splitChars [] = [] := rfl

theorem splitChars_cons_of_starts {c : Char} {shape : Shape} (started : Shape.start? c = some shape)
    (after : List Char) :
    splitChars (c :: after) = (c :: (scan (some shape) after).1) :: (scan (some shape) after).2 := by
  rw [splitChars, scan]
  simp only [Option.bind_none, started]

/-- A character that starts a lexeme of its own ends it too, wherever it stands. -/
theorem splitChars_cons_of_single {c : Char} (started : Shape.start? c = some .single)
    (after : List Char) : splitChars (c :: after) = [c] :: splitChars after := by
  have alone : scan (some .single) after = ([], splitChars after) := by
    cases after with
    | nil => rfl
    | cons d after =>
        simp only [splitChars, scan, Option.bind_some, Shape.extend?, Option.bind_none]
        cases Shape.start? d <;> rfl
  rw [splitChars_cons_of_starts started, alone]

/-- A blank in front of a text adds no lexeme. -/
theorem splitChars_cons_of_blank {c : Char} (isBlank : isAsciiBlank c = true)
    (after : List Char) : splitChars (c :: after) = splitChars after := by
  have noStart : Shape.start? c = none := if_pos isBlank
  rw [splitChars, scan]
  simp only [Option.bind_none, noStart]
  rfl

/-- Whether a character is a lexeme wherever it stands. -/
def Lone (c : Char) : Prop := Boundary c ∧ Shape.start? c = some .single

/-! ## Expressions -/

theorem expandChar_of_ascii {c : Char} (ascii : c.toNat < 0x80) :
    DisplaySymbol.expandChar c = [c] := by
  have noSymbol : DisplaySymbol.ofChar? c = none := by
    rw [DisplaySymbol.ofChar?, List.find?_eq_none]
    intro symbol _ same
    rw [← eq_of_beq same] at ascii
    cases symbol <;> exact absurd ascii (by decide)
  rw [DisplaySymbol.expandChar, noSymbol]

theorem expand_of_ascii {text : List Char} (ascii : ∀ c ∈ text, c.toNat < 0x80) :
    DisplaySymbol.expand text = text := by
  induction text with
  | nil => rfl
  | cons c rest inductionHypothesis =>
      have restAscii := fun d member => ascii d (List.mem_cons_of_mem c member)
      rw [DisplaySymbol.expand, List.flatMap_cons, expandChar_of_ascii (ascii c List.mem_cons_self)]
      exact congrArg (c :: ·) (inductionHypothesis restAscii)

/-- An expression that spells one shape is its only lexeme. -/
theorem split_of_spells {shape : Shape} {text : List Char}
    (expanded : DisplaySymbol.expand text = text) (spelled : shape.Spells text) :
    split (String.ofList text) = [String.ofList text] := by
  rw [split, String.toList_ofList, expanded, splitChars_of_spells spelled]
  rfl

/-- A text that counts as one lone character divides the lexemes of the texts around it. -/
theorem split_append_of_expands {symbol : String} {c : Char}
    (expanded : DisplaySymbol.expand symbol.toList = [c]) (lone : Lone c) (before after : String) :
    split (before ++ symbol ++ after) = split before ++ String.singleton c :: split after := by
  have expandedAll : DisplaySymbol.expand (before ++ symbol ++ after).toList =
      DisplaySymbol.expand before.toList ++ c :: DisplaySymbol.expand after.toList := by
    simp [expanded]
  rw [split, expandedAll, splitChars_append_of_boundary lone.1, splitChars_cons_of_single lone.2,
    List.map_append, List.map_cons, ← String.singleton_eq_ofList]
  rfl

/-- A lone character of an expression that is no symbol divides the expression's lexemes. -/
theorem split_append_of_lone {c : Char} (lone : Lone c) (plain : DisplaySymbol.expandChar c = [c])
    (before after : String) :
    split (before ++ String.singleton c ++ after) =
      split before ++ String.singleton c :: split after :=
  split_append_of_expands (by simp [DisplaySymbol.expand, plain]) lone before after

/-- A space between two expressions divides their lexemes and is none. -/
theorem split_append_space (before after : String) :
    split (before ++ " " ++ after) = split before ++ split after := by
  have boundary : Boundary ' ' := boundary_iff.mpr (by decide)
  have plain : DisplaySymbol.expandChar ' ' = [' '] := by decide
  have expanded : DisplaySymbol.expand (before ++ " " ++ after).toList =
      DisplaySymbol.expand before.toList ++ ' ' :: DisplaySymbol.expand after.toList := by
    simp [DisplaySymbol.expand, plain]
  rw [split, expanded, splitChars_append_of_boundary boundary, splitChars_cons_of_blank (by decide),
    List.map_append]
  rfl

/-- A character in front of an expression that starts a lexeme of its own is its first lexeme. -/
theorem split_singleton_append {c : Char} (started : Shape.start? c = some .single)
    (plain : DisplaySymbol.expandChar c = [c]) (expression : String) :
    split (String.singleton c ++ expression) = String.singleton c :: split expression := by
  have expanded : DisplaySymbol.expand (String.singleton c ++ expression).toList =
      c :: DisplaySymbol.expand expression.toList := by
    simp [DisplaySymbol.expand, plain]
  rw [split, expanded, splitChars_cons_of_single started, List.map_cons,
    ← String.singleton_eq_ofList]
  rfl

end PocketCalc.Lexeme
