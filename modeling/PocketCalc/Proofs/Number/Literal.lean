import PocketCalc.Number.Numeral
import PocketCalc.Number.Positional
import PocketCalc.Proofs.Lexeme.Scan

/-!
Contract: reading numerals that are made of digits.

Owns:
- the decimal that digits with an optional point denote;
- what the grammar of numerals reads from such digits, behind a sign or not, and with an exponent
  or not;
- the numeral of a lexeme, which has neither, is read as the double nearest to its decimal.

Does not own: blanks, underscores and words, which the grammar of numerals admits too.
-/

namespace PocketCalc.Number

open PocketCalc.Lexeme PocketCalc.Text

/-- The decimal of the digits before and behind a point. -/
def Decimal.ofDigits (whole fraction : List Char) : Decimal :=
  ⟨Nat.ofDigitChars 10 (whole ++ fraction) 0, -fraction.length⟩

namespace Numeral

/-- Whether a character is an ASCII digit or a point. -/
def IsPlain (c : Char) : Prop := c.isDigit = true ∨ c = '.'

theorem IsPlain.toNat_le {c : Char} (plain : IsPlain c) : c.toNat ≤ 57 := by
  rcases plain with isDigit | rfl
  · exact (Char.isDigit_iff_toNat.mp isDigit).2
  · decide

theorem isPlain_of_isNumeral {text : List Char} (numeral : IsNumeral text) :
    ∀ c ∈ text, IsPlain c := by
  intro c member
  rcases numeral with ⟨-, digits⟩ | ⟨whole, fraction, rfl, -, wholeDigits, fractionDigits⟩
  · exact Or.inl (digits c member)
  · rcases List.mem_append.mp member with inWhole | behind
    · exact Or.inl (wholeDigits c inWhole)
    · rcases List.mem_cons.mp behind with isPoint | inFraction
      · exact Or.inr isPoint
      · exact Or.inl (fractionDigits c inFraction)

/-- Whether a character of a numeral's text is taken as it stands: it has no other plain form, and
is neither an underscore nor a blank. -/
def IsSimple (c : Char) : Prop := c.toNat < 0x7f ∧ c ≠ '_' ∧ ¬isAsciiBlank c = true

instance : DecidablePred IsSimple := fun c =>
  inferInstanceAs (Decidable (c.toNat < 0x7f ∧ c ≠ '_' ∧ ¬isAsciiBlank c = true))

theorem isSimple_of_isDigit {c : Char} (isDigit : c.isDigit = true) : IsSimple c := by
  refine ⟨?_, ?_, ?_⟩
  · have upper : c.toNat ≤ 57 := (Char.isDigit_iff_toNat.mp isDigit).2
    omega
  · rintro rfl
    exact absurd isDigit (by decide)
  · intro isBlank
    rcases isAsciiBlank_iff.mp isBlank with rfl | rfl | rfl | rfl | rfl | rfl <;>
      exact absurd isDigit (by decide)

/-! ## From characters to a signed numeral -/

private theorem mapM_plainForm? {text : List Char} (simple : ∀ c ∈ text, IsSimple c) :
    text.mapM plainForm? = some text := by
  induction text with
  | nil => rfl
  | cons c rest inductionHypothesis =>
      rw [List.mapM_cons, plainForm?, if_pos (simple c List.mem_cons_self).1,
        inductionHypothesis fun d member => simple d (List.mem_cons_of_mem c member)]
      rfl

private theorem withoutUnderscores?_of_simple {text : List Char} (simple : ∀ c ∈ text, IsSimple c)
    (afterDigit : Bool) : withoutUnderscores? afterDigit text = some text := by
  induction text generalizing afterDigit with
  | nil => rfl
  | cons c rest inductionHypothesis =>
      rw [withoutUnderscores?, if_neg (simple c List.mem_cons_self).2.1,
        inductionHypothesis fun d member => simple d (List.mem_cons_of_mem c member)]
      rfl

private theorem dropWhile_isAsciiBlank {text : List Char} (simple : ∀ c ∈ text, IsSimple c) :
    text.dropWhile isAsciiBlank = text := by
  cases text with
  | nil => rfl
  | cons c rest => rw [List.dropWhile_cons_of_neg (simple c List.mem_cons_self).2.2]

private theorem trimmed_of_simple {text : List Char} (simple : ∀ c ∈ text, IsSimple c) :
    trimmed text = text := by
  have reversed : ∀ c ∈ text.reverse, IsSimple c := fun c member =>
    simple c (List.mem_reverse.mp member)
  rw [trimmed, dropWhile_isAsciiBlank simple, dropWhile_isAsciiBlank reversed, List.reverse_reverse]

/-- A text of characters that are taken as they stand is read as it stands. -/
theorem ofChars?_of_simple {text : List Char} (simple : ∀ c ∈ text, IsSimple c) :
    ofChars? text = signed? text := by
  rw [ofChars?, mapM_plainForm? simple, Option.bind_eq_bind, Option.bind_some,
    withoutUnderscores?_of_simple simple, Option.bind_some, trimmed_of_simple simple]

/-- A sign in front of a digit is split off. -/
private theorem splitSign_digit (negative : Bool) {c : Char} {rest : List Char}
    (isDigit : c.isDigit = true) :
    splitSign (signText negative ++ c :: rest) = (negative, c :: rest) := by
  cases negative with
  | true => rfl
  | false =>
      show splitSign (c :: rest) = (false, c :: rest)
      unfold splitSign
      split
      · rename_i same
        cases same
        exact absurd isDigit (by decide)
      · rename_i same
        cases same
        exact absurd isDigit (by decide)
      · rfl

/-- A text that starts with a digit, behind a sign or not, is not a word. -/
private theorem signed?_digit (negative : Bool) {c : Char} {rest : List Char}
    (isDigit : c.isDigit = true) :
    signed? (signText negative ++ c :: rest) = (decimal? (c :: rest)).map (finite negative) := by
  have bounds := Char.isDigit_iff_toNat.mp isDigit
  have lower : c.toLower = c := by
    have noCapital : ¬(c.val ≥ 65 ∧ c.val ≤ 90) := by
      simp [UInt32.le_iff_toNat_le] at bounds ⊢
      omega
    exact dif_neg noCapital
  have noWord : ∀ first further, first.isDigit = false →
      String.ofList ((c :: rest).map Char.toLower) ≠ String.ofList (first :: further) := by
    intro first further notDigit same
    have sameList := String.ofList_injective same
    rw [List.map_cons, lower] at sameList
    cases sameList
    rw [isDigit] at notDigit
    cases notDigit
  rw [signed?, splitSign_digit negative isDigit]
  dsimp only
  rw [if_neg, if_neg]
  · exact noWord 'n' ['a', 'n'] (by decide)
  · rintro (same | same)
    · exact noWord 'i' ['n', 'f'] (by decide) same
    · exact noWord 'i' ['n', 'f', 'i', 'n', 'i', 't', 'y'] (by decide) same

/-! ## The parts of a decimal -/

/-- Digits in front of what starts with no digit are taken off as they stand. -/
private theorem takeWhile_dropWhile_digits {front behind : List Char}
    (frontDigits : AllDigits front) (stops : ∀ c ∈ behind.head?, c.isDigit = false) :
    (front ++ behind).takeWhile Char.isDigit = front ∧
      (front ++ behind).dropWhile Char.isDigit = behind := by
  rw [List.takeWhile_append_of_pos frontDigits, List.dropWhile_append_of_pos frontDigits]
  cases behind with
  | nil => exact ⟨List.append_nil _, rfl⟩
  | cons c rest =>
      have stop : ¬c.isDigit = true := Bool.eq_false_iff.mp (stops c rfl)
      rw [List.takeWhile_cons_of_neg stop, List.dropWhile_cons_of_neg stop]
      exact ⟨List.append_nil _, rfl⟩

/-- The digits of a decimal, with a point and a fraction or without, and an exponent behind. -/
private theorem decimal?_literal {whole fraction tail behind : List Char} {power : Int}
    (present : whole ≠ []) (wholeDigits : AllDigits whole) (fractionDigits : AllDigits fraction)
    (tailEq : (tail = [] ∧ fraction = []) ∨ tail = '.' :: fraction)
    (stops : ∀ c ∈ behind.head?, c.isDigit = false ∧ c ≠ '.')
    (powerEq : exponent? behind = some power) :
    decimal? (whole ++ (tail ++ behind)) =
      some ⟨Nat.ofDigitChars 10 (whole ++ fraction) 0, power - fraction.length⟩ := by
  have noDigit : ∀ c ∈ behind.head?, c.isDigit = false := fun c member => (stops c member).1
  have stopsWhole : ∀ c ∈ (tail ++ behind).head?, c.isDigit = false := by
    rcases tailEq with ⟨rfl, -⟩ | rfl
    · exact noDigit
    · intro c member
      cases member
      rfl
  have split : splitFraction (tail ++ behind) = (fraction, behind) := by
    rcases tailEq with ⟨rfl, rfl⟩ | rfl
    · cases behind with
      | nil => rfl
      | cons c rest =>
          have noPoint := (stops c rfl).2
          rw [List.nil_append, splitFraction]
          intro further same
          cases same
          exact noPoint rfl
    · obtain ⟨taken, dropped⟩ := takeWhile_dropWhile_digits fractionDigits noDigit
      rw [List.cons_append, splitFraction, taken, dropped]
  obtain ⟨taken, dropped⟩ := takeWhile_dropWhile_digits wholeDigits stopsWhole
  rw [decimal?, taken, dropped, split]
  dsimp only
  rw [if_neg fun both => present both.1, powerEq]
  rfl

/-- A numeral of digits with a point or without one, behind a sign or not, and with an exponent or
without one. -/
private theorem ofChars?_literal (negative : Bool) {whole fraction tail behind : List Char} {power : Int}
    (present : whole ≠ []) (wholeDigits : AllDigits whole) (fractionDigits : AllDigits fraction)
    (tailEq : (tail = [] ∧ fraction = []) ∨ tail = '.' :: fraction)
    (simple : ∀ c ∈ behind, IsSimple c)
    (stops : ∀ c ∈ behind.head?, c.isDigit = false ∧ c ≠ '.')
    (powerEq : exponent? behind = some power) :
    ofChars? (signText negative ++ (whole ++ (tail ++ behind))) =
      some (finite negative
        ⟨Nat.ofDigitChars 10 (whole ++ fraction) 0, power - fraction.length⟩) := by
  have tailSimple : ∀ c ∈ tail, IsSimple c := by
    intro c member
    rcases tailEq with ⟨rfl, -⟩ | rfl
    · cases member
    · rcases List.mem_cons.mp member with rfl | inFraction
      · decide
      · exact isSimple_of_isDigit (fractionDigits c inFraction)
  have allSimple : ∀ c ∈ signText negative ++ (whole ++ (tail ++ behind)), IsSimple c := by
    intro c member
    rcases List.mem_append.mp member with inSign | unsigned
    · cases negative with
      | false => cases inSign
      | true =>
          rw [List.mem_singleton.mp inSign]
          decide
    · rcases List.mem_append.mp unsigned with inWhole | rest
      · exact isSimple_of_isDigit (wholeDigits c inWhole)
      · rcases List.mem_append.mp rest with inTail | inBehind
        · exact tailSimple c inTail
        · exact simple c inBehind
  have read := decimal?_literal present wholeDigits fractionDigits tailEq stops powerEq
  obtain ⟨c, rest, rfl⟩ := List.exists_cons_of_ne_nil present
  rw [ofChars?_of_simple allSimple, List.cons_append, signed?_digit negative wholeDigits.head,
    ← List.cons_append, read]
  rfl

/-- A numeral of digits with a point or without one and without an exponent. -/
theorem ofChars?_positional (negative : Bool) {whole fraction tail : List Char}
    (present : whole ≠ []) (wholeDigits : AllDigits whole) (fractionDigits : AllDigits fraction)
    (tailEq : (tail = [] ∧ fraction = []) ∨ tail = '.' :: fraction) :
    ofChars? (signText negative ++ (whole ++ tail)) =
      some (finite negative (Decimal.ofDigits whole fraction)) := by
  have noExponent : exponent? [] = some 0 := rfl
  have read := ofChars?_literal negative present wholeDigits fractionDigits tailEq
    (fun c member => by cases member) (fun c member => by cases member) noExponent
  rw [List.append_nil, Int.zero_sub] at read
  exact read

/-- The exponent that a sign and digits write. -/
def signedPower (below : Bool) (power : List Char) : Int :=
  if below then -Nat.ofDigitChars 10 power 0 else Nat.ofDigitChars 10 power 0

/-- The exponent part of the letter e, a sign and digits. -/
private theorem exponent?_literal (below : Bool) {power : List Char} (present : power ≠ [])
    (powerDigits : AllDigits power) :
    exponent? ('e' :: (if below then '-' else '+') :: power) = some (signedPower below power) := by
  have withSign : splitSign ((if below then '-' else '+') :: power) = (below, power) := by
    cases below <;> rfl
  have valid : ('e' = 'e' ∨ 'e' = 'E') ∧ power ≠ [] ∧ power.all Char.isDigit = true :=
    ⟨Or.inl rfl, present, List.all_eq_true.mpr powerDigits⟩
  rw [exponent?, withSign]
  exact if_pos valid

/-- A numeral of digits around a point and an exponent. -/
theorem ofChars?_exponential (negative below : Bool) {whole fraction power : List Char}
    (present : whole ≠ []) (wholeDigits : AllDigits whole) (fractionDigits : AllDigits fraction)
    (powerPresent : power ≠ []) (powerDigits : AllDigits power) :
    ofChars? (signText negative ++
        (whole ++ ('.' :: fraction ++ 'e' :: (if below then '-' else '+') :: power))) =
      some (finite negative
        ⟨Nat.ofDigitChars 10 (whole ++ fraction) 0,
          signedPower below power - fraction.length⟩) := by
  have simple : ∀ c ∈ 'e' :: (if below then '-' else '+') :: power, IsSimple c := by
    intro c member
    rcases List.mem_cons.mp member with rfl | behind
    · decide
    · rcases List.mem_cons.mp behind with rfl | inPower
      · cases below <;> decide
      · exact isSimple_of_isDigit (powerDigits c inPower)
  have stops : ∀ c ∈ ('e' :: (if below then '-' else '+') :: power).head?,
      c.isDigit = false ∧ c ≠ '.' := by
    intro c member
    cases member
    decide
  exact ofChars?_literal negative present wholeDigits fractionDigits (Or.inr rfl) simple stops
    (exponent?_literal below powerPresent powerDigits)

end Numeral

theorem read?_ofList (text : List Char) :
    read? (String.ofList text) = (Numeral.ofChars? text).map Numeral.toFloat := by
  rw [read?, Numeral.ofString?, String.toList_ofList]

/-- Digits are read as the double nearest to the whole number that they write. -/
theorem read?_digits {whole : List Char} (present : whole ≠ []) (wholeDigits : AllDigits whole) :
    read? (String.ofList whole) = some (ofMagnitude false (Decimal.ofDigits whole []).word) := by
  have noFraction : AllDigits [] := fun _ member => by cases member
  have read :=
    Numeral.ofChars?_positional false present wholeDigits noFraction (Or.inl ⟨rfl, rfl⟩)
  rw [List.append_nil] at read
  rw [read?_ofList]
  exact congrArg (Option.map Numeral.toFloat) read

/-- Digits around a point are read as the double nearest to the decimal that they write. -/
theorem read?_pointed {whole fraction : List Char} (present : whole ≠ [])
    (wholeDigits : AllDigits whole) (fractionDigits : AllDigits fraction) :
    read? (String.ofList (whole ++ '.' :: fraction)) =
      some (ofMagnitude false (Decimal.ofDigits whole fraction).word) := by
  have read :=
    Numeral.ofChars?_positional false present wholeDigits fractionDigits (Or.inr rfl)
  rw [read?_ofList]
  exact congrArg (Option.map Numeral.toFloat) read

end PocketCalc.Number
