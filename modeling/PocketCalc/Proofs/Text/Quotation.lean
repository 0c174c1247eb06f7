import Mathlib.Tactic.Ring
import PocketCalc.Text.Quoted

/-!
Contract: a quoted text is printable, ends by itself and can be read back.

Owns:
- a reader of quoted texts, one character at a time, which knows nothing of the text that was
  quoted;
- the reader takes from a quoted text and what follows it the text, and leaves what follows;
- the characters of ASCII from the space on are printable, and so is all of a quoted text.

Does not own: the messages that quoted texts stand in; see `Evaluation/Record`.
-/

namespace PocketCalc.Text

/-! ## The reader -/

/-- What the reader of a quoted text awaits: a character, the rest of an escape, or a digit of a
code point with so many further ones behind it. -/
inductive Awaited where
  | character
  | escape
  | hex (further code : Nat)
deriving DecidableEq, Repr

/-- What the reader makes of one character. -/
inductive Reading where
  | finished
  | character (c : Char)
  | awaits (awaited : Awaited)
  | refused
deriving DecidableEq, Repr

/-- The value of a hexadecimal digit in lower case. -/
def hexDigit? (c : Char) : Option Nat :=
  (List.range 16).find? (Nat.digitChar · == c)

/-- What is left to do behind a digit of a code point: further digits, or nothing. -/
def behindDigit : Nat → Nat → Reading
  | 0, code => .character (Char.ofNat code)
  | further + 1, code => .awaits (.hex further code)

def reading (mark : Char) : Awaited → Char → Reading
  | .character, c =>
      if c = mark then .finished
      else if c = backslash then .awaits .escape
      else .character c
  | .escape, c =>
      if c = backslash ∨ c = mark then .character c
      else if c = 'n' then .character '\n'
      else if c = 'r' then .character '\r'
      else if c = 't' then .character '\t'
      else if c = 'x' then .awaits (.hex 1 0)
      else if c = 'u' then .awaits (.hex 3 0)
      else if c = 'U' then .awaits (.hex 7 0)
      else .refused
  | .hex further code, c =>
      match hexDigit? c with
      | none => .refused
      | some digit => behindDigit further (16 * code + digit)

/-- The text up to the closing mark, and what follows the mark. -/
def unquoteFrom? (mark : Char) : Awaited → List Char → Option (List Char × List Char)
  | _, [] => none
  | awaited, c :: rest =>
      match reading mark awaited c with
      | .finished => some ([], rest)
      | .character d => (unquoteFrom? mark .character rest).map (Prod.map (d :: ·) id)
      | .awaits next => unquoteFrom? mark next rest
      | .refused => none

/-- The text that a quoted text at the start shows, and what follows the quoted text. -/
def unquote? : List Char → Option (List Char × List Char)
  | [] => none
  | mark :: rest =>
      if mark = singleQuote ∨ mark = doubleQuote then unquoteFrom? mark .character rest else none

/-! ## One character -/

section

variable {mark : Char} {c : Char} {rest : List Char}

theorem unquoteFrom?_of_character {d : Char} {awaited : Awaited}
    (read : reading mark awaited c = .character d) :
    unquoteFrom? mark awaited (c :: rest) =
      (unquoteFrom? mark .character rest).map (Prod.map (d :: ·) id) := by
  rw [unquoteFrom?, read]

theorem unquoteFrom?_of_awaits {awaited next : Awaited}
    (read : reading mark awaited c = .awaits next) :
    unquoteFrom? mark awaited (c :: rest) = unquoteFrom? mark next rest := by
  rw [unquoteFrom?, read]

theorem hexDigit?_digitChar : ∀ digit < 16, hexDigit? (Nat.digitChar digit) = some digit := by
  decide

theorem reading_hex (mark : Char) (further code number : Nat) :
    reading mark (.hex further code) (Nat.digitChar (number % 16)) =
      behindDigit further (16 * code + number % 16) := by
  rw [reading, hexDigit?_digitChar _ (Nat.mod_lt number (by decide))]

/-- Digits of a code point that others follow are added to it. -/
theorem unquoteFrom?_hexDigits (width further code number : Nat) :
    unquoteFrom? mark (.hex (width + further) code) (hexDigits width number ++ rest) =
      unquoteFrom? mark (.hex further (16 ^ width * code + number % 16 ^ width)) rest := by
  induction width generalizing further number rest with
  | zero => simp [hexDigits, Nat.mod_one]
  | succ width inductionHypothesis =>
      have sumEq : 16 * (16 ^ width * code + number / 16 % 16 ^ width) + number % 16 =
          16 ^ (width + 1) * code + number % 16 ^ (width + 1) := by
        rw [Nat.pow_succ', Nat.mod_mul]
        ring
      have read :=
        reading_hex mark (further + 1) (16 ^ width * code + number / 16 % 16 ^ width) number
      rw [sumEq] at read
      rw [hexDigits, List.append_assoc, List.singleton_append, Nat.add_right_comm, Nat.add_assoc,
        inductionHypothesis, unquoteFrom?_of_awaits read]

/-- The digits of a code point, to the last one, are read as its character. -/
theorem unquoteFrom?_code {further : Nat} (fits : c.toNat < 16 ^ (further + 1)) :
    unquoteFrom? mark (.hex further 0) (hexDigits (further + 1) c.toNat ++ rest) =
      (unquoteFrom? mark .character rest).map (Prod.map (c :: ·) id) := by
  have front := @unquoteFrom?_hexDigits mark (Nat.digitChar (c.toNat % 16) :: rest) further 0 0
    (c.toNat / 16)
  have read := reading_hex mark 0 (c.toNat / 16) c.toNat
  rw [Nat.pow_succ'] at fits
  rw [Nat.add_zero, Nat.mul_zero, Nat.zero_add, Nat.mod_eq_of_lt (Nat.div_lt_of_lt_mul fits)]
    at front
  rw [Nat.div_add_mod, behindDigit, Char.ofNat_toNat] at read
  rw [hexDigits, List.append_assoc, List.singleton_append, front, unquoteFrom?_of_character read]

/-- The written form of a character between two marks is read as that character. -/
theorem unquoteFrom?_escape (isMark : mark = singleQuote ∨ mark = doubleQuote) :
    unquoteFrom? mark .character (escape mark c ++ rest) =
      (unquoteFrom? mark .character rest).map (Prod.map (c :: ·) id) := by
  have noBackslash : backslash ≠ mark := by
    rcases isMark with rfl | rfl <;> decide
  have escapes : reading mark .character backslash = .awaits .escape := by
    rw [reading, if_neg noBackslash, if_pos rfl]
  have shortEscape {letter d : Char} (read : reading mark .escape letter = .character d) :
      unquoteFrom? mark .character ([backslash, letter] ++ rest) =
        (unquoteFrom? mark .character rest).map (Prod.map (d :: ·) id) := by
    rw [List.cons_append, unquoteFrom?_of_awaits escapes, List.singleton_append,
      unquoteFrom?_of_character read]
  have longEscape {letter : Char} {further : Nat} (fits : c.toNat < 16 ^ (further + 1))
      (read : reading mark .escape letter = .awaits (.hex further 0)) :
      unquoteFrom? mark .character
          (backslash :: letter :: hexDigits (further + 1) c.toNat ++ rest) =
        (unquoteFrom? mark .character rest).map (Prod.map (c :: ·) id) := by
    rw [List.cons_append, unquoteFrom?_of_awaits escapes, List.cons_append,
      unquoteFrom?_of_awaits read, unquoteFrom?_code fits]
  obtain ⟨lineFeed, carriageReturn, tab, two, four, eight⟩ :
      reading mark .escape 'n' = .character '\n' ∧ reading mark .escape 'r' = .character '\r' ∧
        reading mark .escape 't' = .character '\t' ∧ reading mark .escape 'x' = .awaits (.hex 1 0) ∧
        reading mark .escape 'u' = .awaits (.hex 3 0) ∧
        reading mark .escape 'U' = .awaits (.hex 7 0) := by
    rcases isMark with rfl | rfl <;> decide
  unfold escape
  by_cases special : c = backslash ∨ c = mark
  · rw [if_pos special]
    exact shortEscape (if_pos special)
  · rw [if_neg special]
    split
    · subst c
      exact shortEscape lineFeed
    · split
      · subst c
        exact shortEscape carriageReturn
      · split
        · subst c
          exact shortEscape tab
        · split
          · have plain : reading mark .character c = .character c := by
              rw [reading, if_neg fun isMark => special (Or.inr isMark),
                if_neg fun isBackslash => special (Or.inl isBackslash)]
            rw [List.singleton_append, unquoteFrom?_of_character plain]
          · unfold hexEscape
            split
            · exact longEscape (by omega) two
            · split
              · exact longEscape (by omega) four
              · exact longEscape (c.val.toNat_lt.trans_eq (by decide)) eight

end

/-! ## The whole text -/

theorem quoteMark_eq_or (text : List Char) :
    quoteMark text = singleQuote ∨ quoteMark text = doubleQuote := by
  unfold quoteMark
  split
  · exact Or.inr rfl
  · exact Or.inl rfl

/-- A quoted text ends by itself: whatever follows it, the reader takes the text and leaves what
follows. -/
theorem unquote?_quoteChars (text rest : List Char) :
    unquote? (quoteChars text ++ rest) = some (text, rest) := by
  have isMark := quoteMark_eq_or text
  unfold quoteChars
  dsimp only
  generalize quoteMark text = mark at *
  rw [List.cons_append, List.cons_append, List.append_assoc, List.singleton_append, unquote?,
    if_pos isMark]
  induction text with
  | nil => rw [List.flatMap_nil, List.nil_append, unquoteFrom?, reading, if_pos rfl]
  | cons c further inductionHypothesis =>
      rw [List.flatMap_cons, List.append_assoc, unquoteFrom?_escape isMark, inductionHypothesis]
      rfl

/-! ## Printable texts -/

/-- Whether a text holds only characters that print something. -/
def IsPrintableText (text : List Char) : Prop := ∀ c ∈ text, isPrintable c = true

theorem IsPrintableText.append {front behind : List Char} (frontPrintable : IsPrintableText front)
    (behindPrintable : IsPrintableText behind) : IsPrintableText (front ++ behind) := by
  intro c member
  rcases List.mem_append.mp member with inFront | inBehind
  · exact frontPrintable c inFront
  · exact behindPrintable c inBehind

/-- Whether a character is one of ASCII from the space on, and not the last one. -/
def isGraphic (c : Char) : Bool := 32 ≤ c.toNat && c.toNat < 127

theorem isPrintable_of_isGraphic {c : Char} (graphic : isGraphic c = true) :
    isPrintable c = true := by
  have apart : ∀ span ∈ unprintable.spans, span.2 < 32 ∨ 127 ≤ span.1 := by decide +kernel
  rw [isGraphic, Bool.and_eq_true, decide_eq_true_eq, decide_eq_true_eq] at graphic
  rw [isPrintable, Bool.not_eq_true', Bool.eq_false_iff]
  intro contained
  obtain ⟨span, member, atLeast, atMost⟩ := CharClass.contains_iff.mp contained
  have := apart span member
  omega

theorem isPrintable_of_isDigit {c : Char} (isDigit : c.isDigit = true) : isPrintable c = true := by
  have bounds := Char.isDigit_iff_toNat.mp isDigit
  have lower : 48 ≤ c.toNat := bounds.1
  have upper : c.toNat ≤ 57 := bounds.2
  refine isPrintable_of_isGraphic ?_
  rw [isGraphic, Bool.and_eq_true, decide_eq_true_eq, decide_eq_true_eq]
  omega

/-- Whether a text holds only such characters of ASCII. -/
def IsGraphicText (text : List Char) : Prop := ∀ c ∈ text, isGraphic c = true

instance : DecidablePred IsGraphicText := fun text =>
  decidable_of_iff (text.all isGraphic = true) List.all_eq_true

theorem IsGraphicText.isPrintableText {text : List Char} (graphic : IsGraphicText text) :
    IsPrintableText text :=
  fun c member => isPrintable_of_isGraphic (graphic c member)

theorem isPrintableText_hexDigits (width number : Nat) :
    IsPrintableText (hexDigits width number) := by
  have digitGraphic : ∀ digit < 16, isGraphic (Nat.digitChar digit) = true := by decide
  induction width generalizing number with
  | zero =>
      intro c member
      cases member
  | succ width inductionHypothesis =>
      have lastGraphic : IsGraphicText [Nat.digitChar (number % 16)] := by
        intro c member
        rw [List.mem_singleton.mp member]
        exact digitGraphic _ (Nat.mod_lt number (by decide))
      exact (inductionHypothesis _).append lastGraphic.isPrintableText

/-- The written form of a character is printable, whether the character is or not. -/
theorem isPrintableText_escape {mark : Char} (isMark : mark = singleQuote ∨ mark = doubleQuote)
    (c : Char) : IsPrintableText (escape mark c) := by
  unfold escape
  split
  · rename_i special
    refine IsGraphicText.isPrintableText ?_
    rcases special with rfl | rfl
    · decide
    · rcases isMark with rfl | rfl <;> decide
  · split
    · exact IsGraphicText.isPrintableText (by decide)
    · split
      · exact IsGraphicText.isPrintableText (by decide)
      · split
        · exact IsGraphicText.isPrintableText (by decide)
        · split
          · rename_i printable
            intro d member
            rw [List.mem_singleton.mp member]
            exact printable
          · have letters : IsPrintableText [backslash, 'x'] ∧ IsPrintableText [backslash, 'u'] ∧
                IsPrintableText [backslash, 'U'] :=
              ⟨IsGraphicText.isPrintableText (by decide), IsGraphicText.isPrintableText (by decide),
                IsGraphicText.isPrintableText (by decide)⟩
            unfold hexEscape
            split
            · exact letters.1.append (isPrintableText_hexDigits 2 _)
            · split
              · exact letters.2.1.append (isPrintableText_hexDigits 4 _)
              · exact letters.2.2.append (isPrintableText_hexDigits 8 _)

theorem isPrintableText_quoteChars (text : List Char) : IsPrintableText (quoteChars text) := by
  have isMark := quoteMark_eq_or text
  have markPrintable : IsPrintableText [quoteMark text] := by
    refine IsGraphicText.isPrintableText ?_
    rcases isMark with same | same <;> rw [same] <;> decide
  have written : IsPrintableText (text.flatMap (escape (quoteMark text))) := by
    intro c member
    obtain ⟨d, -, written⟩ := List.mem_flatMap.mp member
    exact isPrintableText_escape isMark d c written
  exact (markPrintable.append written).append markPrintable

end PocketCalc.Text
