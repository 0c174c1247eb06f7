import PocketCalc.Text.CharClass

/-!
Contract: the two notions of blank that the calculator's texts use.

Owns:
- the six blanks of ASCII, which separate lexemes;
- the wider class of blanks that may surround a numeral.

Does not own: the information separators U+001C to U+001F, which are neither.
-/

namespace PocketCalc.Text

/-- The six blanks of ASCII: the space, and the run from the tab to the carriage return. -/
def isAsciiBlank (c : Char) : Bool :=
  c == ' ' || (9 ≤ c.toNat && c.toNat ≤ 13)

/-- The white-space characters beyond ASCII. -/
def wideBlanks : CharClass :=
  ⟨[(0x85, 0x85), (0xa0, 0xa0), (0x1680, 0x1680), (0x2000, 0x200a),
    (0x2028, 0x2029), (0x202f, 0x202f), (0x205f, 0x205f), (0x3000, 0x3000)]⟩

theorem isAsciiBlank_iff {c : Char} :
    isAsciiBlank c = true ↔
      c = ' ' ∨ c = '\t' ∨ c = '\n' ∨ c = '\x0b' ∨ c = '\x0c' ∨ c = '\r' := by
  have byCode : ∀ d : Char, c = d ↔ c.toNat = d.toNat := fun d =>
    ⟨fun same => by rw [same], fun same => Char.toNat_inj.mp same⟩
  have codes : ' '.toNat = 32 ∧ '\t'.toNat = 9 ∧ '\n'.toNat = 10 ∧ '\x0b'.toNat = 11 ∧
      '\x0c'.toNat = 12 ∧ '\r'.toNat = 13 := by decide
  obtain ⟨space, tab, lineFeed, verticalTab, formFeed, carriageReturn⟩ := codes
  simp only [isAsciiBlank, Bool.or_eq_true, beq_iff_eq, Bool.and_eq_true, decide_eq_true_eq,
    byCode, space, tab, lineFeed, verticalTab, formFeed, carriageReturn]
  omega

end PocketCalc.Text
