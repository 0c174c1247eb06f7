/-!
Contract: decimal digits of every script.

Owns:
- the zeros of the scripts whose digits are written in positional decimal notation (general
  category Nd, edition 14 of the character database);
- the value of a digit beyond ASCII.

Does not own: superscripts, fractions and other numeric characters, which are no decimal digits.
-/

namespace PocketCalc.Text

/-- The code points of the digit zero beyond ASCII. In each script the nine digits from one to
nine follow their zero in order. -/
def wideZeros : List Nat :=
  [0x0660, 0x06f0, 0x07c0, 0x0966, 0x09e6, 0x0a66, 0x0ae6, 0x0b66, 0x0be6, 0x0c66, 0x0ce6,
    0x0d66, 0x0de6, 0x0e50, 0x0ed0, 0x0f20, 0x1040, 0x1090, 0x17e0, 0x1810, 0x1946, 0x19d0,
    0x1a80, 0x1a90, 0x1b50, 0x1bb0, 0x1c40, 0x1c50, 0xa620, 0xa8d0, 0xa900, 0xa9d0, 0xa9f0,
    0xaa50, 0xabf0, 0xff10, 0x104a0, 0x10d30, 0x11066, 0x110f0, 0x11136, 0x111d0, 0x112f0,
    0x11450, 0x114d0, 0x11650, 0x116c0, 0x11730, 0x118e0, 0x11950, 0x11c50, 0x11d50, 0x11da0,
    0x16a60, 0x16ac0, 0x16b50, 0x1d7ce, 0x1d7d8, 0x1d7e2, 0x1d7ec, 0x1d7f6, 0x1e140, 0x1e2f0,
    0x1e950, 0x1fbf0]

/-- The value of a decimal digit beyond ASCII. -/
def wideDigitValue? (c : Char) : Option Nat :=
  (wideZeros.find? fun start => start ≤ c.toNat && c.toNat < start + 10).map (c.toNat - ·)

theorem wideDigitValue?_lt {c : Char} {value : Nat}
    (found : wideDigitValue? c = some value) : value < 10 := by
  obtain ⟨start, startFound, rfl⟩ := Option.map_eq_some_iff.mp found
  have bounds := List.find?_some startFound
  simp only [Bool.and_eq_true, decide_eq_true_eq] at bounds
  omega

end PocketCalc.Text
