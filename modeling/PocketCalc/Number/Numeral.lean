import PocketCalc.Number.Decimal
import PocketCalc.Text.Blank
import PocketCalc.Text.DecimalDigit

/-!
Contract: reading the text of a real number.

Owns:
- the grammar of numerals: blanks around, a sign, the words for infinity and for no number, or
  digits with an optional point and an optional exponent, single underscores between digits;
- the double that a numeral denotes, correctly rounded.

Does not own: which lexemes are read as numerals; see `Token`.

Digits and blanks of every script count as their ASCII forms. The blanks of ASCII count, but not
the information separators.
-/

namespace PocketCalc.Number

open PocketCalc.Text

/-- What the text of a number denotes. -/
inductive Numeral where
  | finite (negative : Bool) (magnitude : Decimal)
  | infinite (negative : Bool)
  | notANumber
deriving DecidableEq, Repr

namespace Numeral

def toFloat : Numeral → Float
  | finite negative magnitude => ofMagnitude negative magnitude.word
  | infinite negative => ofMagnitude negative infinityWord
  | notANumber => Number.notANumber

/-- The ASCII form of a character in a numeral: a blank of any script becomes the space, a digit
of any script the ASCII digit of its value. No other character beyond ASCII occurs in one. -/
def plainForm? (c : Char) : Option Char :=
  if c.toNat < 0x7f then some c
  else if wideBlanks.contains c then some ' '
  else (wideDigitValue? c).map Nat.digitChar

/-- The text without its underscores, each of which has to stand between two digits. -/
def withoutUnderscores? (afterDigit : Bool) : List Char → Option (List Char)
  | [] => some []
  | c :: rest =>
      if c = '_' then
        if afterDigit && rest.head?.any Char.isDigit then withoutUnderscores? false rest else none
      else (withoutUnderscores? c.isDigit rest).map (c :: ·)

/-- A text without the blanks at its two ends. -/
def trimmed (text : List Char) : List Char :=
  ((text.dropWhile isAsciiBlank).reverse.dropWhile isAsciiBlank).reverse

/-- A sign, if there is one, and the rest; true stands for a minus. -/
def splitSign : List Char → Bool × List Char
  | '-' :: rest => (true, rest)
  | '+' :: rest => (false, rest)
  | text => (false, text)

/-- The exponent part of a numeral: nothing, or the letter e, a sign and digits. -/
def exponent? : List Char → Option Int
  | [] => some 0
  | letter :: rest =>
      let (negative, places) := splitSign rest
      if (letter = 'e' ∨ letter = 'E') ∧ places ≠ [] ∧ places.all Char.isDigit then
        let size : Int := Nat.ofDigitChars 10 places 0
        some (if negative then -size else size)
      else none

/-- The digits behind a point, and the rest. -/
def splitFraction : List Char → List Char × List Char
  | '.' :: rest => (rest.takeWhile Char.isDigit, rest.dropWhile Char.isDigit)
  | text => ([], text)

/-- An unsigned numeral of digits: a whole part and a fraction, not both empty, and an exponent. -/
def decimal? (text : List Char) : Option Decimal :=
  let whole := text.takeWhile Char.isDigit
  let (fraction, rest) := splitFraction (text.dropWhile Char.isDigit)
  if whole = [] ∧ fraction = [] then none
  else (exponent? rest).map fun exponent =>
    ⟨Nat.ofDigitChars 10 (whole ++ fraction) 0, exponent - fraction.length⟩

/-- A numeral with neither blanks nor underscores. -/
def signed? (text : List Char) : Option Numeral :=
  let (negative, unsigned) := splitSign text
  let word := String.ofList (unsigned.map Char.toLower)
  if word = "inf" ∨ word = "infinity" then some (infinite negative)
  else if word = "nan" then some notANumber
  else (decimal? unsigned).map (finite negative)

/-- The numeral that a text spells, if it spells one. -/
def ofChars? (text : List Char) : Option Numeral := do
  let plain ← text.mapM plainForm?
  let joined ← withoutUnderscores? false plain
  signed? (trimmed joined)

/-- The numeral that a text spells, if it spells one. -/
def ofString? (text : String) : Option Numeral := ofChars? text.toList

end Numeral

/-- The double that a text denotes, if it spells a number. -/
def read? (text : String) : Option Float := (Numeral.ofString? text).map Numeral.toFloat

end PocketCalc.Number
