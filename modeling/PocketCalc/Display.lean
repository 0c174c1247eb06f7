import PocketCalc.Number.Exponential
import PocketCalc.Number.Numeral

/-!
Contract: how much of a text the calculator's display shows.

Owns:
- the limits of the display and the choice between a cut text and an exponential form.

Does not own: the text of a result; see `Number/Positional`.
-/

namespace PocketCalc.Display

/-- The most characters that the display shows of a text. -/
def width : Nat := 12

/-- The most characters that are shown without a look at the number that they spell. -/
def plainWidth : Nat := 9

/-- The greatest magnitude that is shown in positional notation. -/
def greatest : Nat := 999999999

/-- The magnitude word below which a number other than zero is shown with an exponent. -/
def leastWord : Nat := Number.Decimal.word ⟨1, -7⟩

/-- Whether a finite magnitude is too large or too small for positional notation. -/
def needsExponent (word : Nat) : Bool :=
  greatest * Number.unitsPerOne < Number.units word || (word ≠ 0 && word < leastWord)

/-- A number in exponential notation with two places behind the point. -/
def exponentialText (value : Float) : String :=
  String.ofList (Number.signText (Number.isNegative value) ++
    Number.roundedExponential 2 (Number.magnitudeWord value))

/-- The number that a text is shown as in exponential notation, if it is. -/
def exponentialValue? (text : String) : Option Float :=
  if plainWidth < text.length then
    (Number.read? text).filter fun value =>
      Number.isFinite value && needsExponent (Number.magnitudeWord value)
  else none

/-- What the display shows of a text: a number beyond the limits with an exponent, and anything
else up to the width of the display. -/
def ofText (text : String) : String :=
  match exponentialValue? text with
  | some value => exponentialText value
  | none => String.ofList (text.toList.take width)

end PocketCalc.Display
