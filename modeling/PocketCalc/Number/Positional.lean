import PocketCalc.Number.Shortest

/-!
Contract: positional decimal notation without an exponent.

Owns:
- the digits of a decimal around its point, with no zeros that end the fraction and no point
  without a fraction.

Does not own: the choice of the decimal; see `Number/Shortest`.
-/

namespace PocketCalc.Number

/-- A list without the zeros that end it. -/
def withoutTrailingZeros (text : List Char) : List Char :=
  (text.reverse.dropWhile (· == '0')).reverse

/-- A text filled up with zeros on its left to the given width. -/
def padded (width : Nat) (text : List Char) : List Char :=
  List.replicate (width - text.length) '0' ++ text

/-- The digits of a decimal behind its point. -/
def Decimal.fraction (decimal : Decimal) : List Char :=
  withoutTrailingZeros
    (padded (-decimal.exponent).toNat (digits (decimal.numerator % decimal.denominator)))

/-- The digits of a decimal, with a point before the fraction if there is one. -/
def Decimal.positional (decimal : Decimal) : List Char :=
  let whole := digits (decimal.numerator / decimal.denominator)
  match decimal.fraction with
  | [] => whole
  | fraction => whole ++ '.' :: fraction

/-- The sign of a text: a minus for a set sign bit, nothing otherwise. -/
def signText (negative : Bool) : List Char :=
  if negative then ['-'] else []

/-- The text of a double in positional notation with the fewest digits that read back.

The values without digits are written `inf`, `-inf` and `nan`. -/
def positionalText (value : Float) : String :=
  let word := magnitudeWord value
  if word < infinityWord then
    String.ofList (signText (isNegative value) ++ (shortestDecimal word).positional)
  else if word = infinityWord then
    String.ofList (signText (isNegative value) ++ ['i', 'n', 'f'])
  else "nan"

end PocketCalc.Number
