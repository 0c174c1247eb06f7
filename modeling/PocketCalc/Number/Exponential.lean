import PocketCalc.Number.Positional

/-!
Contract: decimal notation with one digit before the point and an exponent.

Owns:
- the layout of significand and exponent;
- the form with a fixed number of places, rounded from the exact value;
- the general form, which is positional for exponents from -4 to 15 and exponential beyond.

Does not own: when a result is shown in this form; see `Display`.
-/

namespace PocketCalc.Number

/-- An exponent: the letter e, a sign, and at least two digits. -/
def exponentText (exponent : Int) : List Char :=
  'e' :: (if exponent < 0 then '-' else '+') :: padded 2 (digits exponent.natAbs)

/-- Significant digits in exponential notation, with a point if more than one is given. -/
def exponential (significant : List Char) (exponent : Int) : List Char :=
  match significant with
  | [] => '0' :: exponentText exponent
  | [leading] => leading :: exponentText exponent
  | leading :: further => leading :: '.' :: further ++ exponentText exponent

/-- A finite magnitude in exponential notation, rounded to `places` digits behind the point, a
tie going to the even digit. A significand that rounds up to ten moves to the next exponent. -/
def roundedExponential (places : Nat) (word : Nat) : List Char :=
  let exponent := decade word
  let rounded := (nearestNeighbour word (exponent - places)).coefficient
  if rounded = Nat.pow 10 (places + 1) then
    exponential (digits (Nat.pow 10 places)) (exponent + 1)
  else
    exponential (padded (places + 1) (digits rounded)) exponent

/-- A double in general notation: the fewest digits that read back, positional with at least one
place when the leading digit's exponent is from -4 to 15, exponential otherwise. -/
def generalText (value : Float) : String :=
  let word := magnitudeWord value
  if word < infinityWord then
    let decimal := shortestDecimal word
    let exponent := decimal.magnitudeBound - 1
    let unsigned :=
      if decimal.coefficient = 0 then ['0', '.', '0']
      else if -4 ≤ exponent ∧ exponent < 16 then
        if decimal.fraction.isEmpty then decimal.positional ++ ['.', '0'] else decimal.positional
      else exponential (withoutTrailingZeros (digits decimal.coefficient)) exponent
    String.ofList (signText (isNegative value) ++ unsigned)
  else if word = infinityWord then
    String.ofList (signText (isNegative value) ++ ['i', 'n', 'f'])
  else "nan"

end PocketCalc.Number
