import PocketCalc.Number.Nearest

/-!
Contract: exact decimal magnitudes and the doubles nearest to them.

Owns:
- the type `Decimal`, a whole coefficient times a power of ten;
- the magnitude word nearest to a decimal.

Does not own: the texts that denote decimals; see `Number/Numeral` for reading and
`Number/Positional` and `Number/Exponential` for writing.
-/

namespace PocketCalc.Number

/-- The magnitude `coefficient * 10 ^ exponent`. -/
structure Decimal where
  coefficient : Nat
  exponent : Int
deriving DecidableEq, Repr

/-- The decimal digits of a number, the leading one first. -/
def digits (number : Nat) : List Char := Nat.toDigits 10 number

namespace Decimal

/-- The numerator of a decimal over `denominator`. -/
def numerator (decimal : Decimal) : Nat :=
  decimal.coefficient * Nat.pow 10 decimal.exponent.toNat

/-- The power of ten that a negative exponent divides by. -/
def denominator (decimal : Decimal) : Nat :=
  Nat.pow 10 (-decimal.exponent).toNat

/-- The exponent of the least power of ten above a decimal that is not zero. -/
def magnitudeBound (decimal : Decimal) : Int :=
  (digits decimal.coefficient).length + decimal.exponent

/-- The magnitude word of the double nearest to a decimal.

A decimal from 10 ^ 309 on exceeds every finite double, and one below 10 ^ -324 is less than half
of the least positive double; the rest is rounded exactly. -/
def word (decimal : Decimal) : Nat :=
  if decimal.coefficient = 0 then 0
  else if 309 < decimal.magnitudeBound then infinityWord
  else if decimal.magnitudeBound ≤ -324 then 0
  else nearestWord decimal.numerator decimal.denominator

end Decimal

end PocketCalc.Number
