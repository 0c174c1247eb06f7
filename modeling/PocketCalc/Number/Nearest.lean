import PocketCalc.Number.Binary
import PocketCalc.Number.Rounding

/-!
Contract: the double nearest to an exact ratio of natural numbers.

Owns:
- the magnitude word nearest to a ratio, ties going to the even significand, with gradual
  underflow to zero and overflow to infinity.

Does not own: decimal notation; see `Number/Decimal`.

A ratio is counted in units of 2 ^ -1074. The number of binary places of its whole part fixes how
many of them the significand has to drop. A significand that rounds up to 2 ^ 53 carries into
the exponent by plain addition, because consecutive magnitudes have consecutive words.
-/

namespace PocketCalc.Number

/-- The magnitude word of the double nearest to `numerator / denominator`. -/
def nearestWord (numerator denominator : Nat) : Nat :=
  let scaled := numerator * unitsPerOne
  let dropped := Nat.log2 (scaled / denominator) - 52
  min (dropped * 0x10000000000000 + roundHalfEven scaled (denominator * Nat.pow 2 dropped))
    infinityWord

theorem nearestWord_le_infinityWord (numerator denominator : Nat) :
    nearestWord numerator denominator ≤ infinityWord :=
  Nat.min_le_right _ _

end PocketCalc.Number
