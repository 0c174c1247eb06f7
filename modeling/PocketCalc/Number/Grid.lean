import PocketCalc.Number.Decimal

/-!
Contract: a finite magnitude seen from a grid of decimals.

Owns:
- the decimal exponent of a magnitude's leading digit;
- the neighbours of a magnitude on the grid of the multiples of a power of ten, and the nearer
  of the two.

Does not own: which grid a text is taken from; see `Number/Shortest` and `Number/Exponential`.
-/

namespace PocketCalc.Number

/-- The exponent of the leading decimal digit of a finite magnitude, 0 for zero.

The least positive double is above 4 * 10 ^ -324, so every other magnitude times 10 ^ 324 has a
whole part with a leading digit of its own. -/
def decade (word : Nat) : Int :=
  if word = 0 then 0
  else (digits (units word * Nat.pow 10 324 / unitsPerOne)).length - 325

/-- The numerator of a magnitude counted in steps of 10 ^ `exponent`. -/
def stepsNumerator (word : Nat) (exponent : Int) : Nat :=
  units word * Nat.pow 10 (-exponent).toNat

/-- The denominator of a magnitude counted in steps of 10 ^ `exponent`. -/
def stepsDenominator (exponent : Int) : Nat :=
  unitsPerOne * Nat.pow 10 exponent.toNat

/-- The greatest multiple of 10 ^ `exponent` that is not above the magnitude. -/
def lowerNeighbour (word : Nat) (exponent : Int) : Decimal :=
  ⟨stepsNumerator word exponent / stepsDenominator exponent, exponent⟩

/-- The least multiple of 10 ^ `exponent` above the magnitude. -/
def upperNeighbour (word : Nat) (exponent : Int) : Decimal :=
  ⟨stepsNumerator word exponent / stepsDenominator exponent + 1, exponent⟩

/-- The multiple of 10 ^ `exponent` nearest to the magnitude, a tie going to the even one. -/
def nearestNeighbour (word : Nat) (exponent : Int) : Decimal :=
  ⟨roundHalfEven (stepsNumerator word exponent) (stepsDenominator exponent), exponent⟩

/-- The nearest neighbour is the lower or the upper one. -/
theorem nearestNeighbour_eq_or (word : Nat) (exponent : Int) :
    nearestNeighbour word exponent = lowerNeighbour word exponent ∨
      nearestNeighbour word exponent = upperNeighbour word exponent := by
  unfold nearestNeighbour lowerNeighbour upperNeighbour
  rcases roundHalfEven_eq_or (stepsNumerator word exponent) (stepsDenominator exponent) with
    lower | upper
  · exact Or.inl (by rw [lower])
  · exact Or.inr (by rw [upper])

end PocketCalc.Number
