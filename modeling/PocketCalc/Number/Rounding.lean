/-!
Contract: rounding of an exact ratio of natural numbers to a whole number.

Owns:
- `roundHalfEven`, the nearest whole number, a half going to the even neighbour;
- its two laws: the result is within half a unit, and at exactly half a unit it is even.

Does not own: the choice of the unit; see `Number/Nearest` and `Number/Shortest`.
-/

namespace PocketCalc.Number

/-- The whole number nearest to `numerator / denominator`; a half goes to the even neighbour. -/
def roundHalfEven (numerator denominator : Nat) : Nat :=
  let quotient := numerator / denominator
  let twice := 2 * (numerator % denominator)
  if twice < denominator then quotient
  else if denominator < twice then quotient + 1
  else quotient + quotient % 2

/-- The result is one of the two neighbours of the ratio. -/
theorem roundHalfEven_eq_or (numerator denominator : Nat) :
    roundHalfEven numerator denominator = numerator / denominator ∨
      roundHalfEven numerator denominator = numerator / denominator + 1 := by
  unfold roundHalfEven
  dsimp only
  split
  · exact Or.inl rfl
  · split
    · exact Or.inr rfl
    · omega

/-- The result differs from the ratio by at most half a unit. -/
theorem roundHalfEven_within_half {numerator denominator : Nat} (positive : 0 < denominator) :
    2 * numerator ≤ (2 * roundHalfEven numerator denominator + 1) * denominator ∧
      2 * roundHalfEven numerator denominator * denominator ≤ 2 * numerator + denominator := by
  have division := Nat.div_add_mod numerator denominator
  have remainderLt := Nat.mod_lt numerator positive
  unfold roundHalfEven
  dsimp only
  generalize numerator / denominator = quotient at *
  generalize numerator % denominator = remainder at *
  have expanded : ∀ k, (2 * k + 1) * denominator = 2 * (denominator * k) + denominator := by
    intro k
    rw [Nat.add_mul, Nat.mul_assoc, Nat.mul_comm k, Nat.one_mul]
  have doubled : ∀ k, 2 * k * denominator = 2 * (denominator * k) := by
    intro k
    rw [Nat.mul_assoc, Nat.mul_comm k]
  have stepped : denominator * (quotient + 1) = denominator * quotient + denominator := by
    rw [Nat.mul_add, Nat.mul_one]
  rw [expanded, doubled]
  split
  · omega
  · split
    · omega
    · rcases Nat.mod_two_eq_zero_or_one quotient with even | odd
      · rw [even, Nat.add_zero]
        omega
      · rw [odd]
        omega

/-- At exactly half a unit the result is even. -/
theorem roundHalfEven_even_of_tie {numerator denominator : Nat}
    (tie : 2 * (numerator % denominator) = denominator) :
    roundHalfEven numerator denominator % 2 = 0 := by
  unfold roundHalfEven
  dsimp only
  rw [tie]
  simp only [Nat.lt_irrefl, if_false]
  omega

end PocketCalc.Number
