import PocketCalc.Number.Grid

/-!
Contract: the decimal with the fewest digits that reads back as a given magnitude.

Owns:
- the search over grids, from one significant digit to seventeen;
- the choice on one grid: the nearest neighbour if it reads back, else the other one.

Does not own: the notation in which the decimal is written.

Seventeen digits tell all doubles apart, so the search ends on a grid; the exact decimal behind
it makes the function total without an assumption.
-/

namespace PocketCalc.Number

/-- Whether the double nearest to the decimal is the given magnitude. -/
def Decimal.readsBackAs (decimal : Decimal) (word : Nat) : Bool :=
  decimal.word == word

/-- The multiple of 10 ^ `exponent` that reads back as the magnitude and is nearest to it, if one
reads back. -/
def closestOnGrid? (word : Nat) (exponent : Int) : Option Decimal :=
  [nearestNeighbour word exponent, lowerNeighbour word exponent,
    upperNeighbour word exponent].find? (·.readsBackAs word)

/-- Every finite magnitude is a decimal, since 2 ^ -1074 is 5 ^ 1074 / 10 ^ 1074. -/
def exactDecimal (word : Nat) : Decimal :=
  ⟨units word * Nat.pow 5 1074, -1074⟩

/-- The decimal with the fewest significant digits that reads back as the magnitude; of several,
the nearest. -/
def shortestDecimal (word : Nat) : Decimal :=
  ((List.range 17).findSome? fun (further : Nat) =>
    closestOnGrid? word (decade word - further)).getD (exactDecimal word)

/-- What a grid gives reads back as the magnitude. -/
theorem readsBackAs_of_closestOnGrid? {word : Nat} {exponent : Int} {decimal : Decimal}
    (found : closestOnGrid? word exponent = some decimal) :
    decimal.readsBackAs word = true := by
  have accepted := List.find?_some found
  exact accepted

end PocketCalc.Number
