/-!
Contract: the five binary operators.

Owns:
- their symbols, precedence levels and effect on doubles;
- the look-up of an operator by its symbol.

Does not own: grouping, which is to the left for all of them; see `PostOrder`.
-/

namespace PocketCalc

inductive Operator where
  | add
  | subtract
  | multiply
  | divide
  | power
deriving DecidableEq, Repr

namespace Operator

/-- The operators, from the loosest to the tightest. -/
def all : List Operator := [add, subtract, multiply, divide, power]

def symbol : Operator → String
  | add => "+"
  | subtract => "-"
  | multiply => "*"
  | divide => "/"
  | power => "^"

/-- How tightly an operator binds. -/
def precedence : Operator → Nat
  | add => 1
  | subtract => 1
  | multiply => 2
  | divide => 2
  | power => 3

/-- The value of an operator, the left operand first. Division by zero and overflow give
infinities or no number, as double arithmetic has it. -/
def apply : Operator → Float → Float → Float
  | add, left, right => left + right
  | subtract, left, right => left - right
  | multiply, left, right => left * right
  | divide, left, right => left / right
  | power, left, right => Float.pow left right

def ofSymbol? (text : String) : Option Operator :=
  all.find? (·.symbol == text)

theorem mem_all (operator : Operator) : operator ∈ all := by
  cases operator <;> simp [all]

theorem symbol_injective {left right : Operator} (same : left.symbol = right.symbol) :
    left = right := by
  cases left <;> cases right <;> simp_all [symbol]

theorem ofSymbol?_eq_some_iff {text : String} {operator : Operator} :
    ofSymbol? text = some operator ↔ operator.symbol = text := by
  constructor
  · intro found
    have matched := List.find?_some found
    exact eq_of_beq matched
  · rintro rfl
    cases operator <;> decide

theorem precedence_pos (operator : Operator) : 0 < operator.precedence := by
  cases operator <;> decide

theorem precedence_le_three (operator : Operator) : operator.precedence ≤ 3 := by
  cases operator <;> decide

end Operator

end PocketCalc
