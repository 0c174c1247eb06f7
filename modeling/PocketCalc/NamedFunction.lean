/-!
Contract: the six named functions of one argument.

Owns:
- their names and their effect on doubles;
- the look-up of a function by its name.

Does not own: what counts as a function's argument; see `PostOrder`.
-/

namespace PocketCalc

inductive NamedFunction where
  | cosine
  | naturalLogarithm
  | commonLogarithm
  | sine
  | squareRoot
  | tangent
deriving DecidableEq, Repr

/-- An angle of one degree. -/
def radiansPerDegree : Float := Float.ofBits 0x3f91df46a2529d39

namespace NamedFunction

/-- The functions in the order of their names. -/
def all : List NamedFunction :=
  [cosine, naturalLogarithm, commonLogarithm, sine, squareRoot, tangent]

def name : NamedFunction → String
  | cosine => "cos"
  | naturalLogarithm => "ln"
  | commonLogarithm => "log"
  | sine => "sin"
  | squareRoot => "sqrt"
  | tangent => "tan"

/-- The value of a function. Angles are in degrees. Outside its domain a function gives an
infinity or no number. -/
def apply : NamedFunction → Float → Float
  | cosine, argument => Float.cos (argument * radiansPerDegree)
  | naturalLogarithm, argument => Float.log argument
  | commonLogarithm, argument => Float.log10 argument
  | sine, argument => Float.sin (argument * radiansPerDegree)
  | squareRoot, argument => Float.sqrt argument
  | tangent, argument => Float.tan (argument * radiansPerDegree)

def ofName? (text : String) : Option NamedFunction :=
  all.find? (·.name == text)

theorem mem_all (function : NamedFunction) : function ∈ all := by
  cases function <;> simp [all]

theorem name_injective {left right : NamedFunction} (same : left.name = right.name) :
    left = right := by
  cases left <;> cases right <;> simp_all [name]

theorem ofName?_eq_some_iff {text : String} {function : NamedFunction} :
    ofName? text = some function ↔ function.name = text := by
  constructor
  · intro found
    have matched := List.find?_some found
    exact eq_of_beq matched
  · rintro rfl
    cases function <;> decide

end NamedFunction

end PocketCalc
