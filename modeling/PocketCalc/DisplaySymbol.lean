/-!
Contract: the symbols of the keypad that stand for ASCII text in an expression.

Owns:
- the five symbols and their ASCII text;
- the expansion of a text, which is a homomorphism for concatenation.

Does not own: how the expanded text is split; see `Lexeme`.

No ASCII text of a symbol holds a symbol, so one pass over the characters expands them all.
-/

namespace PocketCalc

/-- A symbol that an expression may hold in place of ASCII text. -/
inductive DisplaySymbol where
  | circleConstant
  | times
  | minus
  | obelus
  | root
deriving DecidableEq, Repr

namespace DisplaySymbol

def all : List DisplaySymbol := [circleConstant, times, minus, obelus, root]

def char : DisplaySymbol → Char
  | circleConstant => 'π'
  | times => '×'
  | minus => '−'
  | obelus => '÷'
  | root => '√'

/-- The ASCII text that a symbol stands for. -/
def replacement : DisplaySymbol → String
  | circleConstant => "3.141592653589793"
  | times => "*"
  | minus => "-"
  | obelus => "/"
  | root => "sqrt"

def ofChar? (c : Char) : Option DisplaySymbol :=
  all.find? (·.char == c)

/-- A character as it counts in an expression. -/
def expandChar (c : Char) : List Char :=
  match ofChar? c with
  | some symbol => symbol.replacement.toList
  | none => [c]

/-- A text with every symbol replaced by its ASCII text. -/
def expand (text : List Char) : List Char :=
  text.flatMap expandChar

@[simp]
theorem expand_nil : expand [] = [] := rfl

@[simp]
theorem expand_append (left right : List Char) :
    expand (left ++ right) = expand left ++ expand right :=
  List.flatMap_append

end DisplaySymbol

end PocketCalc
