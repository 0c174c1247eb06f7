import PocketCalc.Operator
import PocketCalc.NamedFunction

/-!
Contract: the keys of the calculator and their place on the keypad.

Owns:
- the entries, which are the keys that append a text to the expression, with their texts;
- the remaining keys, the labels and the colors;
- the keypad: place and width of every key, row by row.

Does not own: the effect of a key; see `Calculator`.
-/

namespace PocketCalc

/-- A key that appends a text to the expression. -/
inductive Entry where
  | digit (value : Fin 10)
  | point
  | binary (operator : Operator)
  | apply (function : NamedFunction)
  | openParen
  | closeParen
  | circleConstant
  | percent
deriving DecidableEq, Repr

inductive Key where
  | entry (entry : Entry)
  | allClear
  | backspace
  | equals
deriving DecidableEq, Repr

namespace Entry

/-- The text that an operator's key appends. -/
def operatorText : Operator → String
  | .add => "+"
  | .subtract => "−"
  | .multiply => "×"
  | .divide => "÷"
  | .power => "^"

/-- The label of a function's key, which also starts the text that the key appends. -/
def functionText : NamedFunction → String
  | .squareRoot => "√"
  | function => function.name

/-- The text that a key appends. A function's key opens the group of its argument too, and the
percent key appends a product by a hundredth. -/
def text : Entry → String
  | digit value => toString value.val
  | point => "."
  | binary operator => operatorText operator
  | apply function => functionText function ++ "("
  | openParen => "("
  | closeParen => ")"
  | circleConstant => "π"
  | percent => "*0.01"

/-- The label of a key that appends a text. -/
def label : Entry → String
  | binary .power => "xʸ"
  | apply function => functionText function
  | percent => "%"
  | entry => entry.text

end Entry

namespace Key

def label : Key → String
  | entry pressed => pressed.label
  | allClear => "AC"
  | backspace => "⌫"
  | equals => "="

/-- The colors that keys have of their own. -/
inductive Color where
  | function
  | operator
  | clear
  | equals
deriving DecidableEq, Repr

def Color.code : Color → String
  | function => "#2b2f36"
  | operator => "#3a3f47"
  | clear => "#7a2e2e"
  | equals => "#1f6aa5"

/-- The color of each key. Digits and the point have none of their own; the power key has the
color of the functions. -/
def color? : Key → Option Color
  | entry (.digit _) => none
  | entry .point => none
  | entry (.binary .power) => some .function
  | entry (.binary _) => some .operator
  | allClear => some .clear
  | equals => some .equals
  | _ => some .function

end Key

/-- A key with its place on the keypad, counted from the top left, and its width in columns. -/
structure Button where
  key : Key
  row : Nat
  column : Nat
  span : Nat
deriving DecidableEq, Repr

namespace Keypad

/-- The keys of each row with their widths in columns, from the left end. -/
def rows : List (List (Key × Nat)) :=
  [[(.entry (.apply .sine), 1), (.entry (.apply .cosine), 1), (.entry (.apply .tangent), 1),
      (.entry (.apply .commonLogarithm), 1), (.entry (.apply .naturalLogarithm), 1)],
    [(.entry .openParen, 1), (.entry .closeParen, 1), (.entry (.apply .squareRoot), 1),
      (.entry (.binary .power), 1), (.entry .circleConstant, 1)],
    [(.entry (.digit 7), 1), (.entry (.digit 8), 1), (.entry (.digit 9), 1),
      (.entry (.binary .divide), 1), (.allClear, 1)],
    [(.entry (.digit 4), 1), (.entry (.digit 5), 1), (.entry (.digit 6), 1),
      (.entry (.binary .multiply), 1), (.backspace, 1)],
    [(.entry (.digit 1), 1), (.entry (.digit 2), 1), (.entry (.digit 3), 1),
      (.entry (.binary .subtract), 1), (.entry .percent, 1)],
    [(.entry (.digit 0), 2), (.entry .point, 1), (.entry (.binary .add), 1), (.equals, 1)]]

/-- The buttons of a row from a column on. -/
def rowButtons (row column : Nat) : List (Key × Nat) → List Button
  | [] => []
  | (key, span) :: rest => ⟨key, row, column, span⟩ :: rowButtons row (column + span) rest

/-- The buttons of the keypad, row by row. -/
def buttons : List Button :=
  rows.zipIdx.flatMap fun (keys, row) => rowButtons row 0 keys

/-- The keys of the keypad, row by row. -/
def keys : List Key := buttons.map Button.key

def keyLabelled? (label : String) : Option Key :=
  keys.find? (·.label == label)

theorem mem_keys (key : Key) : key ∈ keys := by
  cases key with
  | entry entry =>
      cases entry with
      | digit value => revert value; decide
      | binary operator => cases operator <;> decide
      | apply function => cases function <;> decide
      | point | openParen | closeParen | circleConstant | percent => decide
  | allClear | backspace | equals => decide

end Keypad

end PocketCalc
