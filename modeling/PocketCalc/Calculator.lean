import PocketCalc.Display
import PocketCalc.Evaluation
import PocketCalc.Key

/-!
Contract: the state of the calculator and the effect of its operations.

Owns:
- the expression and the text on the display;
- the operations of the keys, and runs of operations with the records of each.

Does not own: values and their texts; see `Evaluation`, `Number/Positional` and `Display`.

The display is a text of its own and not a view of the expression: two of its texts, the idle 0
and the error text, decide how the next key is taken.
-/

namespace PocketCalc

/-- The expression entered so far, and the text on the display. -/
structure Calculator where
  expression : String
  display : String
deriving DecidableEq, Repr

namespace Calculator

/-- The display of a calculator on which nothing is entered. -/
def idleText : String := "0"

/-- The display after a failed calculation. -/
def errorText : String := "Error"

def new : Calculator := ⟨"", idleText⟩

/-- Replaces the text on the display and nothing else. -/
def setDisplay (text : String) (calculator : Calculator) : Calculator :=
  { calculator with display := text }

/-- The expression after a text is appended. An error and an idle zero are replaced, the latter
not by a point; a point on its own starts with a zero. -/
def extended (text : String) (calculator : Calculator) : String :=
  if calculator.display = errorText ∨ (calculator.display = idleText ∧ text ≠ ".") then text
  else if calculator.expression = "" ∧ text = "." then "0."
  else calculator.expression ++ text

/-- Appends a text to the expression, and shows the expression. -/
def append (text : String) (calculator : Calculator) : Calculator :=
  ⟨calculator.extended text, calculator.extended text⟩

def clearAll (_ : Calculator) : Calculator := ⟨"", idleText⟩

/-- Removes the last character of the expression, and shows what is left. -/
def backspace (calculator : Calculator) : Calculator :=
  let shorter := String.ofList calculator.expression.toList.dropLast
  ⟨shorter, if shorter = "" then idleText else shorter⟩

/-- Replaces the expression by the text of its value, with the records written. -/
def calculate (calculator : Calculator) : Calculator × List Log.Record :=
  let evaluation := Evaluation.run (.text calculator.expression)
  match evaluation.result with
  | .ok value =>
      let result := Number.positionalText value
      (⟨result, Display.ofText result⟩,
        evaluation.log ++
          [⟨.calculator, .debug, Text.quote calculator.expression ++ " = " ++ result⟩])
  | .error _ => (⟨"", errorText⟩, evaluation.log)

def press (key : Key) (calculator : Calculator) : Calculator × List Log.Record :=
  match key with
  | .entry entry => (calculator.append entry.text, [])
  | .allClear => (calculator.clearAll, [])
  | .backspace => (calculator.backspace, [])
  | .equals => calculator.calculate

inductive Operation where
  | press (key : Key)
  | append (text : String)
  | setDisplay (text : String)
  | clearAll
  | backspace
  | calculate
deriving DecidableEq, Repr

/-- The effect of an operation, with the records written. -/
def perform (operation : Operation) (calculator : Calculator) : Calculator × List Log.Record :=
  match operation with
  | .press key => calculator.press key
  | .append text => (calculator.append text, [])
  | .setDisplay text => (calculator.setDisplay text, [])
  | .clearAll => (calculator.clearAll, [])
  | .backspace => (calculator.backspace, [])
  | .calculate => calculator.calculate

/-- The states after each operation of a run, with the records of each. -/
def trace (calculator : Calculator) : List Operation → List (Calculator × List Log.Record)
  | [] => []
  | operation :: rest =>
      let outcome := calculator.perform operation
      outcome :: outcome.1.trace rest

def pressAll (keys : List Key) (calculator : Calculator) : Calculator :=
  keys.foldl (fun state key => (state.press key).1) calculator

end Calculator

end PocketCalc
