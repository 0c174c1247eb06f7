import PocketCalc.Number.Binary
import PocketCalc.PostOrder

/-!
Contract: the value of tokens in which every operation follows its operands.

Owns:
- the effect of one token on the stack of values;
- the value that a whole sequence leaves.

Does not own: how such a sequence arises; see `PostOrder`.
-/

namespace PocketCalc.PostOrder

/-- The stack of values, the latest first, after one more token. A number without a value counts
as no number. The earlier of two operands stands on the left of its operator. -/
def push (values : List Float) (token : Token) : Except Failure (List Float) :=
  match token.kind with
  | .number => .ok (token.value.getD Number.notANumber :: values)
  | .function =>
      match values with
      | argument :: rest =>
          match NamedFunction.ofName? token.text with
          | some function => .ok (function.apply argument :: rest)
          | none => .error (.internal (.unknownName token.text))
      | [] => .error (.missingOperand token.text)
  | .operator =>
      match values with
      | right :: left :: rest =>
          match Operator.ofSymbol? token.text with
          | some operator => .ok (operator.apply left right :: rest)
          | none => .error (.internal (.unknownName token.text))
      | _ => .error (.missingOperands token.text)
  | .leftParen => .error (.misplaced .leftParen)
  | .rightParen => .error (.misplaced .rightParen)

def single : List Float → Except Failure Float
  | [value] => .ok value
  | values => .error (.valuesLeft values.length)

def value (tokens : List Token) : Except Failure Float := do
  let values ← tokens.foldlM push []
  single values

end PocketCalc.PostOrder
