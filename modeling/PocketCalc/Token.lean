import PocketCalc.Operator
import PocketCalc.NamedFunction

/-!
Contract: the tokens of an expression.

Owns:
- the five kinds of token and their names;
- the token type, whose kind alone decides how the later stages treat it.

Does not own: the classification of lexemes; see `Token/Lexical`.

A token may carry any text, also one that no expression produces. The stages look at the kind
first, and at the text only where an operator or a function is needed.
-/

namespace PocketCalc

/-- The part that a token plays in an expression. -/
inductive Token.Kind where
  | number
  | operator
  | function
  | leftParen
  | rightParen
deriving DecidableEq, Repr

def Token.Kind.name : Token.Kind → String
  | number => "number"
  | operator => "operator"
  | function => "function"
  | leftParen => "left_paren"
  | rightParen => "right_paren"

/-- A token: its kind, its text and, for a number, its value. -/
structure Token where
  kind : Token.Kind
  text : String
  value : Option Float
deriving DecidableEq

namespace Token

def ofNumber (text : String) (value : Float) : Token := ⟨.number, text, some value⟩

def ofOperator (operator : Operator) : Token := ⟨.operator, operator.symbol, none⟩

def ofFunction (function : NamedFunction) : Token := ⟨.function, function.name, none⟩

def opening : Token := ⟨.leftParen, "(", none⟩

def closing : Token := ⟨.rightParen, ")", none⟩

end Token

end PocketCalc
