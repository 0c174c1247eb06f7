import PocketCalc.Failure
import PocketCalc.Lexeme
import PocketCalc.Number.Numeral

/-!
Contract: the tokens that lexemes and expressions stand for.

Owns:
- the classification of one lexeme;
- the tokens of an expression, or its first lexeme that has no token.

Does not own: the lexemes of an expression; see `Lexeme`.
-/

namespace PocketCalc.Token

/-- The value of a lexeme that is a number. A number starts with an ASCII digit; what follows may
be anything that the grammar of numerals admits. -/
def numberValue? (lexeme : String) : Option Float :=
  if lexeme.toList.head?.any Char.isDigit then Number.read? lexeme else none

def ofLexeme (lexeme : String) : Except Failure Token :=
  if lexeme = "" then .error (.internal .emptyLexeme)
  else match numberValue? lexeme with
  | some value => .ok (ofNumber lexeme value)
  | none =>
      match NamedFunction.ofName? lexeme with
      | some function => .ok (ofFunction function)
      | none =>
          if lexeme = "(" then .ok opening
          else if lexeme = ")" then .ok closing
          else match Operator.ofSymbol? lexeme with
          | some operator => .ok (ofOperator operator)
          | none => .error (.unknownSymbol lexeme)

/-- The tokens of an expression, in their written order. -/
def ofText (expression : String) : Except Failure (List Token) :=
  (Lexeme.split expression).mapM ofLexeme

/-- The precedence level of a token that is a known operator. -/
def precedence (token : Token) : Except Failure Nat :=
  match token.kind, Operator.ofSymbol? token.text with
  | .operator, some operator => .ok operator.precedence
  | _, _ => .error (.noPrecedence token.text)

end PocketCalc.Token
