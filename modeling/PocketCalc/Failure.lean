import PocketCalc.Token
import PocketCalc.Text.Quoted

/-!
Contract: why an expression has no value.

Owns:
- the causes for which a stage refuses its input, and the wording of each;
- the faults, which no text can cause, and their wording.

Does not own: when a cause arises; each stage states that for its own.
-/

namespace PocketCalc

/-- A misuse of a stage that no text of an expression leads to. -/
inductive Fault where
  /-- An empty lexeme is classified. -/
  | emptyLexeme
  /-- A function or an operator that does not exist is applied. -/
  | unknownName (name : String)
  /-- A datum of the named type stands where a text is needed. -/
  | notText (typeName : String)
deriving DecidableEq, Repr

def Fault.message : Fault → String
  | emptyLexeme => "string index out of range"
  | unknownName name => Text.quote name
  | notText typeName => "'" ++ typeName ++ "' object has no attribute 'replace'"

/-- The cause for which a stage refuses its input. -/
inductive Failure where
  /-- A lexeme is neither number, function, parenthesis nor operator. -/
  | unknownSymbol (lexeme : String)
  /-- A precedence is asked of a token that is no known operator. -/
  | noPrecedence (text : String)
  /-- A closing parenthesis has no opening one before it. -/
  | unmatchedClosing
  /-- An opening parenthesis has no closing one after it. -/
  | unmatchedOpening
  /-- A function has no operand. -/
  | missingOperand (function : String)
  /-- An operator has fewer than two operands. -/
  | missingOperands (operator : String)
  /-- A parenthesis stands in a sequence that needs none. -/
  | misplaced (kind : Token.Kind)
  /-- The operations leave a number of values other than one. -/
  | valuesLeft (count : Nat)
  /-- A stage was misused. -/
  | internal (fault : Fault)
deriving DecidableEq, Repr

def Failure.reason : Failure → String
  | unknownSymbol lexeme => "unknown symbol " ++ Text.quote lexeme
  | noPrecedence text => "no precedence for " ++ Text.quote text
  | unmatchedClosing => "unmatched ')'"
  | unmatchedOpening => "unmatched '('"
  | missingOperand function => "missing operand for " ++ function
  | missingOperands operator => "missing operands for " ++ operator
  | misplaced kind => "unexpected " ++ kind.name ++ " in postfix"
  | valuesLeft count => toString count ++ " values left after evaluation, expected 1"
  | internal fault => "internal error: " ++ fault.message

end PocketCalc
