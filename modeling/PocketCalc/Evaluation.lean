import PocketCalc.Datum
import PocketCalc.Log
import PocketCalc.PostOrder.Value

/-!
Contract: the entry points that turn an expression into its value.

Owns:
- the value of an expression's text, through all stages;
- the evaluation of a datum with the records that it leaves in the log;
- the entry points whose only error is `InvalidExpression`.

Does not own: the stages; see `Token/Lexical`, `PostOrder` and `PostOrder/Value`.
-/

namespace PocketCalc

/-- What an evaluation gives: a value or the cause of its failure, and the records written. -/
structure Evaluation where
  result : Except Failure Float
  log : List Log.Record

/-- The only error of the entry points: the expression does not reduce to a single number. -/
structure InvalidExpression where
deriving DecidableEq, Repr

def InvalidExpression.message (_ : InvalidExpression) : String := "Invalid Expression"

namespace Evaluation

/-- The value of an expression's text, through all stages. The empty text has none here. -/
def ofText (expression : String) : Except Failure Float := do
  let ordered ← PostOrder.ofText expression
  PostOrder.value ordered

def ofDatum (datum : Datum) : Except Failure Float :=
  match datum.asText with
  | .ok expression => ofText expression
  | .error fault => .error (.internal fault)

/-- The message that a failed evaluation leaves in the log. -/
def failureMessage (datum : Datum) : Failure → String
  | .internal _ => "Unexpected fault while evaluating " ++ datum.written
  | cause => "Evaluation error in " ++ datum.written ++ ": " ++ cause.reason

/-- The evaluation of a datum. An empty one counts as zero; a failure leaves one record. -/
def run (datum : Datum) : Evaluation :=
  if datum.isEmpty then ⟨.ok 0.0, []⟩
  else match ofDatum datum with
  | .ok value => ⟨.ok value, []⟩
  | .error cause => ⟨.error cause, [⟨.engine, .error, failureMessage datum cause⟩]⟩

end Evaluation

/-- The value of a datum, or the one error that all failures come to. -/
def evaluate (datum : Datum) : Except InvalidExpression Float :=
  match (Evaluation.run datum).result with
  | .ok value => .ok value
  | .error _ => .error ⟨⟩

/-- The texts of an expression's tokens, reordered so that every operation follows its operands. -/
def postOrderTexts (expression : String) : Except InvalidExpression (List String) :=
  match PostOrder.ofText expression with
  | .ok tokens => .ok (tokens.map Token.text)
  | .error _ => .error ⟨⟩

end PocketCalc
