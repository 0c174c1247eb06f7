import PocketCalc.Token.Lexical

/-!
Contract: reordering of infix tokens so that every operation follows its operands.

Owns:
- the yard, which holds the output so far and the tokens that wait for their operands;
- one step of the yard for each kind of token, and its end.

Does not own: the value of the reordered tokens; see `PostOrder/Value`.

Every operator groups to the left, also the power. A function waits until the group after it is
closed; without a group of its own it waits for the end of the group that it stands in.
-/

namespace PocketCalc

/-- The state of the reordering: the tokens already in order, and those that wait, the latest
first. -/
structure Yard where
  output : Array Token
  stack : List Token
deriving DecidableEq

namespace Yard

def empty : Yard := ⟨#[], []⟩

/-- The waiting operators that bind at least as tightly as a level, down to the first token that
is no operator or binds less, and the tokens below them. -/
def release (level : Nat) : List Token → Except Failure (List Token × List Token)
  | [] => .ok ([], [])
  | top :: below =>
      if top.kind = .operator then do
        let topLevel ← top.precedence
        if topLevel < level then
          .ok ([], top :: below)
        else
          let (released, kept) ← release level below
          .ok (top :: released, kept)
      else .ok ([], top :: below)

/-- An operator sends the operators that have to come before it to the output, and waits. -/
def takeOperator (yard : Yard) (token : Token) : Except Failure Yard := do
  let level ← token.precedence
  let (released, kept) ← release level yard.stack
  .ok ⟨yard.output ++ released, token :: kept⟩

/-- A function that waits right below a closed group follows the group. -/
def takeFunction (output : Array Token) : List Token → Yard
  | [] => ⟨output, []⟩
  | top :: below =>
      if top.kind = .function then ⟨output.push top, below⟩ else ⟨output, top :: below⟩

/-- The end of a group sends all that waits in the group to the output. -/
def closeGroup (yard : Yard) : Except Failure Yard :=
  match yard.stack.dropWhile (·.kind ≠ .leftParen) with
  | [] => .error .unmatchedClosing
  | _ :: below =>
      .ok (takeFunction (yard.output ++ yard.stack.takeWhile (·.kind ≠ .leftParen)) below)

def step (yard : Yard) (token : Token) : Except Failure Yard :=
  match token.kind with
  | .number => .ok { yard with output := yard.output.push token }
  | .function => .ok { yard with stack := token :: yard.stack }
  | .leftParen => .ok { yard with stack := token :: yard.stack }
  | .rightParen => yard.closeGroup
  | .operator => yard.takeOperator token

/-- The output after the last token: all that still waits follows, unless a group is open. -/
def finish (yard : Yard) : Except Failure (List Token) :=
  if yard.stack.any (·.kind = .leftParen) then .error .unmatchedOpening
  else .ok (yard.output ++ yard.stack).toList

end Yard

namespace PostOrder

/-- The tokens reordered so that every operation follows its operands. -/
def ofTokens (tokens : List Token) : Except Failure (List Token) := do
  let yard ← tokens.foldlM Yard.step Yard.empty
  yard.finish

def ofText (expression : String) : Except Failure (List Token) := do
  let tokens ← Token.ofText expression
  ofTokens tokens

end PostOrder

end PocketCalc
