import PocketCalc.DisplaySymbol
import PocketCalc.Text.Blank

/-!
Contract: splitting an expression into lexemes.

Owns:
- the shapes of lexemes: digits, digits with a point, letters, and single characters;
- the scan, which extends the open lexeme as long as its shape allows.

Does not own: what a lexeme means; see `Token`.

Letters and digits are those of ASCII, in either case; blanks are the six of ASCII. Every other
character is a lexeme of its own.
-/

namespace PocketCalc.Lexeme

open PocketCalc.Text

/-- What is known of a lexeme from the characters read so far. -/
inductive Shape where
  | digits
  | digitsWithPoint
  | letters
  | single
deriving DecidableEq, Repr

namespace Shape

/-- The shape after one more character, if the lexeme goes on with it. -/
def extend? (shape : Shape) (c : Char) : Option Shape :=
  match shape with
  | digits =>
      if c.isDigit then some digits else if c = '.' then some digitsWithPoint else none
  | digitsWithPoint => if c.isDigit then some digitsWithPoint else none
  | letters => if c.isAlpha then some letters else none
  | single => none

/-- The shape of a lexeme that starts with a character; blanks start none. -/
def start? (c : Char) : Option Shape :=
  if isAsciiBlank c then none
  else if c.isDigit then some digits
  else if c.isAlpha then some letters
  else some single

end Shape

/-- The rest of the lexeme that is open at the left end of a text, and the lexemes after it. With
no open lexeme the first part is empty. -/
def scan (opened : Option Shape) : List Char → List Char × List (List Char)
  | [] => ([], [])
  | c :: rest =>
      match opened.bind (·.extend? c) with
      | some shape =>
          let (remainder, further) := scan (some shape) rest
          (c :: remainder, further)
      | none =>
          match Shape.start? c with
          | some shape =>
              let (remainder, further) := scan (some shape) rest
              ([], (c :: remainder) :: further)
          | none => ([], (scan none rest).2)

/-- The lexemes of a text whose symbols are expanded. -/
def splitChars (text : List Char) : List (List Char) := (scan none text).2

def split (expression : String) : List String :=
  (splitChars (DisplaySymbol.expand expression.toList)).map String.ofList

end PocketCalc.Lexeme
