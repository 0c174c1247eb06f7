import PocketCalc.Text.Printable

/-!
Contract: the quoted form in which reasons and log messages show a text.

Owns:
- the choice of the quote mark;
- the written form of each character: as it is, as a short escape, or as its code point in
  hexadecimal.

Does not own: which characters are printable; see `Text/Printable`.
-/

namespace PocketCalc.Text

/-- The mark ' that usually surrounds a quoted text. -/
def singleQuote : Char := '\x27'

/-- The mark " that surrounds a quoted text which holds ' but no ". -/
def doubleQuote : Char := '\x22'

/-- The character that starts every escape. -/
def backslash : Char := '\x5c'

/-- The mark for a text: the single one, unless that one occurs in the text and the double one
does not. -/
def quoteMark (text : List Char) : Char :=
  if text.contains singleQuote && !text.contains doubleQuote then doubleQuote else singleQuote

/-- The last `width` hexadecimal digits of a number, lower case. -/
def hexDigits : Nat → Nat → List Char
  | 0, _ => []
  | width + 1, number => hexDigits width (number / 16) ++ [Nat.digitChar (number % 16)]

/-- A code point in hexadecimal: two digits after x, four after u, or eight after U, whichever
is the first that holds it. -/
def hexEscape (code : Nat) : List Char :=
  if code < 0x100 then backslash :: 'x' :: hexDigits 2 code
  else if code < 0x10000 then backslash :: 'u' :: hexDigits 4 code
  else backslash :: 'U' :: hexDigits 8 code

/-- The written form of one character between two marks `mark`. -/
def escape (mark c : Char) : List Char :=
  if c = backslash ∨ c = mark then [backslash, c]
  else if c = '\n' then [backslash, 'n']
  else if c = '\r' then [backslash, 'r']
  else if c = '\t' then [backslash, 't']
  else if isPrintable c then [c]
  else hexEscape c.toNat

/-- A text between its marks, every character in its written form. -/
def quoteChars (text : List Char) : List Char :=
  let mark := quoteMark text
  mark :: text.flatMap (escape mark) ++ [mark]

def quote (text : String) : String :=
  String.ofList (quoteChars text.toList)

end PocketCalc.Text
