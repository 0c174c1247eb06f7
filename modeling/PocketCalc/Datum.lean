import PocketCalc.Failure
import PocketCalc.Number.Exponential

/-!
Contract: the data that may be handed to the calculator in place of an expression's text.

Owns:
- the datum type: texts, the other scalars, lists, and records with their fields in order;
- the bounds within which a datum has a written form: how many digits an integer has, and how many
  levels of data lie within a list or record;
- the name of a datum's type, its written form, and which data count as empty;
- the text of a datum, which only a text has.

Does not own: what is done with a datum; see `Evaluation`. Integers with more digits and data with
more levels have no written form, and are no data here.

The bounds are part of the type. An integer comes with the proof that it is short enough, and the
items of a list are of the type that has one level less, so a datum is written by recursion on the
levels.
-/

namespace PocketCalc

namespace Datum

/-- The most digits with which an integer is written. -/
def integerWidth : Nat := 4300

/-- The most levels of data within a datum. The work of writing a datum goes one call deeper for
each level, and what is left of a thousand calls is for the program around. -/
def depth : Nat := 900

/-- A datum whose items, if it has any, are of a given type. -/
inductive Layer (Item : Type) where
  | text (content : String)
  | nothing
  | boolean (truth : Bool)
  | integer (number : Int) (short : (Number.digits number.natAbs).length ≤ integerWidth)
  | real (number : Float)
  | list (items : List Item)
  | record (fields : List (String × Item))

/-- The data with at most the given number of levels, of which the datum itself is one. -/
def Nested : Nat → Type
  | 0 => Empty
  | levels + 1 => Layer (Nested levels)

end Datum

/-- A datum within the bounds of written data. -/
abbrev Datum : Type := Datum.Layer (Datum.Nested Datum.depth)

namespace Datum

namespace Layer

variable {Item : Type}

def typeName : Layer Item → String
  | text _ => "str"
  | nothing => "NoneType"
  | boolean _ => "bool"
  | integer _ _ => "int"
  | real _ => "float"
  | list _ => "list"
  | record _ => "dict"

/-- Whether a datum counts as no expression at all: the empty text, list and record, nothing,
falsehood, and both zeros. -/
def isEmpty : Layer Item → Bool
  | text content => content == ""
  | nothing => true
  | boolean truth => !truth
  | integer number _ => number == 0
  | real number => Number.magnitudeWord number == 0
  | list items => items.isEmpty
  | record fields => fields.isEmpty

/-- The text of a datum; the other data have none. -/
def asText : Layer Item → Except Fault String
  | text content => .ok content
  | datum => .error (.notText datum.typeName)

/-- The written form of a datum, from the written forms of its items. -/
def written (writtenItem : Item → String) : Layer Item → String
  | text content => Text.quote content
  | nothing => "None"
  | boolean truth => if truth then "True" else "False"
  | integer number _ => toString number
  | real number => Number.generalText number
  | list items => "[" ++ String.intercalate ", " (items.map writtenItem) ++ "]"
  | record fields =>
      let writtenField (field : String × Item) : String :=
        Text.quote field.1 ++ ": " ++ writtenItem field.2
      "\x7b" ++ String.intercalate ", " (fields.map writtenField) ++ "\x7d"

end Layer

/-- The written form of data with at most the given number of levels. -/
def Nested.written : (levels : Nat) → Nested levels → String
  | _ + 1, datum => Layer.written (Nested.written _) datum

def written (datum : Datum) : String := Layer.written (Nested.written depth) datum

end Datum

end PocketCalc
