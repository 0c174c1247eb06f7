/-!
Contract: the records that an operation leaves in the log.

Owns:
- the sources and levels that occur, with their names;
- the record type.

Does not own: which records an operation writes; see `Evaluation` and `Calculator`.
-/

namespace PocketCalc.Log

/-- The part of the program that writes a record. -/
inductive Source where
  | engine
  | calculator
deriving DecidableEq, Repr

def Source.name : Source → String
  | engine => "calc_engine"
  | calculator => "ScientificCalculator"

inductive Level where
  | debug
  | error
deriving DecidableEq, Repr

def Level.name : Level → String
  | debug => "DEBUG"
  | error => "ERROR"

structure Record where
  source : Source
  level : Level
  message : String
deriving DecidableEq, Repr

end PocketCalc.Log
