/-!
# The log

What the program tells its operators: entries with a level, the part of the program that speaks, a
sentence, and named values. An entry that belongs to the handling of one message carries the span
of that work.

## Main definitions

* `Log.Level`, `Log.Value`, `Log.Entry`, `Log.Span`: entries of the log.
-/

namespace Courier.Log

/-- How much an entry matters. -/
inductive Level where
  | error
  | warn
  | info
  deriving DecidableEq, Repr

/-- The word for a level. -/
def Level.word : Level → String
  | error => "ERROR"
  | warn => "WARN"
  | info => "INFO"

/-- A value in an entry. -/
inductive Value where
  | text (s : String)
  | number (n : Int)
  | flag (b : Bool)
  deriving DecidableEq, Repr

/-- An entry of the log. -/
structure Entry where
  level : Level
  /-- The part of the program that speaks. -/
  target : String
  message : String
  fields : List (String × Value) := []
  deriving DecidableEq, Repr

/-- The work that entries belong to. -/
structure Span where
  name : String
  fields : List (String × Value)
  deriving DecidableEq, Repr

end Courier.Log
