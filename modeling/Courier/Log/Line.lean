import Courier.Json.Basic
import Courier.Log

/-!
# Lines of the log

An entry is written as one line, as a JSON object or for people to read.

## Main definitions

* `Log.Entry.toJson`, `Log.Entry.jsonLine`, `Log.Entry.plainLine`: the line of an entry.
-/

namespace Courier.Log

/-- The JSON value of a value in an entry. -/
def Value.toJson : Value → Json
  | text s => .string s
  | number n => .int n
  | flag b => .bool b

/-- The text of a value in an entry. -/
def Value.plain : Value → String
  | text s => s
  | number n => toString n
  | flag b => if b then "true" else "false"

namespace Entry

/-- The JSON members of an entry. -/
def toJson (e : Entry) : List (String × Json) :=
  [("level", .string e.level.word),
    ("fields", .object (("message", .string e.message) ::
      e.fields.map fun (name, v) => (name, v.toJson))),
    ("target", .string e.target)]

/-- An entry as a line of JSON, with the text of its instant. -/
def jsonLine (instant : String) (e : Entry) : String :=
  (Json.object (("timestamp", .string instant) :: e.toJson)).text

/-- An entry as a line for people, with the text of its instant. -/
def plainLine (instant : String) (e : Entry) : String :=
  let level := e.level.word
  let space := if level.length < 5 then "  " else " "
  let fields := String.join (e.fields.map fun (name, v) =>
    let value := v.plain
    s!" {name}={value}")
  s!"{instant}{space}{level} {e.target}: {e.message}{fields}"

end Entry

end Courier.Log
