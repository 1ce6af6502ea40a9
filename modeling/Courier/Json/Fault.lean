import Courier.Json.Basic
import Courier.Text.Quoted

/-!
# Faults of JSON texts

Reading a text as a value of a type fails in one of two ways. The text is not JSON, or it ends
too early; or it is JSON so far, but not what the type asks for, and then the fault says what was
found.

## Main definitions

* `Json.Found`: a description of what stood where something else was expected.
* `Json.Fault`: why reading failed, and `Json.Fault.message`, its sentence.
-/

namespace Courier.Json

/-- What stood where something else was expected. -/
inductive Found where
  | null
  | bool (b : Bool)
  | number (n : Number)
  | string (s : String)
  | sequence
  | map
  deriving DecidableEq

/-- The words for what was found. -/
def Found.describe : Found → String
  | null => "null"
  | bool b => s!"boolean `{b}`"
  | number (.whole n) => s!"integer `{n}`"
  | number (.float x) => "floating point `" ++ String.ofList (floatLayout.write x) ++ "`"
  | string s => "string " ++ Text.quoted s
  | sequence => "sequence"
  | map => "map"

/-- Why a text could not be read as a value of a type. -/
inductive Fault where
  /-- The text ends before the value does. -/
  | ended
  /-- The text is not JSON, or nests too deeply, or continues behind the value. -/
  | malformed
  /-- A value of another kind. -/
  | wrongType (found : Found) (expected : String)
  /-- A value of the right kind that the type does not contain. -/
  | wrongValue (found : Found) (expected : String)
  /-- An array with too few items. -/
  | wrongLength (length : Nat) (expected : String)
  | missingField (field : String)
  | duplicateField (field : String)
  | unknownVariant (variant : String) (expected : List String)
  /-- A rule of the type refuses the value. -/
  | refused (reason : String)
  deriving DecidableEq

/-- The alternatives of a type, as words. -/
def alternatives : List String → String
  | [] => "there are no variants"
  | [a] => s!"expected `{a}`"
  | [a, b] => s!"expected `{a}` or `{b}`"
  | names => "expected one of " ++ ", ".intercalate (names.map fun n => s!"`{n}`")

/-- The sentence shown for a fault. The two faults of the text itself have fixed marks. -/
def Fault.message : Fault → String
  | ended => "<eof>"
  | malformed => "<syntax>"
  | wrongType found expected => s!"invalid type: {found.describe}, expected {expected}"
  | wrongValue found expected => s!"invalid value: {found.describe}, expected {expected}"
  | wrongLength length expected => s!"invalid length {length}, expected {expected}"
  | missingField field => s!"missing field `{field}`"
  | duplicateField field => s!"duplicate field `{field}`"
  | unknownVariant variant expected => s!"unknown variant `{variant}`, {alternatives expected}"
  | refused reason => reason

end Courier.Json
