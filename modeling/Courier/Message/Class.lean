import Courier.Header

/-!
# Message types

A type of messages that can travel through a queue has a name on the wire, a JSON form that can be
read back, and perhaps a business key that keeps related messages in order.

## Main definitions

* `Message`: the class of these types.
* `defaultTypeName`: the name that a type has on the wire when it does not choose one.
-/

namespace Courier

/-- A type of messages. -/
class Message (M : Type) where
  /-- The name of the type on the wire. -/
  typeName : String
  /-- The JSON form, or the reason why a value has none. -/
  toJson : M → Except String Json
  /-- Reads the JSON form. -/
  decoder : Json.Decoder M
  /-- The business key of a message, if it has one. -/
  groupKey : M → Option String := fun _ => none

/-- The part of a name behind the last `::`. -/
def lastSegment : List Char → List Char → List Char
  | acc, [] => acc.reverse
  | _, ':' :: ':' :: cs => lastSegment [] cs
  | acc, c :: cs => lastSegment (c :: acc) cs

/-- The last segment of a qualified type name, without the arguments of the type. -/
def defaultTypeName (qualified : String) : String :=
  String.ofList (lastSegment [] (qualified.toList.takeWhile (· ≠ '<')))

end Courier
