import Courier.Dictionary
import Courier.Message.QueueName

/-!
# Messages

A message has a body and typed attributes. It is sent as an `Outbound` message and received as a
`Received` one, which carries the identifier of the message and the receipt of this delivery.

## Main definitions

* `MessageId`, `Receipt`: the identifiers that a backend assigns.
* `Attribute`: a typed attribute.
* `Outbound`, `Outbound.size`: a message to be sent, and its size as backends count it.
* `Received`, `ReceiveOptions`: a delivery, and what a receive call asks for.
-/

namespace Courier

/-- The identifier of a message, the same for all of its deliveries. -/
structure MessageId where
  text : String
  nonempty : text ≠ ""
  deriving DecidableEq

/-- The identifier with the given text. -/
def MessageId.ofText (s : String) : Except FieldError MessageId :=
  if h : s = "" then .error (.required "message_id") else .ok ⟨s, h⟩

/-- The receipt of one delivery. -/
structure Receipt where
  text : String
  deriving DecidableEq, Repr

/-- A typed attribute of a message. -/
inductive Attribute where
  | string (s : String)
  | number (s : String)
  | binary (b : Bytes)
  deriving DecidableEq, Repr

namespace Attribute

/-- The name of the attribute's type. -/
def dataType : Attribute → String
  | string _ => "String"
  | number _ => "Number"
  | binary _ => "Binary"

/-- The text of a string attribute. -/
def string? : Attribute → Option String
  | string s => some s
  | _ => none

/-- The bytes of a binary attribute. -/
def binary? : Attribute → Option Bytes
  | binary b => some b
  | _ => none

/-- The size of value and type name, in bytes. -/
def size (a : Attribute) : Nat :=
  match a with
  | string s | number s => s.utf8ByteSize + a.dataType.utf8ByteSize
  | binary b => b.length + a.dataType.utf8ByteSize

end Attribute

/-- The largest size of a message. -/
def sizeLimit : Nat := 262144

/-- A message to be sent. Queues that keep their messages in order use its group and its
deduplication identifier. -/
structure Outbound where
  body : String
  attributes : Dictionary Attribute := ∅
  group : Option String := none
  deduplication : Option String := none
  deriving DecidableEq

/-- The size of a message: its body, and for each attribute name, value and type name, in
bytes. -/
def Outbound.size (m : Outbound) : Nat :=
  m.attributes.entries.foldr (fun e n => e.1.utf8ByteSize + e.2.size + n) m.body.utf8ByteSize

/-- A delivery of a message. Deliveries of one message are counted from one, in thirty-two bits. -/
structure Received where
  id : MessageId
  receipt : Receipt
  body : String
  attributes : Dictionary Attribute
  receiveCount : UInt32
  deriving DecidableEq

/-- What a receive call asks for. Times are in milliseconds. -/
structure ReceiveOptions where
  maxMessages : Nat := 10
  visibilityTimeout : Nat := 30000
  waitTime : Nat := 20000
  deriving DecidableEq, Repr

end Courier
