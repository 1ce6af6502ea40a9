import Courier.Base64
import Courier.Decimal.Reading
import Courier.Error
import Courier.Json.Basic
import Courier.Log
import Courier.Message.Basic

/-!
# Messages of the service

The queue service has its own form of attributes and of received messages. An attribute carries
the name of its type, a text and bytes, each of which may be there or not. A name of a type may
have an ending of its own, such as that of `Binary.gzip`, and stands for the type before it. A
received message may lack any of its parts.

Attributes that go out and come back are the same; a received message without an identifier or
without a receipt is left on the queue, and the other messages of its batch are not touched by
that.

## Main definitions

* `Sqs.WireAttribute`, `Sqs.WireAttribute.ofAttribute`, `Sqs.WireAttribute.attribute?` :
  attributes, and how they come from those of a message and go back.
* `Sqs.Message`, `Sqs.Message.received`: a received message, and the delivery that it is.
* `Sqs.collect`: the deliveries of a batch.
-/

namespace Courier.Sqs

/-- The name of the service in errors. -/
def serviceName : String :=
  "AwsSqs"

/-- An answer of the service lacks a field. -/
def lacks (operation field : String) : QueueError :=
  .provider serviceName "MissingField" s!"{operation} response has no {field}"

/-- An attribute as the service has it. -/
structure WireAttribute where
  dataType : String
  text : Option String := none
  bytes : Option Bytes := none
  deriving DecidableEq

namespace WireAttribute

/-- The form of an attribute for the service. -/
def ofAttribute (a : Attribute) : WireAttribute :=
  match a with
  | .string s | .number s => { dataType := a.dataType, text := some s }
  | .binary b => { dataType := a.dataType, bytes := some b }

/-- Whether the type of an attribute has a name that begins with `base`. -/
def hasType (base : String) (v : WireAttribute) : Bool :=
  base.toList.isPrefixOf v.dataType.toList

/-- The attribute of a message that the service means, if it has a value of its type. All types
but those of bytes and of numbers are texts. -/
def attribute? (v : WireAttribute) : Option Attribute :=
  if v.hasType "Binary" then v.bytes.map .binary
  else if v.hasType "Number" then v.text.map .number
  else v.text.map .string

/-- The JSON value of an attribute. -/
def toJson (v : WireAttribute) : Json :=
  .object <| [("DataType", .string v.dataType)] ++
    (v.text.map fun s => ("StringValue", Json.string s)).toList ++
    (v.bytes.map fun b => ("BinaryValue", Json.string (Base64.text b))).toList

end WireAttribute

/-- A received message as the service has it. -/
structure Message where
  id : Option String := none
  receipt : Option String := none
  body : Option String := none
  attributes : Dictionary WireAttribute := ∅
  /-- What the service itself says about the message. -/
  system : Dictionary String := ∅
  deriving DecidableEq

/-- The name under which the service gives the number of a delivery. -/
def receiveCountName : String :=
  "ApproximateReceiveCount"

namespace Message

/-- The attributes that have a value of their type. -/
def kept (m : Message) : Dictionary Attribute :=
  .ofList (m.attributes.entries.filterMap fun (name, v) => v.attribute?.map (name, ·))

/-- The number of the delivery, one if the service gives none that is below 2³². -/
def receiveCount (m : Message) : UInt32 :=
  (((m.system.find? receiveCountName).bind (Decimal.natural? UInt32.size)).getD 1).toUInt32

/-- The delivery that a received message is. -/
def received (m : Message) : Except QueueError Received :=
  match m.id, m.receipt with
  | none, _ => .error (lacks "ReceiveMessage" "MessageId")
  | some id, receipt =>
    match MessageId.ofText id, receipt with
    | .error e, _ => .error (.validation e)
    | .ok _, none => .error (lacks "ReceiveMessage" "ReceiptHandle")
    | .ok id, some receipt => .ok ⟨id, ⟨receipt⟩, m.body.getD "", m.kept, m.receiveCount⟩

end Message

/-- The deliveries of a batch, in its order. -/
def collect (batch : List Message) : List Received :=
  batch.filterMap fun m => m.received.toOption

/-- The part of the program that speaks in the log. -/
def logTarget : String :=
  "lifecycle_queue::providers::sqs"

/-- The entries about messages of a batch that are no deliveries. -/
def skippedEntries (batch : List Message) : List Log.Entry :=
  batch.filterMap fun m =>
    match m.received with
    | .ok _ => none
    | .error e =>
      some ⟨.warn, logTarget, "Skipping malformed message in batch",
        [("message_id", .text (m.id.getD "<none>")), ("error", .text e.message)]⟩

end Courier.Sqs
