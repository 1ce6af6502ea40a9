import Courier.Message.Class

/-!
# Envelopes

A message travels in its attributes; its body is a placeholder. The payload is a frame that names
the type of the message and holds its JSON form. The name of the type may also stand in an
attribute of its own, which is preferred when it is there, and headers in another.

## Main definitions

* `Envelope`: a delivery whose attributes have been read.
* `writeFrame`, `Envelope.message`: writing the payload of a message, and the message in one.
* `Outbound.ofMessage`: the message that carries a value.
* `Envelope.ofReceived`: the envelope of a delivery.
-/

namespace Courier

/-- The attribute with the payload. -/
def payloadKey : String := "body"

/-- The attribute with the name of the type. -/
def typeKey : String := "type"

/-- The body of every message. -/
def placeholder : String := "envelope"

/-- A delivery whose attributes have been read. -/
structure Envelope where
  id : MessageId
  receipt : Receipt
  typeName : String
  headers : Headers
  payload : Bytes
  receiveCount : UInt32
  deriving DecidableEq

/-- The payload of a message: its type's name and its JSON form. -/
def writeFrame {M : Type} [Message M] (m : M) : Except EnvelopeError Bytes :=
  match Message.toJson m with
  | .ok v => .ok (Json.object [("@type", .string (Message.typeName M)), ("value", v)]).encode
  | .error reason => .error (.encode (.refused reason))

/-- A frame of which only the name of the type is read. -/
def frameTag : Json.Record String where
  name := "FrameTag"
  fields := [.required "@type" .string fun name _ => name]
  initial := ""

/-- A frame of which only the value is read. -/
def frame (M : Type) [Message M] : Json.Record (Option M) where
  name := "Frame"
  fields := [.required "value" (Message.decoder (M := M)) fun m _ => some m]
  initial := none

/-- Reads the message in a frame. -/
def readFrame (M : Type) [Message M] (payload : Bytes) : Except Json.Fault M := do
  match ← (frame M).decoder.run payload with
  | some m => return m
  | none => throw (.missingField "value")

/-- The message in the payload of an envelope. -/
def Envelope.message (M : Type) [Message M] (e : Envelope) : Except EnvelopeError M :=
  (readFrame M e.payload).mapError (.invalidPayload e.typeName)

/-- The message that carries a value and headers. Without headers there is no attribute for
them. -/
def Outbound.ofMessage {M : Type} [Message M] (m : M) (headers : Headers) :
    Except EnvelopeError Outbound := do
  let payload ← writeFrame m
  let attributes : Dictionary Attribute :=
    ((∅ : Dictionary Attribute).insert payloadKey (.binary payload)).insert typeKey
      (.string (Message.typeName M))
  return {
    body := placeholder
    attributes :=
      if headers.isEmpty then attributes
      else attributes.insert headersKey headers.toAttribute }

/-- The payload of a delivery. -/
def payloadOf (attributes : Dictionary Attribute) : Except EnvelopeError Bytes :=
  match attributes.find? payloadKey with
  | none => .error (.missingPayload payloadKey)
  | some (.binary b) => .ok b
  | some a => .error (.unexpectedDataType payloadKey "Binary" a.dataType)

/-- The name of the type of a delivery: its own attribute, if that is a text and not empty, and
otherwise what the payload says. -/
def typeNameOf (attributes : Dictionary Attribute) (payload : Bytes) :
    Except EnvelopeError String :=
  match attributes.find? typeKey with
  | some (.string name) => if name ≠ "" then .ok name else fromPayload
  | _ => fromPayload
where
  fromPayload := (frameTag.decoder.run payload).mapError .missingTypeTag

/-- The envelope of a delivery. -/
def Envelope.ofReceived (m : Received) : Except EnvelopeError Envelope := do
  let payload ← payloadOf m.attributes
  let typeName ← typeNameOf m.attributes payload
  let headers ← Headers.ofAttribute (m.attributes.find? headersKey)
  return ⟨m.id, m.receipt, typeName, headers, payload, m.receiveCount⟩

end Courier
