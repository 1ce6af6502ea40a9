import Courier.Json.Fault

/-!
# Errors of queues, messages and handlers

Each kind of failure has its own type, whose constructors are the causes. The sentence of a cause
is chosen in one place, the `message` of its type.

## Main definitions

* `FieldError`: a name or an argument that breaks a rule.
* `EnvelopeError`: a message that cannot be read, or cannot be written.
* `QueueError`: a queue operation that failed; `QueueError.isTransient` tells whether a later
  attempt may succeed.
* `DispatchError`: a delivery that was not handled successfully.
-/

namespace Courier

/-- A name or an argument that breaks a rule. -/
inductive FieldError where
  | required (field : String)
  | invalidFormat (field : String) (reason : String)
  | outOfRange (field : String) (reason : String)
  deriving DecidableEq, Repr

/-- The name under which a field error is counted. -/
def FieldError.kind : FieldError → String
  | required _ => "Required"
  | invalidFormat _ _ => "InvalidFormat"
  | outOfRange _ _ => "OutOfRange"

/-- The sentence of a field error. -/
def FieldError.message : FieldError → String
  | required field => s!"Required field missing: {field}"
  | invalidFormat field reason => s!"Invalid format for {field}: {reason}"
  | outOfRange field reason => s!"Value out of range for {field}: {reason}"

/-- A message that cannot be read as an envelope or as a value of its type, or a value that cannot
be written. -/
inductive EnvelopeError where
  | missingPayload (name : String)
  | unexpectedDataType (name : String) (expected : String) (found : String)
  | missingTypeTag (source : Json.Fault)
  | invalidHeaders (source : Json.Fault)
  | invalidPayload (typeName : String) (source : Json.Fault)
  | encode (source : Json.Fault)
  deriving DecidableEq

/-- The name under which an envelope error is counted. -/
def EnvelopeError.kind : EnvelopeError → String
  | missingPayload _ => "MissingPayload"
  | unexpectedDataType _ _ _ => "UnexpectedDataType"
  | missingTypeTag _ => "MissingTypeTag"
  | invalidHeaders _ => "InvalidHeaders"
  | invalidPayload _ _ => "InvalidPayload"
  | encode _ => "Encode"

/-- The sentence of an envelope error. -/
def EnvelopeError.message : EnvelopeError → String
  | missingPayload name => s!"Message has no '{name}' payload attribute"
  | unexpectedDataType name expected found =>
    s!"Attribute '{name}' has data type {found}, expected {expected}"
  | missingTypeTag source => s!"Payload does not carry a type tag: {source.message}"
  | invalidHeaders source => s!"Headers could not be decoded: {source.message}"
  | invalidPayload typeName source =>
    s!"Payload for '{typeName}' could not be decoded: {source.message}"
  | encode source => s!"Payload could not be encoded: {source.message}"

/-- Settings that the queue or the pipeline cannot honour. -/
structure InvalidSettings where
  reason : String
  deriving DecidableEq, Repr

/-- The sentence of refused settings. -/
def InvalidSettings.message (e : InvalidSettings) : String :=
  s!"Invalid configuration: {e.reason}"

/-- A queue operation that failed. -/
inductive QueueError where
  | queueNotFound (queue : String)
  | messageNotFound (receipt : String)
  | connectionFailed (reason : String)
  | authenticationFailed (reason : String)
  | messageTooLarge (size : Nat) (limit : Nat)
  | provider (name : String) (code : String) (reason : String)
  | serialization (source : EnvelopeError)
  | configuration (source : InvalidSettings)
  | validation (source : FieldError)
  deriving DecidableEq

/-- The name under which a queue error is counted. -/
def QueueError.kind : QueueError → String
  | queueNotFound _ => "QueueNotFound"
  | messageNotFound _ => "MessageNotFound"
  | connectionFailed _ => "ConnectionFailed"
  | authenticationFailed _ => "AuthenticationFailed"
  | messageTooLarge _ _ => "MessageTooLarge"
  | provider _ _ _ => "ProviderError"
  | serialization _ => "SerializationError"
  | configuration _ => "ConfigurationError"
  | validation _ => "ValidationError"

/-- The sentence of a queue error. -/
def QueueError.message : QueueError → String
  | queueNotFound queue => s!"Queue not found: {queue}"
  | messageNotFound receipt => s!"Message not found or receipt expired: {receipt}"
  | connectionFailed reason => s!"Connection failed: {reason}"
  | authenticationFailed reason => s!"Authentication failed: {reason}"
  | messageTooLarge size limit => s!"Message too large: {size} bytes (max: {limit})"
  | provider name code reason => s!"Provider error ({name}): {code} - {reason}"
  | serialization source => s!"Serialization failed: {source.message}"
  | configuration source => s!"Configuration error: {source.message}"
  | validation source => s!"Validation error: {source.message}"

/-- Whether the same operation may succeed at another time. Connections come back, and so do most
troubles of a provider. -/
def QueueError.isTransient : QueueError → Bool
  | connectionFailed _ | provider _ _ _ => true
  | _ => false

/-- The sentence of the error that caused a queue error, if it has a cause. -/
def QueueError.cause? : QueueError → Option String
  | serialization source => some source.message
  | configuration source => some source.message
  | validation source => some source.message
  | _ => none

/-- A delivery that was not handled successfully. -/
inductive DispatchError where
  | unregisteredType (typeName : String)
  | decode (source : EnvelopeError)
  | handler (reason : String)
  | panicked (reason : String)
  deriving DecidableEq

/-- The name under which a dispatch error is counted. -/
def DispatchError.kind : DispatchError → String
  | unregisteredType _ => "UnregisteredType"
  | decode source => source.kind
  | handler _ => "Handler"
  | panicked _ => "Panicked"

/-- The sentence of a dispatch error. -/
def DispatchError.message : DispatchError → String
  | unregisteredType typeName => s!"No handler registered for message type '{typeName}'"
  | decode source => source.message
  | handler reason => s!"Handler failed: {reason}"
  | panicked reason => s!"Handler panicked: {reason}"

end Courier
