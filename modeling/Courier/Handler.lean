import Courier.Envelope
import Courier.Log

/-!
# Handlers

A handler is started with a message and its context. What it does from then on is an `Activity`:
a tree whose nodes are the things that others can see, each followed by what the handler does next.
An activity that needs an answer, such as that of a send, holds a continuation for every answer.

## Main definitions

* `Outcome`: how a handler ends.
* `Activity`: what a handler still has to do.
* `Context`: what a handler is told about the delivery.
* `Handler`: the handlers of a message type.
-/

namespace Courier

/-- How a handler ends. -/
inductive Outcome where
  | ok
  | failed (reason : String)
  /-- The handler panics. The payload has a text, if only a standing one, and is released when the
  text has been read. A payload that panics in its turn then is not contained: what becomes of the
  worker is said by `Pipeline.lose`. -/
  | panicked (reason : String)
  deriving DecidableEq, Repr

/-- What a handler still has to do. -/
inductive Activity where
  /-- The handler ends. -/
  | finish (o : Outcome)
  /-- The handler waits for something that never comes. -/
  | hang
  /-- The handler sleeps for some milliseconds. -/
  | sleep (ms : Nat) (next : Activity)
  /-- The handler writes to the log. -/
  | note (entry : Log.Entry) (next : Activity)
  /-- The handler needs a fresh identifier. -/
  | draw (next : String → Activity)
  /-- The handler sends a message to a queue. -/
  | send (queue : Identity) (m : Outbound) (next : Except QueueError MessageId → Activity)

/-- What a handler is told about the delivery that it handles. -/
structure Context where
  messageId : MessageId
  typeName : String
  headers : Headers
  receiveCount : UInt32
  /-- Whether the consumer is already shutting down. -/
  cancelled : Bool := false
  deriving DecidableEq

/-- The context of a delivery. -/
def Context.ofEnvelope (e : Envelope) (cancelled : Bool) : Context :=
  ⟨e.id, e.typeName, e.headers, e.receiveCount, cancelled⟩

/-- The handlers of a message type. -/
abbrev Handler (M : Type) : Type :=
  Context → M → Activity

/-- The text of a panic whose payload is no text. -/
def unreadablePanic : String :=
  "non-string panic payload"

end Courier
