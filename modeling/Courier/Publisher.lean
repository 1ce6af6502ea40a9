import Courier.Broker.Basic
import Courier.Envelope
import Courier.Log
import Courier.Settings.Basic

/-!
# Publishers

A publisher sends typed messages to one queue, which it looks up once. Every message that it sends
has a group and a deduplication identifier. The group is what the caller asks for, else the
business key of the message, else that of the settings. Unless the caller chooses one, the
deduplication identifier is fresh, so two sends of the same value are two messages.

## Main definitions

* `SendOptions`: what a caller may ask for.
* `Publisher`, `Publisher.connect`: a publisher, and how it comes to be.
* `Publisher.outbound`, `Publisher.send`: the message that carries a value, and sending it.
* `Publisher.sendOver`: sending over the in-memory backend, whose mint gives the fresh identifier.
-/

namespace Courier

/-- What the caller of a send may ask for. -/
structure SendOptions where
  headers : Headers := ∅
  deduplication : Option String := none
  group : Option String := none
  deriving DecidableEq

/-- A publisher: its settings, and the queue that it has found. -/
structure Publisher where
  settings : PublisherSettings
  queue : Identity
  deriving DecidableEq

namespace Publisher

variable {σ : Type}

/-- The part of the program that speaks in the log. -/
def logTarget : String :=
  "lifecycle_queue::publisher"

/-- Checks the settings and looks up the queue. -/
def connect (k : Backend σ) (s : PublisherSettings) : StateM σ (Except QueueError Publisher) :=
  match s.validate with
  | .error e => pure (.error (.configuration e))
  | .ok () => do return (← k.resolve s.locator).map (⟨s, ·⟩)

/-- Looks up the queue again. -/
def ping (k : Backend σ) (p : Publisher) : StateM σ (Except QueueError Unit) := do
  return (← k.resolve p.settings.locator).map fun _ => ()

/-- The group of a message. -/
def groupOf {M : Type} [Message M] (p : Publisher) (m : M) (o : SendOptions) : String :=
  (o.group <|> Message.groupKey m).getD p.settings.group

/-- The message that carries a value. `fresh` is an identifier that nobody has used before. -/
def outbound {M : Type} [Message M] (p : Publisher) (m : M) (o : SendOptions) (fresh : String) :
    Except EnvelopeError Outbound :=
  (Outbound.ofMessage m o.headers).map fun out =>
    { out with group := some (p.groupOf m o), deduplication := some (o.deduplication.getD fresh) }

/-- Sends a value. A value that has no JSON form is refused without a call of the backend. -/
def send {M : Type} [Message M] (k : Backend σ) (p : Publisher) (m : M) (o : SendOptions)
    (fresh : String) : StateM σ (Except QueueError MessageId) :=
  match p.outbound m o fresh with
  | .error e => pure (.error (.serialization e))
  | .ok out => k.send p.queue out

/-- Sends a value over a broker at the instant `now`. -/
def sendOver {M : Type} [Message M] (now : Nat) (p : Publisher) (m : M) (o : SendOptions)
    (b : Broker) : Except QueueError MessageId × Broker :=
  let (fresh, mint) := b.mint.draw
  p.send (Broker.backend now) m o fresh { b with mint }

/-- The entry about a publisher that can be used. -/
def readyEntry (p : Publisher) : Log.Entry :=
  ⟨.info, logTarget, "Publisher ready", [("queue", .text p.queue.url)]⟩

/-- The text that shows a publisher to developers. -/
def describe (p : Publisher) : String :=
  "Publisher \x7b queue: " ++ p.queue.describe ++ ", message_group_id: " ++
    Text.quoted p.settings.group ++ " \x7d"

end Publisher

end Courier
