import Courier.Association
import Courier.Backend
import Courier.Broker.Queue

/-!
# The broker

The in-memory backend: queues by their addresses, and the table in which names are looked up.
Every operation is given the current time and returns its result together with the broker
afterwards, so that an operation that fails can be seen to leave the queues alone.

Tests may ask for the next calls of an operation to fail. Such a failure is taken from the budget
of that operation before anything else is looked at.

A receive call that finds nothing may wait. It looks again every ten milliseconds until it finds a
message or its time is over; each look is one call of `Broker.check`.

## Main definitions

* `Operation`, `Calls`, `Faults`, `Broker`: the state of the backend.
* `Broker.create`, `Broker.resolve`, `Broker.send`, `Broker.delete`: the operations.
* `Broker.beginReceive`, `Broker.check`, `Broker.nextLook`: the parts of a receive call.
-/

namespace Courier

/-- The operations whose failure can be asked for. -/
inductive Operation where
  | resolve
  | receive
  | send
  | delete
  deriving DecidableEq, Repr

/-- The word for an operation in an error. -/
def Operation.word : Operation → String
  | resolve => "resolve"
  | receive => "receive"
  | send => "send"
  | delete => "delete"

/-- The number of calls of each operation so far. Looking up a name is not counted. -/
structure Calls where
  receive : Nat := 0
  send : Nat := 0
  delete : Nat := 0
  deriving DecidableEq, Repr

/-- The number of coming calls of each operation that fail. -/
structure Faults where
  resolve : Nat := 0
  receive : Nat := 0
  send : Nat := 0
  delete : Nat := 0
  deriving DecidableEq, Repr

namespace Faults

/-- The number of coming calls of an operation that fail. -/
def get (f : Faults) : Operation → Nat
  | .resolve => f.resolve
  | .receive => f.receive
  | .send => f.send
  | .delete => f.delete

/-- Sets the number of coming calls of an operation that fail. -/
def set (f : Faults) (op : Operation) (count : Nat) : Faults :=
  match op with
  | .resolve => { f with resolve := count }
  | .receive => { f with receive := count }
  | .send => { f with send := count }
  | .delete => { f with delete := count }

end Faults

/-- The in-memory backend. -/
structure Broker where
  /-- Queues by address. -/
  queues : List (String × Queue) := []
  /-- Addresses by what they are looked up with. -/
  addresses : List (Locator × String) := []
  calls : Calls := {}
  faults : Faults := {}
  mint : Mint := {}
  deriving DecidableEq

/-- What keeps a receive call from answering. An instant behind the end of the clock makes it
impossible to say when the call, or a delivery, is over. -/
inductive ReceiveFailure where
  | refused (e : QueueError)
  | beyondClock
  deriving DecidableEq

/-- The sentence of a failure. -/
def ReceiveFailure.message : ReceiveFailure → String
  | refused e => e.message
  | beyondClock => "overflow when adding duration to instant"

/-- The last instant of the clock, whose seconds have 64 bits with a sign and began before the first
instant. -/
def lastInstant : Nat :=
  9223372036854775806 * 1000 + 999

/-- The instant that lies `ms` behind another. -/
def later? (now ms : Nat) : Option Nat :=
  if now + ms ≤ lastInstant then some (now + ms) else none

/-- How often a receive call looks for messages. -/
def lookInterval : Nat := 10

/-- The owner of queues without another owner. -/
def localOwner : String := "local"

/-- The address of a queue. -/
def Locator.address (l : Locator) : String :=
  "memory://" ++ l.owner.getD localOwner ++ "/" ++ l.name.text

namespace Broker

/-- The queue with the given address. -/
def queue? (b : Broker) (url : String) : Option Queue :=
  b.queues.lookup url

/-- Replaces a queue. -/
def setQueue (b : Broker) (url : String) (q : Queue) : Broker :=
  { b with queues := assign url q b.queues }

/-- The error of a queue that does not exist. -/
def notFound (q : Identity) : QueueError :=
  .queueNotFound q.name.text

/-- Asks for the next calls of an operation to fail. -/
def failNext (b : Broker) (op : Operation) (count : Nat) : Broker :=
  { b with faults := b.faults.set op count }

/-- Takes a failure from the budget of an operation, if there is one. -/
def spendFault (b : Broker) (op : Operation) : Option (QueueError × Broker) :=
  match b.faults.get op with
  | 0 => none
  | n + 1 => some (.connectionFailed s!"injected {op.word} failure", b.failNext op n)

/-- Creates a queue, unless there is one at that address. -/
def create (b : Broker) (l : Locator) : Identity × Broker :=
  let url := l.address
  let queues := if (b.queue? url).isSome then b.queues
    else assign url { fifo := l.name.isFifo } b.queues
  (⟨l.name, url⟩, { b with queues, addresses := assign l url b.addresses })

/-- Looks up a queue. -/
def resolve (b : Broker) (l : Locator) : Except QueueError Identity × Broker :=
  match b.spendFault .resolve with
  | some (e, b) => (.error e, b)
  | none =>
    match b.addresses.lookup l with
    | some url => (.ok ⟨l.name, url⟩, b)
    | none => (.error (.queueNotFound l.text), b)

/-- Sends a message. -/
def send (b : Broker) (now : Nat) (q : Identity) (m : Outbound) :
    Except QueueError MessageId × Broker :=
  let b := { b with calls.send := b.calls.send + 1 }
  match b.spendFault .send with
  | some (e, b) => (.error e, b)
  | none =>
    if sizeLimit < m.size then (.error (.messageTooLarge m.size sizeLimit), b)
    else
      match b.queue? q.url with
      | none => (.error (notFound q), b)
      | some queue =>
        if queue.fifo ∧ m.group = none then
          (.error (.validation (.required "message_group_id")), b)
        else
          let (id, queue, mint) := queue.push now m b.mint
          (.ok id, { b.setQueue q.url queue with mint })

/-- Begins a receive call: the instant at which its wait is over. -/
def beginReceive (b : Broker) (now : Nat) (o : ReceiveOptions) :
    Except ReceiveFailure Nat × Broker :=
  let b := { b with calls.receive := b.calls.receive + 1 }
  match b.spendFault .receive with
  | some (e, b) => (.error (.refused e), b)
  | none =>
    match later? now o.waitTime with
    | some deadline => (.ok deadline, b)
    | none => (.error .beyondClock, b)

/-- Looks for messages once and delivers what is found. -/
def check (b : Broker) (now : Nat) (q : Identity) (o : ReceiveOptions) :
    Except ReceiveFailure (List Received) × Broker :=
  match b.queue? q.url with
  | none => (.error (.refused (notFound q)), b)
  | some queue =>
    let selection := queue.select now o.maxMessages
    match later? now o.visibilityTimeout with
    | some visibleAt =>
      let (batch, messages, mint) := Queue.deliver visibleAt b.mint selection
      (.ok batch, { b.setQueue q.url { queue with messages } with mint })
    | none =>
      if selection.any (·.2) then
        (.error .beyondClock,
          b.setQueue q.url { queue with messages := Queue.countFirst selection })
      else (.ok [], b)

/-- When a receive call that has found the given messages looks again, if it does. -/
def nextLook (now deadline : Nat) (batch : List Received) : Option Nat :=
  if batch.isEmpty ∧ now < deadline then some (now + min lookInterval (deadline - now)) else none

/-- Deletes the message whose latest delivery has the given receipt. -/
def delete (b : Broker) (q : Identity) (receipt : Receipt) : Except QueueError Unit × Broker :=
  let b := { b with calls.delete := b.calls.delete + 1 }
  match b.spendFault .delete with
  | some (e, b) => (.error e, b)
  | none =>
    match b.queue? q.url with
    | none => (.error (notFound q), b)
    | some queue =>
      match queue.remove? receipt with
      | some queue => (.ok (), b.setQueue q.url queue)
      | none => (.error (.messageNotFound receipt.text), b)

/-- The number of messages in a queue. -/
def count (b : Broker) (q : Identity) : Nat :=
  ((b.queue? q.url).map (·.messages.length)).getD 0

/-- The number of messages of a queue that have been delivered and are still hidden. -/
def inFlight (b : Broker) (now : Nat) (q : Identity) : Nat :=
  ((b.queue? q.url).map (·.inFlight now)).getD 0

/-- The broker as the backend of publishers, consumers and probes, at an instant. -/
def backend (now : Nat) : Backend Broker where
  resolve l := fun b => b.resolve l
  send q m := fun b => b.send now q m

end Broker

end Courier
