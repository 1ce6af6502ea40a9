import Courier.Backend
import Courier.Sqs.Reply

/-!
# The queue service as a backend

A client of the service turns each queue operation into at most one call. A message that is too
large is refused without a call. Times are given in whole seconds.

## Main definitions

* `Sqs.Call`, `Sqs.Call.input`: the calls, and what is sent for them.
* `Sqs.Transport`: what carries a call to the service and brings the reply.
* `Sqs.resolve`, `Sqs.send`, `Sqs.receive`, `Sqs.delete`: the queue operations.
* `Sqs.backend`: the backend over a transport.
-/

namespace Courier.Sqs

/-- A call of the service. -/
inductive Call where
  | resolve (l : Locator)
  | send (q : Identity) (m : Outbound)
  | receive (q : Identity) (o : ReceiveOptions)
  | delete (q : Identity) (r : Receipt)

/-- The largest number in a call. -/
def maxNumber : Nat :=
  2147483647

/-- A number in a call. -/
def number (n : Nat) : Json :=
  .nat (min n maxNumber)

/-- A member for a text, if there is one. -/
def given (name : String) (s : Option String) : List (String × Json) :=
  (s.map fun s => (name, Json.string s)).toList

namespace Call

/-- The name of a call. -/
def operation : Call → String
  | resolve _ => "GetQueueUrl"
  | send _ _ => "SendMessage"
  | receive _ _ => "ReceiveMessage"
  | delete _ _ => "DeleteMessage"

/-- What a call is about, for its errors. -/
def subject : Call → String
  | resolve l => l.text
  | send q _ | receive q _ => q.name.text
  | delete _ r => r.text

/-- The JSON value that is sent for a call. -/
def input : Call → Json
  | resolve l =>
    .object (("QueueName", .string l.name.text) :: given "QueueOwnerAWSAccountId" l.owner)
  | send q m =>
    .object <|
      [("QueueUrl", .string q.url), ("MessageBody", .string m.body),
        ("MessageAttributes", .object (m.attributes.entries.map fun (name, a) =>
          (name, (WireAttribute.ofAttribute a).toJson)))] ++
      given "MessageGroupId" m.group ++ given "MessageDeduplicationId" m.deduplication
  | receive q o =>
    .object
      [("QueueUrl", .string q.url), ("MaxNumberOfMessages", number o.maxMessages),
        ("VisibilityTimeout", number (o.visibilityTimeout / 1000)),
        ("WaitTimeSeconds", number (o.waitTime / 1000)),
        ("MessageAttributeNames", .array [.string "All"]),
        ("MessageSystemAttributeNames", .array [.string receiveCountName])]
  | delete q r => .object [("QueueUrl", .string q.url), ("ReceiptHandle", .string r.text)]

end Call

/-- What carries calls to the service, over a state of its own. -/
abbrev Transport (σ : Type) : Type :=
  (operation : String) → (input : Json) → StateM σ Reply

variable {σ : Type}

/-- Makes a call and reads its output. -/
def exchange {α : Type} (t : Transport σ) (c : Call) (read : Json → Except QueueError α) :
    StateM σ (Except QueueError α) := do
  return ((← t c.operation c.input).output? c.subject).bind read

/-- Reads an output that may be unreadable. -/
def readable {α : Type} (x : Option α) : Except QueueError α :=
  match x with
  | some x => .ok x
  | none => .error (.connectionFailed unreadable)

/-- Reads a text that has to be in an output. -/
def requiredText (c : Call) (name : String) (v : Json) : Except QueueError String := do
  match ← readable (textAt? name v) with
  | some s => return s
  | none => throw (lacks c.operation name)

/-- Looks up a queue. -/
def resolve (t : Transport σ) (l : Locator) : StateM σ (Except QueueError Identity) :=
  exchange t (.resolve l) fun v => do
    return ⟨l.name, ← requiredText (.resolve l) "QueueUrl" v⟩

/-- Sends a message. -/
def send (t : Transport σ) (q : Identity) (m : Outbound) : StateM σ (Except QueueError MessageId) :=
  if sizeLimit < m.size then pure (.error (.messageTooLarge m.size sizeLimit))
  else
    exchange t (.send q m) fun v => do
      (MessageId.ofText (← requiredText (.send q m) "MessageId" v)).mapError .validation

/-- Receives messages. -/
def receive (t : Transport σ) (q : Identity) (o : ReceiveOptions) :
    StateM σ (Except QueueError (List Received)) :=
  exchange t (.receive q o) fun v => (readable (batchOf? v)).map collect

/-- Deletes a message. -/
def delete (t : Transport σ) (q : Identity) (r : Receipt) : StateM σ (Except QueueError Unit) :=
  exchange t (.delete q r) fun _ => .ok ()

/-- The backend over a transport. -/
def backend (t : Transport σ) : Backend σ where
  resolve := resolve t
  send := send t

/-- The text that shows a client for a region to developers. -/
def describe (region : Option String) : String :=
  let shown := match region with
    | some r => "Some(Region(" ++ Text.quoted r ++ "))"
    | none => "None"
  "SqsQueueClient \x7b region: " ++ shown ++ " \x7d"

end Courier.Sqs
