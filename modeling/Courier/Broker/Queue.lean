import Courier.Mint

/-!
# Queues in memory

A queue holds its messages in the order in which they were sent. A delivery hides its message for
a while and gives it a new receipt; when the time is over and the message has not been deleted, it
can be delivered again.

On a queue that keeps its messages in order, a message can be delivered only when it is the
oldest of its group, and a send that repeats a deduplication identifier within five minutes stores
nothing.

Times are in milliseconds.

## Main definitions

* `Stored`, `Window`, `Queue`: the contents of a queue.
* `Queue.push`: stores a message, or finds the earlier send that it repeats.
* `Queue.select`: marks the messages that a receive call delivers.
* `Queue.deliver`: delivers the marked messages.
* `Queue.remove?`: deletes the message whose latest receipt is given.
-/

namespace Courier

/-- A message in a queue. -/
structure Stored where
  id : MessageId
  body : String
  attributes : Dictionary Attribute
  group : Option String
  /-- The number of deliveries so far, which starts again at zero after 2³². -/
  receiveCount : UInt32 := 0
  /-- When the message can be delivered again. -/
  visibleAt : Nat
  /-- The receipt of the latest delivery. -/
  receipt : Option Receipt := none
  deriving DecidableEq

namespace Stored

/-- Whether the message is not hidden by a delivery. -/
def isVisible (m : Stored) (now : Nat) : Bool :=
  m.visibleAt ≤ now

/-- Whether the message has been delivered and is still hidden. -/
def isInFlight (m : Stored) (now : Nat) : Bool :=
  m.receipt.isSome && !m.isVisible now

/-- The message after one more delivery. -/
def delivered (m : Stored) (receipt : Receipt) (visibleAt : Nat) : Stored :=
  { m with receiveCount := m.receiveCount + 1, visibleAt, receipt := some receipt }

/-- A delivery, as it is handed out. -/
def toReceived (m : Stored) (receipt : Receipt) : Received :=
  ⟨m.id, receipt, m.body, m.attributes, m.receiveCount + 1⟩

end Stored

/-- A send whose deduplication identifier must not be repeated for a while. -/
structure Window where
  key : String
  id : MessageId
  openedAt : Nat
  deriving DecidableEq

/-- How long a deduplication identifier must not be repeated: five minutes. -/
def windowLength : Nat := 300000

/-- Whether a send is still to be compared with later ones. -/
def Window.isOpen (w : Window) (now : Nat) : Bool :=
  now - w.openedAt < windowLength

/-- A queue. -/
structure Queue where
  /-- Whether the queue keeps its messages in order. -/
  fifo : Bool
  messages : List Stored := []
  windows : List Window := []
  deriving DecidableEq

namespace Queue

/-- The group that takes part in the order of deliveries. -/
def groupOf (q : Queue) (m : Stored) : Option String :=
  if q.fifo then m.group else none

/-- The identifier by which a send is compared with earlier ones. -/
def deduplicationOf (q : Queue) (m : Outbound) : Option String :=
  if q.fifo then m.deduplication else none

/-- The earlier send that has the given identifier. -/
def window? (q : Queue) (key : String) : Option Window :=
  q.windows.find? fun w => w.key = key

/-- Forgets the sends that are no longer to be compared. -/
def purge (q : Queue) (now : Nat) : Queue :=
  { q with windows := q.windows.filter (·.isOpen now) }

/-- Stores a message and remembers its deduplication identifier. -/
def store (q : Queue) (now : Nat) (m : Outbound) (id : MessageId) : Queue :=
  let windows := match q.deduplicationOf m with
    | some key => ⟨key, id, now⟩ :: q.windows
    | none => q.windows
  { q with
    messages := q.messages ++
      [{ id, body := m.body, attributes := m.attributes, group := m.group, visibleAt := now }]
    windows }

/-- Stores a message under a new identifier, or gives the identifier of the earlier send that it
repeats. -/
def push (q : Queue) (now : Nat) (m : Outbound) (mint : Mint) : MessageId × Queue × Mint :=
  let q := q.purge now
  match (q.deduplicationOf m).bind q.window? with
  | some w => (w.id, q, mint)
  | none =>
    let (id, mint) := mint.drawMessageId
    (id, q.store now m id, mint)

/-- Marks the messages to be delivered: from the front, those that are visible and whose group is
not blocked, as long as there is room. A message that is hidden, or is about to be, blocks its
group. -/
def selectFrom (q : Queue) (now : Nat) : Nat → List String → List Stored →
    List (Stored × Bool)
  | _, _, [] => []
  | 0, _, ms => ms.map (·, false)
  | room + 1, blocked, m :: ms =>
    match q.groupOf m with
    | some group =>
      if group ∈ blocked then (m, false) :: q.selectFrom now (room + 1) blocked ms
      else if m.isVisible now then (m, true) :: q.selectFrom now room (group :: blocked) ms
      else (m, false) :: q.selectFrom now (room + 1) (group :: blocked) ms
    | none =>
      if m.isVisible now then (m, true) :: q.selectFrom now room blocked ms
      else (m, false) :: q.selectFrom now (room + 1) blocked ms

/-- Marks the messages that a receive call for at most `max` messages delivers. -/
def select (q : Queue) (now max : Nat) : List (Stored × Bool) :=
  q.selectFrom now max [] q.messages

/-- Delivers the marked messages, which stay hidden until the given time. -/
def deliver (visibleAt : Nat) : Mint → List (Stored × Bool) →
    List Received × List Stored × Mint
  | mint, [] => ([], [], mint)
  | mint, (m, false) :: ms =>
    let (batch, stored, mint) := deliver visibleAt mint ms
    (batch, m :: stored, mint)
  | mint, (m, true) :: ms =>
    let (text, mint) := mint.draw
    let receipt : Receipt := ⟨text⟩
    let (batch, stored, mint) := deliver visibleAt mint ms
    (m.toReceived receipt :: batch, m.delivered receipt visibleAt :: stored, mint)

/-- Counts a delivery of the first marked message that does not take place. -/
def countFirst : List (Stored × Bool) → List Stored
  | [] => []
  | (m, true) :: ms => { m with receiveCount := m.receiveCount + 1 } :: ms.map (·.1)
  | (m, false) :: ms => m :: countFirst ms

/-- Deletes the message whose latest delivery has the given receipt. -/
def remove? (q : Queue) (receipt : Receipt) : Option Queue :=
  if q.messages.any (·.receipt = some receipt) then
    some { q with messages := q.messages.eraseP (·.receipt = some receipt) }
  else none

/-- The number of messages that have been delivered and are still hidden. -/
def inFlight (q : Queue) (now : Nat) : Nat :=
  q.messages.countP (·.isInFlight now)

end Queue

end Courier
