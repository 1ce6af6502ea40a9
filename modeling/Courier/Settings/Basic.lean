import Courier.Message.Basic

/-!
# Settings of consumers and publishers

The settings of a consumer say which queue it reads, how it asks for messages, and how large its
pipeline is; those of a publisher, which queue it writes. Every field has a default.

## Main definitions

* `ConsumerSettings`, `PublisherSettings`: the settings, and their JSON records.
* `ConsumerSettings.validate`, `PublisherSettings.validate`: the limits of backend and pipeline.
-/

namespace Courier

/-- The name of the queue when none is set. -/
def defaultQueue : QueueName :=
  ⟨"lifecycle-events", by decide⟩

/-- The settings of a consumer. -/
structure ConsumerSettings where
  queue : QueueName := defaultQueue
  /-- The account that owns the queue, when it is another one. -/
  owner : Option String := none
  /-- The number of workers that decode and dispatch. -/
  workers : Nat := 25
  /-- The number of messages that a receive call asks for. -/
  batch : Nat := 10
  visibilitySeconds : Nat := 30
  waitSeconds : Nat := 20
  /-- The pause after a receive call without messages, in milliseconds. -/
  pause : Nat := 1000
  /-- The room between the poll loop and the workers that decode. -/
  rawCapacity : Nat := 100
  /-- The room between decoding and dispatch. -/
  decodedCapacity : Nat := 100
  deriving DecidableEq

/-- The settings of a publisher. -/
structure PublisherSettings where
  queue : QueueName := defaultQueue
  /-- The account that owns the queue, when it is another one. -/
  owner : Option String := none
  /-- The group of messages without a business key. -/
  group : String := "default"
  deriving DecidableEq

/-- The largest batch that a backend gives out. -/
def maxBatch : Nat := 10

/-- The longest wait of a receive call, in seconds. -/
def maxWaitSeconds : Nat := 20

/-- The longest visibility timeout, in seconds: twelve hours. -/
def maxVisibilitySeconds : Nat := 43200

/-- An owner that is given is not empty. -/
def checkOwner (owner : Option String) : Except InvalidSettings Unit :=
  if owner = some "" then .error ⟨"owner_account must not be empty when set"⟩ else .ok ()

open Json

namespace ConsumerSettings

/-- The queue to be resolved. -/
def locator (c : ConsumerSettings) : Locator :=
  ⟨c.queue, c.owner⟩

/-- What each receive call asks for. -/
def receiveOptions (c : ConsumerSettings) : ReceiveOptions where
  maxMessages := c.batch
  visibilityTimeout := c.visibilitySeconds * 1000
  waitTime := c.waitSeconds * 1000

/-- Refuses settings that the backend or the pipeline cannot honour. -/
def validate (c : ConsumerSettings) : Except InvalidSettings Unit :=
  if c.workers = 0 then .error ⟨"worker_count must be at least 1"⟩
  else if c.batch = 0 ∨ maxBatch < c.batch then
    .error ⟨s!"batch_size must be between 1 and {maxBatch}"⟩
  else if maxVisibilitySeconds < c.visibilitySeconds then
    .error ⟨s!"visibility_timeout_secs must not exceed {maxVisibilitySeconds}"⟩
  else if maxWaitSeconds < c.waitSeconds then
    .error ⟨s!"wait_time_secs must not exceed {maxWaitSeconds}"⟩
  else if c.rawCapacity = 0 ∨ c.decodedCapacity = 0 then
    .error ⟨"buffer capacities must be at least 1"⟩
  else checkOwner c.owner

/-- The JSON record of the settings. -/
def record : Record ConsumerSettings where
  name := "ConsumerConfig"
  fields :=
    [.defaulted "queue_name" QueueName.decoder fun q c => { c with queue := q },
      .defaulted "owner_account" (.option .string) fun o c => { c with owner := o },
      .defaulted "worker_count" .size fun n c => { c with workers := n },
      .defaulted "batch_size" .uint32 fun n c => { c with batch := n },
      .defaulted "visibility_timeout_secs" .uint64 fun n c => { c with visibilitySeconds := n },
      .defaulted "wait_time_secs" .uint64 fun n c => { c with waitSeconds := n },
      .defaulted "empty_poll_delay_ms" .uint64 fun n c => { c with pause := n },
      .defaulted "raw_buffer_capacity" .size fun n c => { c with rawCapacity := n },
      .defaulted "decoded_buffer_capacity" .size fun n c => { c with decodedCapacity := n }]
  initial := {}

/-- The JSON value of the settings. -/
def toJson (c : ConsumerSettings) : Json :=
  .object
    [("queue_name", c.queue.toJson), ("owner_account", .optionString c.owner),
      ("worker_count", .nat c.workers), ("batch_size", .nat c.batch),
      ("visibility_timeout_secs", .nat c.visibilitySeconds),
      ("wait_time_secs", .nat c.waitSeconds), ("empty_poll_delay_ms", .nat c.pause),
      ("raw_buffer_capacity", .nat c.rawCapacity),
      ("decoded_buffer_capacity", .nat c.decodedCapacity)]

end ConsumerSettings

namespace PublisherSettings

/-- The queue to be resolved. -/
def locator (p : PublisherSettings) : Locator :=
  ⟨p.queue, p.owner⟩

/-- Refuses settings that the backend cannot honour. -/
def validate (p : PublisherSettings) : Except InvalidSettings Unit :=
  if p.group = "" ∨ 128 < p.group.utf8ByteSize then
    .error ⟨"message_group_id must be 1-128 characters"⟩
  else checkOwner p.owner

/-- The JSON record of the settings. -/
def record : Record PublisherSettings where
  name := "PublisherConfig"
  fields :=
    [.defaulted "queue_name" QueueName.decoder fun q p => { p with queue := q },
      .defaulted "owner_account" (.option .string) fun o p => { p with owner := o },
      .defaulted "message_group_id" .string fun g p => { p with group := g }]
  initial := {}

/-- The JSON value of the settings. -/
def toJson (p : PublisherSettings) : Json :=
  .object
    [("queue_name", p.queue.toJson), ("owner_account", .optionString p.owner),
      ("message_group_id", .string p.group)]

end PublisherSettings

end Courier
