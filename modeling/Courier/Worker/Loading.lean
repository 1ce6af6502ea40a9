import Courier.Settings.Layers
import Courier.Settings.Reading
import Courier.Settings.Sources
import Courier.Worker.Settings

/-!
# Loading the settings of the worker

The settings come from three sources, each over the earlier ones: a file with a fixed name, which
need not exist, a file that the operator names, and the environment. What none of them gives has
its default. The settings are then checked.

## Main definitions

* `WorkerSettings.layered`, `WorkerSettings.ofTree`: the sources together, and the settings that
  they give.
* `WorkerSettings.load`: the settings.
-/

namespace Courier

open Settings

/-- Reads the name of a queue. -/
def QueueName.ofTree (t : Tree) : Except LoadFault QueueName := do
  match QueueName.ofText (← t.string) with
  | .ok n => return n
  | .error e => throw (.other e.message)

/-- Reads the settings of a consumer. -/
def ConsumerSettings.ofTree : Tree → Except LoadFault ConsumerSettings :=
  Tree.record "ConsumerConfig"
    [.of "queue_name" QueueName.ofTree fun q c => { c with queue := q },
      .of "owner_account" (·.optionalString) fun o c => { c with owner := o },
      .of "worker_count" (Tree.natural 64) fun n c => { c with workers := n },
      .of "batch_size" (Tree.natural 32) fun n c => { c with batch := n },
      .of "visibility_timeout_secs" (Tree.natural 64) fun n c => { c with visibilitySeconds := n },
      .of "wait_time_secs" (Tree.natural 64) fun n c => { c with waitSeconds := n },
      .of "empty_poll_delay_ms" (Tree.natural 64) fun n c => { c with pause := n },
      .of "raw_buffer_capacity" (Tree.natural 64) fun n c => { c with rawCapacity := n },
      .of "decoded_buffer_capacity" (Tree.natural 64) fun n c => { c with decodedCapacity := n }]
    {}

/-- Reads the settings of a publisher. -/
def PublisherSettings.ofTree : Tree → Except LoadFault PublisherSettings :=
  Tree.record "PublisherConfig"
    [.of "queue_name" QueueName.ofTree fun q p => { p with queue := q },
      .of "owner_account" (·.optionalString) fun o p => { p with owner := o },
      .of "message_group_id" (·.string) fun g p => { p with group := g }]
    {}

/-- Reads where the health endpoint listens. -/
def HealthSettings.ofTree : Tree → Except LoadFault HealthSettings :=
  Tree.record "HealthConfig"
    [.of "host" (·.string) fun s h => { h with host := s },
      .of "port" (Tree.natural 16) fun n h => { h with port := .ofNat n }]
    {}

/-- Reads how the log is written. -/
def LogSettings.ofTree : Tree → Except LoadFault LogSettings :=
  Tree.record "LoggingConfig"
    [.of "format" (Tree.choice "LogFormat" LogFormat.names) fun f l => { l with format := f },
      .of "filter" (·.optionalString) fun f l => { l with filter := f }]
    {}

namespace WorkerSettings

/-- Reads the settings of a worker. -/
def ofTree : Tree → Except LoadFault WorkerSettings :=
  Tree.record "WorkerConfig"
    [.of "backend" (Tree.choice "Backend" BackendChoice.names) fun b w => { w with backend := b },
      .of "region" (·.optionalString) fun r w => { w with region := r },
      .of "endpoint_url" (·.optionalString) fun e w => { w with endpoint := e },
      .of "consumer" ConsumerSettings.ofTree fun c w => { w with consumer := c },
      .of "publisher" PublisherSettings.ofTree fun p w => { w with publisher := p },
      .of "health" HealthSettings.ofTree fun h w => { w with health := h },
      .of "logging" LogSettings.ofTree fun l w => { w with logging := l }]
    {}

/-- The path of the file that need not exist. -/
def defaultFile : String :=
  "config/worker.yaml"

/-- The settings in the file that need not exist. -/
def defaultMembers (f : Files) : Except LoadFault (List (String × Tree)) :=
  match f.members (some .yaml) defaultFile with
  | .error (.unavailable _) => .ok []
  | found => found

/-- All sources, each over the earlier ones. -/
def layered (f : Files) (env : Environment) (explicit : Option String) :
    Except LoadFault Tree := do
  let below := Tree.overlay (.table none []) (← defaultMembers f)
  let below ← match explicit with
    | some name => pure (below.overlay (← f.members none name))
    | none => pure below
  return below.overlay env.members

/-- Loads and checks the settings. -/
def load (f : Files) (env : Environment) (explicit : Option String) :
    Except SettingsError WorkerSettings := do
  let w ← ((layered f env explicit).bind ofTree).mapError .load
  w.validate
  return w

end WorkerSettings

end Courier
