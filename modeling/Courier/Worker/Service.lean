import Courier.Broker.Basic
import Courier.Consumer
import Courier.Lifecycle.Handlers
import Courier.Pipeline.Basic
import Courier.Publisher
import Courier.Worker.Settings

/-!
# The worker as a service

A service consists of a publisher, a consumer with the lifecycle handlers, and the address of its
health endpoint. They come to be in this order, and the first failure ends the start: nothing has
been sent, received or deleted by then.

## Main definitions

* `WorkerSettings.broker`: the in-memory backend of a worker.
* `Service`, `Service.start`: a service, and how it comes to be.
* `Service.Runs`: a run of the worker over a backend.
-/

namespace Courier

/-- An in-memory backend with the queues of consumer and publisher. -/
def WorkerSettings.broker (w : WorkerSettings) : Broker :=
  let (_, b) := ({} : Broker).create w.consumer.locator
  (b.create w.publisher.locator).2

/-- A worker that can run. -/
structure Service where
  publisher : Publisher
  consumer : Consumer
  /-- Where the health endpoint listens. -/
  address : SocketAddress

namespace Service

variable {σ : Type}

/-- The part of the program that speaks in the log. -/
def logTarget : String :=
  "lifecycle_worker"

/-- An entry about the service. -/
def entry (level : Log.Level) (message : String) (fields : List (String × Log.Value) := []) :
    Log.Entry :=
  ⟨level, logTarget, message, fields⟩

/-- The entry about an endpoint that can be reached. -/
def listeningEntry (a : SocketAddress) : Log.Entry :=
  entry .info "Health server listening" [("address", .text a.write)]

/-- The entry about a service that has come to its end. -/
def completeEntry : Log.Entry :=
  entry .info "Worker shutdown complete"

/-- The ports below this one are for programs with a privilege that the worker does not have. -/
def firstFreePort : UInt16 :=
  1024

/-- Why an address cannot be had, if it is `occupied` or a privilege is needed for its port. -/
def bindRefusal (occupied : Bool) (a : SocketAddress) : Option String :=
  if occupied then some "Address already in use (os error 98)"
  else if 0 < a.port ∧ a.port < firstFreePort then some "Permission denied (os error 13)"
  else none

/-- Occupies the address of the health endpoint. `bind` tells why an address cannot be had. -/
def listen (bind : SocketAddress → Option String) (w : WorkerSettings) :
    Except WorkerError SocketAddress := do
  let address ← w.health.address.mapError .settings
  match bind address with
  | none => return address
  | some reason => throw (.bindFailed address.write reason)

/-- Starts a service, and tells what the log says about that. The handlers take `now` for the
present. -/
def start (k : Backend σ) (bind : SocketAddress → Option String) (now : Timestamp)
    (w : WorkerSettings) : StateM σ (Except WorkerError Service × List Log.Entry) := do
  match ← Publisher.connect k w.publisher with
  | .error e => return (.error (.queueSetup "publisher" e), [])
  | .ok p =>
    let log := [p.readyEntry]
    match ← Consumer.connect k (Lifecycle.registry now p) w.consumer with
    | .error e => return (.error (.queueSetup "consumer" e), log)
    | .ok c =>
      let log := log ++ c.readyEntries
      match listen bind w with
      | .error e => return (.error e, log)
      | .ok address => return (.ok ⟨p, c, address⟩, log ++ [listeningEntry address])

/-- A run of the worker over a backend: the calls that it makes while it starts and, when it serves,
any later ones; the steps of its consumer; what is observed of them; and how the run ends. Without a
service it ends at once. Otherwise its consumer works until it has stopped, and the run ends well
unless the endpoint has failed. -/
inductive Runs (k : Backend σ) (bind : SocketAddress → Option String) (now : Timestamp)
    (w : WorkerSettings) (s : σ) :
    List Backend.Call → List Action → List Event → Except WorkerError Unit → Prop
  | refused {e log calls s'}
      (failed : (start k.recorded bind now w).run ([], s) = ((.error e, log), calls, s')) :
      Runs k bind now w s calls [] [] (.error e)
  | served {service log calls s' as events p r} (later : List Backend.Call)
      (started : (start k.recorded bind now w).run ([], s) = ((.ok service, log), calls, s'))
      (acts : Pipeline.Acts service.consumer as events p) (stopped : p.finished = true)
      (ends : r = .ok () ∨ ∃ reason, r = .error (.serverFailed reason)) :
      Runs k bind now w s (calls ++ later) as events r

end Service

end Courier
