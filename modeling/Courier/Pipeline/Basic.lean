import Courier.Consumer
import Courier.Unsettled

/-!
# The pipeline of a consumer

While a consumer runs, a poller receives batches of messages and puts them into the raw buffer.
Workers take messages from there, decode them, and put the envelopes into the decoded buffer, or
dispatch them at once when that buffer is full. An idle worker prefers a decoded envelope. To
dispatch is to run the registered handler and, only if it ends well, to delete the message.
Whatever else happens leaves the message in the queue, from where it will be delivered again.

A run is a sequence of steps of the poller and the workers in any order. Each step is an `Action`;
what the backend answers is part of the action, so the pipeline can be studied against any backend.
The unsettled deliveries belong to the consumer, whose runs share them, and are passed beside the
pipeline.

## Main definitions

* `Poller`, `Worker`, `Pipeline`: the state of a run.
* `Action`: the steps of a run.
* `Event`: what can be observed of a step.
* `Pipeline.step`: what a step does, if it is possible.
* `Pipeline.Acts`: the runs of a consumer with their steps.
* `Pipeline.lose`: how a worker is lost.
* `Pipeline.Endures`: the runs of a consumer that lose workers.
-/

namespace Courier

/-- The poller of a run. -/
inductive Poller where
  /-- About to receive. -/
  | ready
  /-- In a receive call. -/
  | receiving
  /-- In the pause after a batch without messages. -/
  | pausing
  /-- With the messages of a batch that are not in the raw buffer yet. -/
  | delivering (rest : List Received)
  | stopped
  deriving DecidableEq

/-- A worker of a run. -/
inductive Worker where
  | idle
  /-- With a message to be decoded. -/
  | decoding (m : Received)
  /-- With an envelope for the decoded buffer. -/
  | offering (e : Envelope)
  /-- With an envelope whose handler is to be started. -/
  | dispatching (e : Envelope)
  /-- With a handler that has something to do. -/
  | handling (e : Envelope) (a : Activity)
  /-- With a message whose handler has ended well. -/
  | acknowledging (e : Envelope)
  /-- In a delete call. -/
  | deleting (e : Envelope)
  | stopped

/-- The state of a run. -/
structure Pipeline where
  cancelled : Bool := false
  poller : Poller := .ready
  /-- The raw buffer, oldest message first. -/
  raw : List Received := []
  /-- The decoded buffer, oldest envelope first. -/
  decoded : List Envelope := []
  workers : List Worker
  /-- Whether the run is over. -/
  finished : Bool := false

/-- The part of a dispatch that a shutdown has cut off. -/
inductive Stage where
  | handling
  | acknowledging
  deriving DecidableEq, Repr

/-- A step of a run. Workers are given by their index. -/
inductive Action where
  /-- The run is asked to end. -/
  | cancel
  /-- The poller calls the backend. -/
  | callReceive
  /-- The backend answers the poller. -/
  | received (r : Except QueueError (List Received))
  /-- The pause of the poller is over. -/
  | resume
  /-- The poller puts a message into the raw buffer. -/
  | push
  | stopPoller
  /-- An idle worker takes an envelope. -/
  | takeDecoded (w : Nat)
  /-- An idle worker takes a message, there being no envelope. -/
  | takeRaw (w : Nat)
  | decode (w : Nat)
  /-- A worker puts its envelope into the decoded buffer, or keeps it if there is no room. -/
  | offer (w : Nat)
  /-- A worker starts the handler of its envelope. -/
  | start (w : Nat)
  /-- A handler goes on. -/
  | proceed (w : Nat)
  /-- A handler gets a fresh identifier. -/
  | drawn (w : Nat) (id : String)
  /-- The backend answers the send of a handler. -/
  | sent (w : Nat) (r : Except QueueError MessageId)
  /-- A worker calls the backend to delete its message. -/
  | callDelete (w : Nat)
  /-- The backend answers a worker. -/
  | deleted (w : Nat) (r : Except QueueError Unit)
  /-- A worker gives up its envelope because the run is to end. -/
  | interrupt (w : Nat)
  | stopWorker (w : Nat)
  /-- The run ends, and with it what is left in the buffers. -/
  | finish

/-- The worker that takes a step, if the step is one of a worker. -/
def Action.worker? : Action → Option Nat
  | .takeDecoded w | .takeRaw w | .decode w | .offer w | .start w | .proceed w | .drawn w _
  | .sent w _ | .callDelete w | .deleted w _ | .interrupt w | .stopWorker w => some w
  | _ => none

/-- What can be observed of a run. -/
inductive Event where
  | received (batch : List Received)
  | receiveFailed (error : QueueError)
  /-- A message has entered the raw buffer. -/
  | buffered (m : Received)
  | malformed (m : Received) (error : EnvelopeError)
  | decoded (e : Envelope)
  /-- The handler has been called. -/
  | started (e : Envelope)
  /-- The handler has written to the log. -/
  | noted (e : Envelope) (entry : Log.Entry)
  /-- The handler has sent a message. -/
  | sent (e : Envelope) (queue : Identity) (m : Outbound) (r : Except QueueError MessageId)
  /-- The handler has ended. -/
  | returned (e : Envelope) (o : Outcome)
  /-- The dispatch has failed. -/
  | failed (e : Envelope) (error : DispatchError)
  | deleteCalled (e : Envelope)
  | deleted (e : Envelope) (r : Except QueueError Unit)
  | interrupted (e : Envelope) (stage : Stage)
  /-- The delivery is no longer tracked. -/
  | settled (e : Envelope)
  /-- Messages have been given up before they were decoded. -/
  | dropped (ms : List Received)
  /-- The run is over. -/
  | stopped

/-- What a step leaves behind. -/
structure Transition where
  unsettled : Unsettled
  pipeline : Pipeline
  events : List Event := []

/-- The unsettled deliveries without one. -/
def Unsettled.settleEnvelope (t : Unsettled) (e : Envelope) : Unsettled :=
  t.settle e.id e.receipt

namespace Pipeline

/-- The state in which a run of a consumer begins. -/
def initial (c : Consumer) : Pipeline where
  workers := List.replicate c.settings.workers .idle

/-- Replaces a worker. -/
def setWorker (p : Pipeline) (w : Nat) (state : Worker) : Pipeline :=
  { p with workers := p.workers.set w state }

/-- The poller with the rest of a batch. -/
def delivering : List Received → Poller
  | [] => .ready
  | rest => .delivering rest

/-- Whether a worker has stopped. -/
def isStopped : Worker → Bool
  | .stopped => true
  | _ => false

/-- A worker is done with its envelope, which is no longer tracked. -/
def release (u : Unsettled) (p : Pipeline) (w : Nat) (e : Envelope) (events : List Event) :
    Transition :=
  ⟨u.settleEnvelope e, p.setWorker w .idle, events ++ [.settled e]⟩

/-- The end of a handler. -/
def conclude (u : Unsettled) (p : Pipeline) (w : Nat) (e : Envelope) : Outcome → Transition
  | .ok => ⟨u, p.setWorker w (.acknowledging e), [.returned e .ok]⟩
  | .failed reason =>
    release u p w e [.returned e (.failed reason), .failed e (.handler reason)]
  | .panicked reason =>
    release u p w e [.returned e (.panicked reason), .failed e (.panicked reason)]

/-- A step of the poller. -/
def stepPoller (c : Consumer) (u : Unsettled) (p : Pipeline) (a : Action) :
    Option Transition :=
  match a, p.poller with
  | .callReceive, .ready => some ⟨u, { p with poller := .receiving }, []⟩
  | .received (.error e), .receiving =>
    some ⟨u, { p with poller := .ready }, [.receiveFailed e]⟩
  | .received (.ok []), .receiving =>
    some ⟨u, { p with poller := .pausing }, [.received []]⟩
  | .received (.ok ms), .receiving =>
    some ⟨u, { p with poller := .delivering ms }, [.received ms]⟩
  | .resume, .pausing => some ⟨u, { p with poller := .ready }, []⟩
  | .push, .delivering (m :: rest) =>
    if p.raw.length < c.settings.rawCapacity then
      some ⟨u, { p with poller := delivering rest, raw := p.raw ++ [m] }, [.buffered m]⟩
    else none
  | .stopPoller, .stopped => none
  | .stopPoller, .delivering rest =>
    if p.cancelled then some ⟨u, { p with poller := .stopped }, [.dropped rest]⟩ else none
  | .stopPoller, _ =>
    if p.cancelled then some ⟨u, { p with poller := .stopped }, []⟩ else none
  | _, _ => none

/-- A step of the worker `w`, whose state is given. -/
def stepWorker (c : Consumer) (u : Unsettled) (p : Pipeline) (w : Nat) (a : Action) :
    Worker → Option Transition
  | .idle =>
    match a, p.decoded, p.raw with
    | .takeDecoded _, e :: rest, _ =>
      if p.cancelled then none
      else some ⟨u, { p with decoded := rest }.setWorker w (.dispatching e), []⟩
    | .takeRaw _, [], m :: rest =>
      if p.cancelled then none
      else some ⟨u, { p with raw := rest }.setWorker w (.decoding m), []⟩
    | .stopWorker _, _, _ =>
      if p.cancelled then some ⟨u, p.setWorker w .stopped, []⟩ else none
    | _, _, _ => none
  | .decoding m =>
    match a, Envelope.ofReceived m with
    | .decode _, .ok e =>
      some ⟨u.insert e.id e.receipt, p.setWorker w (.offering e), [.decoded e]⟩
    | .decode _, .error error => some ⟨u, p.setWorker w .idle, [.malformed m error]⟩
    | _, _ => none
  | .offering e =>
    match a with
    | .offer _ =>
      if p.decoded.length < c.settings.decodedCapacity then
        some ⟨u, { p with decoded := p.decoded ++ [e] }.setWorker w .idle, []⟩
      else some ⟨u, p.setWorker w (.dispatching e), []⟩
    | _ => none
  | .dispatching e =>
    match a, c.registry.find? e.typeName with
    | .start _, none => some (release u p w e [.failed e (.unregisteredType e.typeName)])
    | .start _, some b =>
      match b.start (.ofEnvelope e p.cancelled) e with
      | .ok activity => some ⟨u, p.setWorker w (.handling e activity), [.started e]⟩
      | .error error => some (release u p w e [.failed e (.decode error)])
    | .interrupt _, some _ =>
      if p.cancelled then some (release u p w e [.interrupted e .handling]) else none
    | _, _ => none
  | .handling e activity =>
    match a, activity with
    | .proceed _, .finish o => some (conclude u p w e o)
    | .proceed _, .sleep _ next => some ⟨u, p.setWorker w (.handling e next), []⟩
    | .proceed _, .note entry next =>
      some ⟨u, p.setWorker w (.handling e next), [.noted e entry]⟩
    | .drawn _ id, .draw next => some ⟨u, p.setWorker w (.handling e (next id)), []⟩
    | .sent _ r, .send q m next =>
      some ⟨u, p.setWorker w (.handling e (next r)), [.sent e q m r]⟩
    | .interrupt _, _ =>
      if p.cancelled then some (release u p w e [.interrupted e .handling]) else none
    | _, _ => none
  | .acknowledging e =>
    match a with
    | .callDelete _ => some ⟨u, p.setWorker w (.deleting e), [.deleteCalled e]⟩
    | .interrupt _ =>
      if p.cancelled then some (release u p w e [.interrupted e .acknowledging]) else none
    | _ => none
  | .deleting e =>
    match a with
    | .deleted _ r => some (release u p w e [.deleted e r])
    | .interrupt _ =>
      if p.cancelled then some (release u p w e [.interrupted e .acknowledging]) else none
    | _ => none
  | .stopped => none

/-- The end of a run: the envelopes in the decoded buffer are no longer tracked. -/
def finish (u : Unsettled) (p : Pipeline) : Transition where
  unsettled := p.decoded.foldl Unsettled.settleEnvelope u
  pipeline := { p with raw := [], decoded := [], finished := true }
  events := .dropped p.raw :: p.decoded.map .settled ++ [.stopped]

/-- Whether the run can end: it has been cancelled, and poller and workers have stopped. -/
def canFinish (p : Pipeline) : Bool :=
  p.cancelled && !p.finished && p.poller = .stopped && p.workers.all isStopped

/-- What a step does, or `none` if it is not possible. -/
def step (c : Consumer) (u : Unsettled) (p : Pipeline) (a : Action) : Option Transition :=
  match a.worker? with
  | some w => (p.workers[w]?).bind (stepWorker c u p w a)
  | none =>
    match a with
    | .cancel => some ⟨u, { p with cancelled := true }, []⟩
    | .finish => if p.canFinish then some (finish u p) else none
    | _ => stepPoller c u p a

/-- A run of a consumer has come to the state `p` with the given steps, and `events` have been
observed of it. The table is any at every step, since other runs of the consumer share it. -/
inductive Acts (c : Consumer) : List Action → List Event → Pipeline → Prop
  | initial : Acts c [] [] (.initial c)
  | step {as events p u a x} (h : Acts c as events p) (hx : p.step c u a = some x) :
      Acts c (as ++ [a]) (events ++ x.events) x.pipeline

/-- A handler has panicked, and its payload panics in its turn when it is released. That is outside
of what catches the panics of handlers, so the task of the worker ends before it has settled its
delivery. The raw buffer and the other tasks go on. -/
def lose (u : Unsettled) (p : Pipeline) (w : Nat) : Option Transition :=
  match p.workers[w]? with
  | some (.handling e (.finish (.panicked reason))) =>
    some ⟨u, p.setWorker w .stopped, [.returned e (.panicked reason)]⟩
  | _ => none

/-- A run of a consumer has come to the state `p`, and it has lost the workers `lost`, the latest
first. The table is any at every step. -/
inductive Endures (c : Consumer) : List Nat → Pipeline → Prop
  | initial : Endures c [] (.initial c)
  | step {lost p u a x} (h : Endures c lost p) (hx : p.step c u a = some x) :
      Endures c lost x.pipeline
  | lose {lost p u w x} (h : Endures c lost p) (hx : p.lose u w = some x) :
      Endures c (w :: lost) x.pipeline

end Pipeline

end Courier
