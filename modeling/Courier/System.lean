import Courier.Broker.Basic
import Courier.Pipeline.Basic

/-!
# Consumers over the broker

The system consists of the in-memory broker, a clock, and consumers with their runs. Its steps are
those of the runs, with the answers of the broker, and what others do: time passes, messages are
sent, names are looked up, failures are asked for. The steps may come in any order.

## Main definitions

* `Run`, `Subscriber`, `System`: the state.
* `Move`: a step of a run.
* `System.Action`, `System.step`: the steps of the system.
-/

namespace Courier

/-- A run of a consumer, with the instant at which its receive call has waited long enough. -/
structure Run where
  pipeline : Pipeline
  deadline : Nat := 0

/-- A consumer with its runs, which share its unsettled deliveries. -/
structure Subscriber where
  consumer : Consumer
  unsettled : Unsettled := ∅
  runs : List Run := []

/-- The broker, the clock and the consumers. -/
structure System where
  now : Nat := 0
  broker : Broker := {}
  subscribers : List Subscriber := []

/-- A step of a run. Workers are given by their index. -/
inductive Move where
  /-- A step that needs no answer of the broker. -/
  | internal (a : Action)
  /-- The poller begins a receive call. -/
  | beginReceive
  /-- The receive call looks for messages. -/
  | look
  /-- A handler gets a fresh identifier. -/
  | draw (w : Nat)
  /-- A handler sends its message. -/
  | send (w : Nat)
  /-- A delete call takes place. -/
  | delete (w : Nat)

/-- Whether a step of a pipeline needs no answer of the broker. -/
def Action.isInternal : Action → Bool
  | .callReceive | .received _ | .drawn _ _ | .sent _ _ | .deleted _ _ => false
  | _ => true

/-- What a step of a run leaves behind. -/
structure Effect where
  broker : Broker
  unsettled : Unsettled
  run : Run
  events : List Event := []

namespace Run

/-- A step of the pipeline beside a broker. -/
def lift (c : Consumer) (broker : Broker) (u : Unsettled) (r : Run) (a : Action) :
    Option Effect :=
  (r.pipeline.step c u a).map fun t =>
    ⟨broker, t.unsettled, { r with pipeline := t.pipeline }, t.events⟩

/-- The poller begins a receive call. A call that fails at once is answered at once. -/
def beginReceive (c : Consumer) (now : Nat) (broker : Broker) (u : Unsettled) (r : Run) :
    Option Effect := do
  let called ← r.lift c broker u .callReceive
  match broker.beginReceive now c.settings.receiveOptions with
  | (.ok deadline, broker) =>
    return { called with broker, run := { called.run with deadline } }
  | (.error (.refused e), broker) => called.run.lift c broker u (.received (.error e))
  | (.error .beyondClock, _) => none

/-- The receive call looks for messages, and is answered unless it has to look again. -/
def look (c : Consumer) (now : Nat) (broker : Broker) (u : Unsettled) (r : Run) :
    Option Effect :=
  if r.pipeline.poller = .receiving then
    match broker.check now c.queue c.settings.receiveOptions with
    | (.ok batch, broker) =>
      if (Broker.nextLook now r.deadline batch).isSome then some ⟨broker, u, r, []⟩
      else r.lift c broker u (.received (.ok batch))
    | (.error (.refused e), broker) => r.lift c broker u (.received (.error e))
    | (.error .beyondClock, _) => none
  else none

/-- A step of a run. -/
def step (c : Consumer) (now : Nat) (broker : Broker) (u : Unsettled) (r : Run) :
    Move → Option Effect
  | .internal a => if a.isInternal then r.lift c broker u a else none
  | .beginReceive => r.beginReceive c now broker u
  | .look => r.look c now broker u
  | .draw w =>
    let (id, mint) := broker.mint.draw
    r.lift c { broker with mint } u (.drawn w id)
  | .send w =>
    match r.pipeline.workers[w]? with
    | some (.handling _ (.send q m _)) =>
      let (answer, broker) := broker.send now q m
      r.lift c broker u (.sent w answer)
    | _ => none
  | .delete w =>
    match r.pipeline.workers[w]? with
    | some (.deleting e) =>
      let (answer, broker) := broker.delete c.queue e.receipt
      r.lift c broker u (.deleted w answer)
    | _ => none

end Run

namespace System

/-- A step of the system. -/
inductive Action where
  /-- Time passes. -/
  | pass (ms : Nat)
  | create (l : Locator)
  | resolve (l : Locator)
  | send (q : Identity) (m : Outbound)
  | failNext (op : Operation) (count : Nat)
  /-- A new run of a consumer begins. -/
  | start (s : Nat)
  /-- A run of a consumer makes a step. -/
  | move (s k : Nat) (m : Move)

/-- Replaces a subscriber. -/
def setSubscriber (sys : System) (s : Nat) (sub : Subscriber) : System :=
  { sys with subscribers := sys.subscribers.set s sub }

/-- What a step does and what can be observed of it, or `none` if it is not possible. -/
def step (sys : System) : Action → Option (System × List Event)
  | .pass ms => some ({ sys with now := sys.now + ms }, [])
  | .create l => some ({ sys with broker := (sys.broker.create l).2 }, [])
  | .resolve l => some ({ sys with broker := (sys.broker.resolve l).2 }, [])
  | .send q m => some ({ sys with broker := (sys.broker.send sys.now q m).2 }, [])
  | .failNext op count => some ({ sys with broker := sys.broker.failNext op count }, [])
  | .start s => do
    let sub ← sys.subscribers[s]?
    let run : Run := { pipeline := .initial sub.consumer }
    return (sys.setSubscriber s { sub with runs := sub.runs ++ [run] }, [])
  | .move s k m => do
    let sub ← sys.subscribers[s]?
    let run ← sub.runs[k]?
    let effect ← run.step sub.consumer sys.now sys.broker sub.unsettled m
    let sub := { sub with unsettled := effect.unsettled, runs := sub.runs.set k effect.run }
    return ({ sys with broker := effect.broker }.setSubscriber s sub, effect.events)

end System

end Courier
