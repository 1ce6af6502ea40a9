import Courier.System

/-!
# Running the system

A simulation runs the system on a clock of its own. At every instant the workers and pollers make
steps until none can; then the clock goes to the next instant at which somebody wakes up. Who has
to wait, in a pause, in a receive call, in a handler or in a delete call, sets an alarm.

Every step of a simulation is a step of the system, so what holds for all runs of the system holds
here.

## Main definitions

* `Simulation`: a system with alarms and the events so far.
* `Simulation.settle`, `Simulation.runUntil`: running at an instant, and to an instant.
* `Simulation.stop`: cancels a run and waits for its end.
-/

namespace Courier

/-- Who makes steps: the poller of a run, or one of its workers. -/
structure Party where
  subscriber : Nat
  run : Nat
  worker : Option Nat
  deriving DecidableEq, Repr

/-- What a party does next. -/
inductive Intent where
  | act (m : Move)
  /-- Waits for some milliseconds before it acts. -/
  | waitThen (ms : Nat) (m : Move)
  /-- Has nothing to do. -/
  | rest

/-- Something that was observed. -/
structure Observation where
  time : Nat
  subscriber : Nat
  event : Event

/-- A system on a clock, with the instants at which parties wake up. -/
structure Simulation where
  system : System := {}
  alarms : List (Party × Nat) := []
  /-- How long a delete call takes. -/
  deleteDelay : Nat := 0
  /-- What was observed, the latest first. -/
  observed : List Observation := []

namespace Simulation

/-- A consumer over a broker, before its first run. -/
def ofConsumer (b : Broker) (c : Consumer) : Simulation where
  system := { broker := b, subscribers := [{ consumer := c }] }

/-- The number of pending acknowledgements of a consumer. -/
def pending (sim : Simulation) (s : Nat) : Nat :=
  ((sim.system.subscribers[s]?).map (·.unsettled.size)).getD 0

/-- What a worker does next. -/
def workerIntent (deleteDelay : Nat) (p : Pipeline) (w : Nat) : Worker → Intent
  | .idle =>
    if p.cancelled then .act (.internal (.stopWorker w))
    else if !p.decoded.isEmpty then .act (.internal (.takeDecoded w))
    else if !p.raw.isEmpty then .act (.internal (.takeRaw w))
    else .rest
  | .decoding _ => .act (.internal (.decode w))
  | .offering _ => .act (.internal (.offer w))
  | .dispatching _ => .act (.internal (.start w))
  | .handling _ activity =>
    if p.cancelled then .act (.internal (.interrupt w))
    else
      match activity with
      | .finish _ | .note _ _ => .act (.internal (.proceed w))
      | .sleep ms _ => .waitThen ms (.internal (.proceed w))
      | .draw _ => .act (.draw w)
      | .send _ _ _ => .act (.send w)
      | .hang => .rest
  | .acknowledging _ =>
    if p.cancelled then .act (.internal (.interrupt w)) else .act (.internal (.callDelete w))
  | .deleting _ =>
    if p.cancelled then .act (.internal (.interrupt w)) else .waitThen deleteDelay (.delete w)
  | .stopped => .rest

/-- What the poller of a run does next. -/
def pollerIntent (c : Consumer) (now : Nat) (r : Run) : Intent :=
  match r.pipeline.poller with
  | .stopped => if r.pipeline.canFinish then .act (.internal .finish) else .rest
  | poller =>
    if r.pipeline.cancelled then .act (.internal .stopPoller)
    else
      match poller with
      | .ready => .act .beginReceive
      | .receiving => .waitThen (min lookInterval (r.deadline - now)) .look
      | .pausing => .waitThen c.settings.pause (.internal .resume)
      | _ =>
        if r.pipeline.raw.length < c.settings.rawCapacity then .act (.internal .push) else .rest

/-- What a party does next. -/
def intent (sim : Simulation) (who : Party) : Intent :=
  (do
    let sub ← sim.system.subscribers[who.subscriber]?
    let run ← sub.runs[who.run]?
    match who.worker with
    | none => return pollerIntent sub.consumer sim.system.now run
    | some w => return workerIntent sim.deleteDelay run.pipeline w (← run.pipeline.workers[w]?)
  ).getD .rest

/-- The parties of all runs that are not over, the workers of a run before its poller. -/
def parties (sys : System) : List Party :=
  sys.subscribers.zipIdx.flatMap fun (sub, s) =>
    sub.runs.zipIdx.flatMap fun (run, k) =>
      if run.pipeline.finished then []
      else
        (List.range run.pipeline.workers.length).map (⟨s, k, some ·⟩) ++ [⟨s, k, none⟩]

/-- The instant at which a party wakes up, if it sleeps. -/
def alarm? (sim : Simulation) (who : Party) : Option Nat :=
  sim.alarms.lookup who

/-- A party does not sleep any longer. -/
def clearAlarm (sim : Simulation) (who : Party) : Simulation :=
  { sim with alarms := sim.alarms.filter (·.1 ≠ who) }

/-- A party goes to sleep. -/
def setAlarm (sim : Simulation) (who : Party) (at_ : Nat) : Simulation :=
  { sim with alarms := (who, at_) :: sim.alarms }

/-- Makes a step of the system. -/
def apply (sim : Simulation) (s : Nat) (a : System.Action) : Option Simulation :=
  (sim.system.step a).map fun (system, events) =>
    { sim with
      system
      observed := (events.map (⟨sim.system.now, s, ·⟩)).reverse ++ sim.observed }

/-- A party makes a step. A receive call that begins looks for messages at once. -/
def perform (sim : Simulation) (who : Party) (m : Move) : Option Simulation :=
  (sim.apply who.subscriber (.move who.subscriber who.run m)).map fun sim =>
    match m with
    | .beginReceive => sim.setAlarm who sim.system.now
    | _ => sim

/-- The simulation after a party has acted or gone to sleep, or `none` if it does neither. -/
def act? (sim : Simulation) (who : Party) : Option Simulation :=
  match sim.intent who, sim.alarm? who with
  | .rest, _ => none
  | .act m, _ => (sim.clearAlarm who).perform who m
  | .waitThen ms m, none =>
    if ms = 0 then sim.perform who m else some (sim.setAlarm who (sim.system.now + ms))
  | .waitThen _ m, some due =>
    if due ≤ sim.system.now then (sim.clearAlarm who).perform who m else none

/-- Lets the parties act, at most `limit` times, until none can at this instant. -/
def settle : (limit : Nat) → Simulation → Simulation
  | 0, sim => sim
  | limit + 1, sim =>
    match (parties sim.system).findSome? sim.act? with
    | some sim => settle limit sim
    | none => sim

/-- The number of steps after which a simulation gives up. -/
def patience : Nat :=
  1000000000000

/-- Lets time pass until the given instant. -/
def passTo (sim : Simulation) (time : Nat) : Simulation :=
  (sim.apply 0 (.pass (time - sim.system.now))).getD sim

/-- The next instant at which a party wakes up. -/
def nextAlarm (sim : Simulation) : Option Nat :=
  (sim.alarms.map (·.2)).min?

/-- Runs to the given instant, waking up at most `limit` times on the way. Who wakes up at that
instant itself does not act yet. -/
def advance : (limit : Nat) → (time : Nat) → Simulation → Simulation
  | 0, _, sim => sim
  | limit + 1, time, sim =>
    let sim := sim.settle patience
    match sim.nextAlarm with
    | some next => if next < time then advance limit time (sim.passTo next) else sim.passTo time
    | none => sim.passTo time

/-- Runs to the given instant. -/
def runUntil (sim : Simulation) (time : Nat) : Simulation :=
  sim.advance patience time

/-- A new run of a consumer begins. -/
def start (sim : Simulation) (s : Nat) : Simulation :=
  (sim.apply s (.start s)).getD sim

/-- Cancels a run and lets it come to its end. -/
def stop (sim : Simulation) (s k : Nat) : Simulation :=
  ((sim.apply s (.move s k (.internal .cancel))).getD sim).settle patience

/-- Does something to the broker. -/
def withBroker {α : Type} (sim : Simulation) (f : Broker → α × Broker) : α × Simulation :=
  let (x, broker) := f sim.system.broker
  (x, { sim with system := { sim.system with broker } })

end Simulation

end Courier
