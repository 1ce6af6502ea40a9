import Courier.Backend
import Courier.Registry
import Courier.Settings.Basic

/-!
# Consumers

A consumer reads one queue, which it looks up once, and hands its messages to registered handlers.

## Main definitions

* `Consumer`, `Consumer.connect`: a consumer, and how it comes to be.
* `Consumer.readyEntries`: what the log says about a consumer that can be used.
-/

namespace Courier

/-- A consumer: its settings, its handlers, and the queue that it has found. -/
structure Consumer where
  settings : ConsumerSettings
  registry : Registry
  queue : Identity

namespace Consumer

variable {σ : Type}

/-- The part of the program that speaks in the log. -/
def logTarget : String :=
  "lifecycle_queue::consumer"

/-- Checks the settings and looks up the queue. -/
def connect (k : Backend σ) (r : Registry) (s : ConsumerSettings) :
    StateM σ (Except QueueError Consumer) :=
  match s.validate with
  | .error e => pure (.error (.configuration e))
  | .ok () => do return (← k.resolve s.locator).map (⟨s, r, ·⟩)

/-- Looks up the queue again. -/
def ping (k : Backend σ) (c : Consumer) : StateM σ (Except QueueError Unit) := do
  return (← k.resolve c.settings.locator).map fun _ => ()

/-- An entry of a consumer, which names its queue. -/
def entry (c : Consumer) (level : Log.Level) (message : String)
    (fields : List (String × Log.Value)) : Log.Entry :=
  ⟨level, logTarget, message, ("queue", .text c.queue.url) :: fields⟩

/-- The entries about a consumer that can be used. One without handlers is worth a warning. -/
def readyEntries (c : Consumer) : List Log.Entry :=
  let ready := c.entry .info "Consumer ready"
    [("workers", .number c.settings.workers),
      ("types", .text (Text.quotedList c.registry.typeNames))]
  if c.registry.isEmpty then
    [c.entry .warn "Consumer has no registered handlers; every message will be abandoned" [],
      ready]
  else [ready]

/-- The entry about a run that begins. -/
def startedEntry (c : Consumer) : Log.Entry :=
  c.entry .info "Consumer started" [("workers", .number c.settings.workers)]

/-- The text that shows a consumer with the given number of pending acknowledgements to
developers. -/
def describe (c : Consumer) (pending : Nat) : String :=
  "Consumer \x7b queue: " ++ c.queue.describe ++ ", registry: " ++ c.registry.describe ++
    ", pending_acks: " ++ toString pending ++ " \x7d"

end Consumer

end Courier
