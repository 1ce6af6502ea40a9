import Courier.Message.QueueName
import Courier.Message.Basic

/-!
# Backends

What publishers, consumers and probes call directly: looking up a queue and sending a message. A
backend is given by what these calls answer and what they do to its state, whatever that is.

What a program asks of a backend is seen when every call is written down.

## Main definitions

* `Backend`: the operations over a state.
* `Backend.Call`, `Backend.recorded`: the calls of a backend, and a backend whose calls are written
  down.
-/

namespace Courier

/-- The operations of a backend with state `σ`. -/
structure Backend (σ : Type) where
  resolve : Locator → StateM σ (Except QueueError Identity)
  send : Identity → Outbound → StateM σ (Except QueueError MessageId)

/-- A call of a backend. -/
inductive Backend.Call where
  | resolve (l : Locator)
  | send (q : Identity) (m : Outbound)

/-- A backend whose calls are written down, the latest last. -/
def Backend.recorded {σ : Type} (k : Backend σ) : Backend (List Call × σ) where
  resolve l := fun (calls, s) =>
    let (answer, s) := (k.resolve l).run s
    (answer, calls ++ [.resolve l], s)
  send q m := fun (calls, s) =>
    let (answer, s) := (k.send q m).run s
    (answer, calls ++ [.send q m], s)

end Courier
