import Courier.Broker.Basic

/-!
# Receive calls that wait

A receive call looks for messages, and as long as it finds none and its time is not over, it sleeps
and looks again. What others do to the broker while the call sleeps is a parameter.

## Main definitions

* `Broker.poll`: the looks of a receive call until it answers.
* `Broker.receive`: the whole call.
-/

namespace Courier.Broker

theorem nextLook_le {now deadline next : Nat} {batch : List Received}
    (h : nextLook now deadline batch = some next) : now < next ∧ next ≤ deadline := by
  simp only [nextLook, lookInterval] at h
  split at h
  · cases h
    omega
  · cases h

/-- Looks for messages until some are found or the deadline has come. `others` changes the broker
between two instants, as other clients do. -/
def poll (others : Nat → Nat → Broker → Broker) (q : Identity) (o : ReceiveOptions)
    (deadline now : Nat) (b : Broker) :
    Except ReceiveFailure (List Received) × Nat × Broker :=
  match b.check now q o with
  | (.error e, b) => (.error e, now, b)
  | (.ok batch, b) =>
    match h : nextLook now deadline batch with
    | none => (.ok batch, now, b)
    | some next =>
      have := nextLook_le h
      poll others q o deadline next (others now next b)
termination_by deadline - now

/-- A receive call: its answer, the instant of the answer, and the broker then. -/
def receive (others : Nat → Nat → Broker → Broker) (b : Broker) (now : Nat) (q : Identity)
    (o : ReceiveOptions) : Except ReceiveFailure (List Received) × Nat × Broker :=
  match b.beginReceive now o with
  | (.error e, b) => (.error e, now, b)
  | (.ok deadline, b) => poll others q o deadline now b

end Courier.Broker
