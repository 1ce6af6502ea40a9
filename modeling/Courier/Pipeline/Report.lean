import Courier.Pipeline.Basic

/-!
# What the log says about a run

Each event of a run that operators should know of has an entry in the log. What happens during a
dispatch stands in the span of that dispatch.

## Main definitions

* `Pipeline.dispatchSpan`: the span of a dispatch.
* `Pipeline.report`: the entry of an event, with its span.
-/

namespace Courier.Pipeline

/-- The span of the dispatch of an envelope. -/
def dispatchSpan (c : Consumer) (e : Envelope) : Log.Span where
  name := "dispatch"
  fields :=
    [("queue", .text c.queue.url), ("message_id", .text e.id.text),
      ("type_name", .text e.typeName), ("receive_count", .number e.receiveCount.toNat)]

/-- An entry of a consumer about a dispatch, which need not name the queue. -/
def dispatchEntry (level : Log.Level) (message : String)
    (fields : List (String × Log.Value) := []) : Log.Entry :=
  ⟨level, Consumer.logTarget, message, fields⟩

/-- The sentence about a dispatch that was cut off. -/
def cutOff : Stage → String
  | .handling => "Shutdown during dispatch; message left for redelivery"
  | .acknowledging => "Shutdown during acknowledgement; message will be redelivered"

/-- The entry about a dispatch that has failed. -/
def failureEntry (error : DispatchError) : Log.Entry :=
  let fields := [("error", Log.Value.text error.message)]
  match error with
  | .panicked _ => dispatchEntry .error "Handler panicked; message left for redelivery" fields
  | _ => dispatchEntry .warn "Dispatch failed; message left for redelivery" fields

/-- The entry about an event of a run, and the span it belongs to. -/
def report (c : Consumer) (event : Event) : Option (Log.Entry × Option Log.Span) :=
  let during (e : Envelope) (entry : Log.Entry) := some (entry, some (dispatchSpan c e))
  match event with
  | .receiveFailed error =>
    some (c.entry .warn "Receive failed; retrying"
      [("error", .text error.message), ("transient", .flag error.isTransient)], none)
  | .malformed m error =>
    some (c.entry .warn "Malformed message; leaving it for redelivery"
      [("message_id", .text m.id.text), ("receive_count", .number m.receiveCount.toNat),
        ("error", .text error.message)], none)
  | .noted e entry => during e entry
  | .failed e error => during e (failureEntry error)
  | .deleted e (.error error) =>
    during e (dispatchEntry .warn "Failed to delete handled message; it will be redelivered"
      [("error", .text error.message)])
  | .interrupted e stage => during e (dispatchEntry .info (cutOff stage))
  | .stopped => some (c.entry .info "Consumer stopped" [], none)
  | _ => none

end Courier.Pipeline
