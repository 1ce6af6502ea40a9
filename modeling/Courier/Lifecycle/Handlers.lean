import Courier.Lifecycle.Events
import Courier.Publisher
import Courier.Registry

/-!
# Lifecycle handlers

What the worker does with lifecycle events. A registered domain completes its order: the handler
publishes the new status of the order, and ends well only when that has been accepted. The other
handlers only write to the log.

## Main definitions

* `Lifecycle.publishCompletion`, `Lifecycle.logStatus`, `Lifecycle.logCertificate`: the handlers.
* `Lifecycle.registry`: all of them.
-/

namespace Courier.Lifecycle

/-- The part of the program that speaks in the log. -/
def logTarget : String :=
  "lifecycle_worker::handlers"

/-- The header that names the sender of an event. -/
def senderKey : String :=
  "source"

/-- The name under which the worker sends events. -/
def senderName : String :=
  "lifecycle-worker"

/-- The entry of a handler. -/
def entry (level : Log.Level) (message : String) (fields : List (String × Log.Value)) :
    Log.Entry :=
  ⟨level, logTarget, message, fields⟩

/-- The event that completes the order of a registered domain. -/
def completion (event : DomainRegistered) : OrderStatusUpdate :=
  ⟨event.orderId, .completed⟩

/-- What the worker asks for when it sends an event. -/
def completionOptions : SendOptions where
  headers := (∅ : Headers).insert senderKey (.string senderName)

/-- How a handler ends that could not publish. -/
def publishFailed (event : DomainRegistered) : Activity :=
  .finish (.failed s!"failed to publish completion of order {event.orderId}")

/-- The order of a registered domain is completed. -/
def publishCompletion (p : Publisher) : Handler DomainRegistered := fun ctx event =>
  .note (entry .info "Domain registered"
    [("domain", .text event.domain), ("order_id", .text event.orderId),
      ("receive_count", .number ctx.receiveCount.toNat)]) <|
  .draw fun fresh =>
    match p.outbound (completion event) completionOptions fresh with
    | .error _ => publishFailed event
    | .ok m =>
      .send p.queue m fun
        | .error _ => publishFailed event
        | .ok id =>
          .note (entry .info "Order completed"
            [("order_id", .text event.orderId), ("message_id", .text id.text)])
          (.finish .ok)

/-- The status of an order is written to the log. -/
def logStatus : Handler OrderStatusUpdate := fun ctx update =>
  let source := ((ctx.headers.find? senderKey).bind (·.string?)).getD "unknown"
  .note (entry .info "Order status updated"
    [("order_id", .text update.id), ("status", .text update.status.title),
      ("source", .text source)])
  (.finish .ok)

/-- The nanoseconds of a day. -/
def nanosPerDay : Int :=
  86400 * 1000000000

/-- A certificate is written to the log, with a warning if it has expired at the instant `now`. -/
def logCertificate (now : Timestamp) : Handler CertificateIssued := fun ctx issued =>
  let remaining := now.nanosUntil issued.notAfter
  let fields := [("domain", Log.Value.text issued.domain), ("serial", .text issued.serial),
    ("not_after", .text (String.ofList issued.notAfter.writeLong))]
  .note (if remaining ≤ 0 then
      entry .warn "Issued certificate has already expired"
        (fields ++ [("receive_count", .number ctx.receiveCount.toNat)])
    else
      entry .info "Certificate issued"
        (fields ++ [("days_remaining", .number (remaining / nanosPerDay))]))
  (.finish .ok)

/-- The handlers of the worker. -/
def registry (now : Timestamp) (p : Publisher) : Registry :=
  (((∅ : Registry).register (publishCompletion p)).register logStatus).register
    (logCertificate now)

end Courier.Lifecycle
