import Courier.Message.Class

/-!
# Lifecycle events

The events in the life of domains and orders that workers exchange. Each keeps the events of one
domain, or of one order, in order.

## Main definitions

* `DomainRegistered`: a registrar has finished the registration of a domain.
* `OrderStatusUpdate`: an order has moved to another status.
* `CertificateIssued`: a certificate has been issued for a hosted domain.
-/

namespace Courier

/-- A domain has been registered for an order. -/
structure DomainRegistered where
  domain : String
  orderId : String
  deriving DecidableEq, Repr

/-- The status of an order. -/
inductive OrderStatus where
  | pending
  | processing
  | completed
  | failed
  deriving DecidableEq, Repr

/-- An order has moved to a status. -/
structure OrderStatusUpdate where
  id : String
  status : OrderStatus
  deriving DecidableEq, Repr

/-- A certificate has been issued for a domain. -/
structure CertificateIssued where
  domain : String
  serial : String
  notAfter : Timestamp
  deriving DecidableEq

open Json

namespace DomainRegistered

/-- The JSON record of the event. -/
def record : Record DomainRegistered where
  name := "DomainRegistered"
  fields :=
    [.required "domain" .string fun s e => { e with domain := s },
      .required "order_id" .string fun s e => { e with orderId := s }]
  initial := ⟨"", ""⟩

instance : Message DomainRegistered where
  typeName := "DomainRegistered"
  toJson e := .ok (.object [("domain", .string e.domain), ("order_id", .string e.orderId)])
  decoder := record.decoder
  groupKey e := some e.domain

end DomainRegistered

namespace OrderStatus

/-- The statuses under their names on the wire. -/
def names : List (String × OrderStatus) :=
  [("pending", pending), ("processing", processing), ("completed", completed), ("failed", failed)]

/-- The name of a status on the wire. -/
def name : OrderStatus → String
  | pending => "pending"
  | processing => "processing"
  | completed => "completed"
  | failed => "failed"

/-- The name of a status in the log. -/
def title : OrderStatus → String
  | pending => "Pending"
  | processing => "Processing"
  | completed => "Completed"
  | failed => "Failed"

end OrderStatus

namespace OrderStatusUpdate

/-- The JSON record of the event. -/
def record : Record OrderStatusUpdate where
  name := "OrderStatusUpdate"
  fields :=
    [.required "id" .string fun s e => { e with id := s },
      .required "status" (.variant OrderStatus.names) fun s e => { e with status := s }]
  initial := ⟨"", .pending⟩

instance : Message OrderStatusUpdate where
  typeName := "OrderStatusUpdate"
  toJson e := .ok (.object [("id", .string e.id), ("status", .string e.status.name)])
  decoder := record.decoder
  groupKey e := some e.id

end OrderStatusUpdate

namespace CertificateIssued

/-- The timestamp that a text describes. -/
def timestampOfText (s : String) : Except String Timestamp :=
  (Timestamp.read s.toList).mapError (·.message)

/-- The JSON record of the event. -/
def record : Record CertificateIssued where
  name := "CertificateIssued"
  fields :=
    [.required "domain" .string fun s e => { e with domain := s },
      .required "serial" .string fun s e => { e with serial := s },
      .required "not_after" ((Decoder.stringAs timestampWords).check timestampOfText)
        fun t e => { e with notAfter := t }]
  initial := ⟨"", "", .epoch⟩

instance : Message CertificateIssued where
  typeName := "CertificateIssued"
  toJson e := .ok (.object
    [("domain", .string e.domain), ("serial", .string e.serial),
      ("not_after", .string (String.ofList e.notAfter.write))])
  decoder := record.decoder
  groupKey e := some e.domain

end CertificateIssued

end Courier
