import Courier.Message.Basic

/-!
# Deliveries that wait for their acknowledgement

A consumer keeps, for every message that it has decoded and not yet settled, the receipt of the
latest delivery. A delivery settles only its own record: when the message has been delivered
again in the meantime, the record of the newer delivery stays.

## Main definitions

* `Unsettled`: receipts by message identifier.
* `Unsettled.insert`, `Unsettled.settle`, `Unsettled.contains`: the operations.
-/

namespace Courier

/-- Receipts by message identifier, the identifiers being distinct. -/
structure Unsettled where
  records : List (MessageId × Receipt)
  deriving DecidableEq

namespace Unsettled

/-- The table without records. -/
def empty : Unsettled :=
  ⟨[]⟩

instance : EmptyCollection Unsettled := ⟨empty⟩

instance : Inhabited Unsettled := ⟨empty⟩

/-- The receipt that is kept for a message. -/
def find? (t : Unsettled) (id : MessageId) : Option Receipt :=
  t.records.lookup id

/-- Keeps the receipt of a delivery in place of that of any earlier one. -/
def insert (t : Unsettled) (id : MessageId) (receipt : Receipt) : Unsettled :=
  ⟨(id, receipt) :: t.records.filter fun r => r.1 != id⟩

/-- Whether the record of a message is that of the given delivery. -/
def isCurrent (t : Unsettled) (id : MessageId) (receipt : Receipt) : Bool :=
  t.find? id = some receipt

/-- Removes the record of a delivery, unless it is gone or belongs to a newer delivery. -/
def settle (t : Unsettled) (id : MessageId) (receipt : Receipt) : Unsettled :=
  if t.isCurrent id receipt then ⟨t.records.filter fun r => r.1 != id⟩ else t

/-- Whether a message has a record. -/
def contains (t : Unsettled) (id : MessageId) : Bool :=
  (t.find? id).isSome

/-- The number of records. -/
def size (t : Unsettled) : Nat :=
  t.records.length

/-- Whether there are no records. -/
def isEmpty (t : Unsettled) : Bool :=
  t.records.isEmpty

end Unsettled

end Courier
