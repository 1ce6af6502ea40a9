import Courier.Broker.Basic
import Mathlib.Data.List.Basic

/-!
# The calls of a broker

The operations of the in-memory backend are gathered in one type of calls, each of which changes the
broker at an instant, so that a history of the backend is a list of calls in any order. What the
calls did to messages is kept as a log of incidents. A send that stores nothing and a delete that
finds nothing leave no incident.

## Main definitions

* `Broker.Call`, `Broker.after`: the calls, and the broker after a call.
* `Incident`, `Broker.incidents`: what calls do to messages.
* `Broker.Reached`: the histories of a broker.
* `storedAt`, `deliveredAt`, `removedAt`, `latestReceipt`: what a log says about a queue.
-/

namespace Courier

/-- Something that happens to a message of the queue at an address. -/
inductive Incident where
  | stored (url : String) (m : Stored)
  | delivered (url : String) (m : Received)
  /-- A delete call with the given receipt removes the message. -/
  | removed (url : String) (receipt : Receipt) (id : MessageId)

namespace Broker

/-- A call of the backend. -/
inductive Call where
  | create (l : Locator)
  | resolve (l : Locator)
  | failNext (op : Operation) (count : Nat)
  /-- Somebody gets a fresh identifier. -/
  | draw
  | send (q : Identity) (m : Outbound)
  | beginReceive (o : ReceiveOptions)
  /-- A receive call looks for messages. -/
  | check (q : Identity) (o : ReceiveOptions)
  | delete (q : Identity) (receipt : Receipt)

/-- The messages of the queue at an address. -/
def messages (b : Broker) (url : String) : List Stored :=
  ((b.queue? url).map (·.messages)).getD []

/-- The broker after a call. -/
def after (b : Broker) (now : Nat) : Call → Broker
  | .create l => (b.create l).2
  | .resolve l => (b.resolve l).2
  | .failNext op count => b.failNext op count
  | .draw => { b with mint := b.mint.draw.2 }
  | .send q m => (b.send now q m).2
  | .beginReceive o => (b.beginReceive now o).2
  | .check q o => (b.check now q o).2
  | .delete q receipt => (b.delete q receipt).2

/-- What a call does to messages. -/
def incidents (b : Broker) (now : Nat) : Call → List Incident
  | .send q m =>
    (((b.send now q m).2.messages q.url).drop (b.messages q.url).length).map (.stored q.url)
  | .check q o =>
    match (b.check now q o).1 with
    | .ok batch => batch.map (.delivered q.url)
    | .error _ => []
  | .delete q receipt =>
    match (b.delete q receipt).1 with
    | .ok () =>
      ((b.messages q.url).find? (·.receipt = some receipt)).toList.map
        (.removed q.url receipt ·.id)
    | .error _ => []
  | _ => []

/-- The states to which calls lead from a broker without queues, with what has happened to messages
on the way. -/
inductive Reached : List Incident → Broker → Prop
  | start : Reached [] {}
  | call {log b} (h : Reached log b) (now : Nat) (call : Call) :
      Reached (log ++ b.incidents now call) (b.after now call)

end Broker

/-! ### What a log says about a queue -/

namespace Incident

/-- The message that an incident stores in the queue at an address. -/
@[simp] def stored? (url : String) : Incident → Option Stored
  | .stored url' m => if url' = url then some m else none
  | _ => none

/-- The delivery from the queue at an address that an incident is. -/
@[simp] def delivered? (url : String) : Incident → Option Received
  | .delivered url' m => if url' = url then some m else none
  | _ => none

/-- The message that an incident removes from the queue at an address. -/
@[simp] def removed? (url : String) : Incident → Option MessageId
  | .removed url' _ id => if url' = url then some id else none
  | _ => none

/-- The delivery that an incident is, from any queue. -/
@[simp] def delivery? : Incident → Option Received
  | .delivered _ m => some m
  | _ => none

/-- The text that a mint gives to a message or a delivery. -/
def text? : Incident → Option String
  | .stored _ m => some m.id.text
  | .delivered _ m => some m.receipt.text
  | .removed _ _ _ => none

variable {url : String} {i : Incident}

theorem stored?_eq_some {m : Stored} : i.stored? url = some m ↔ i = .stored url m := by
  cases i <;> simp

theorem delivered?_eq_some {m : Received} : i.delivered? url = some m ↔ i = .delivered url m := by
  cases i <;> simp

theorem removed?_eq_some {id : MessageId} :
    i.removed? url = some id ↔ ∃ receipt, i = .removed url receipt id := by
  cases i <;> simp [and_comm]

end Incident

/-- The messages that were stored in the queue at an address, in order. -/
def storedAt (url : String) (log : List Incident) : List Stored :=
  log.filterMap (·.stored? url)

/-- The deliveries from the queue at an address, in order. -/
def deliveredAt (url : String) (log : List Incident) : List Received :=
  log.filterMap (·.delivered? url)

/-- The identifiers of the messages that were removed from the queue at an address, in order. -/
def removedAt (url : String) (log : List Incident) : List MessageId :=
  log.filterMap (·.removed? url)

/-- The deliveries from all queues, in order. -/
def deliveries (log : List Incident) : List Received :=
  log.filterMap (·.delivery?)

/-- The receipt of the latest delivery of a message. -/
def latestReceipt (url : String) (id : MessageId) (log : List Incident) : Option Receipt :=
  ((deliveredAt url log).filter (·.id = id)).getLast?.map (·.receipt)

section

variable {url : String} {log : List Incident}

@[simp] theorem storedAt_append (log' : List Incident) :
    storedAt url (log ++ log') = storedAt url log ++ storedAt url log' :=
  List.filterMap_append

@[simp] theorem deliveredAt_append (log' : List Incident) :
    deliveredAt url (log ++ log') = deliveredAt url log ++ deliveredAt url log' :=
  List.filterMap_append

@[simp] theorem removedAt_append (log' : List Incident) :
    removedAt url (log ++ log') = removedAt url log ++ removedAt url log' :=
  List.filterMap_append

@[simp] theorem deliveries_append (log' : List Incident) :
    deliveries (log ++ log') = deliveries log ++ deliveries log' :=
  List.filterMap_append

@[simp] theorem storedAt_singleton (i : Incident) : storedAt url [i] = (i.stored? url).toList := by
  cases eq : i.stored? url <;> simp only [storedAt, List.filterMap_cons, eq] <;> rfl

@[simp] theorem deliveredAt_singleton (i : Incident) :
    deliveredAt url [i] = (i.delivered? url).toList := by
  cases eq : i.delivered? url <;> simp only [deliveredAt, List.filterMap_cons, eq] <;> rfl

@[simp] theorem removedAt_singleton (i : Incident) :
    removedAt url [i] = (i.removed? url).toList := by
  cases eq : i.removed? url <;> simp only [removedAt, List.filterMap_cons, eq] <;> rfl

theorem mem_storedAt {m : Stored} : m ∈ storedAt url log ↔ .stored url m ∈ log := by
  simp only [storedAt, List.mem_filterMap, Incident.stored?_eq_some, exists_eq_right]

theorem mem_deliveredAt {m : Received} : m ∈ deliveredAt url log ↔ .delivered url m ∈ log := by
  simp only [deliveredAt, List.mem_filterMap, Incident.delivered?_eq_some, exists_eq_right]

theorem mem_removedAt {id : MessageId} :
    id ∈ removedAt url log ↔ ∃ receipt, .removed url receipt id ∈ log := by
  simp only [removedAt, List.mem_filterMap, Incident.removed?_eq_some]
  constructor
  · rintro ⟨_, mem, receipt, rfl⟩
    exact ⟨receipt, mem⟩
  · rintro ⟨receipt, mem⟩
    exact ⟨_, mem, receipt, rfl⟩

theorem mem_deliveries {r : Received} : r ∈ deliveries log ↔ ∃ url, r ∈ deliveredAt url log := by
  simp only [deliveries, List.mem_filterMap, mem_deliveredAt]
  constructor
  · rintro ⟨i, mem, eq⟩
    cases i with
    | delivered url m =>
      cases eq
      exact ⟨url, mem⟩
    | _ => cases eq
  · rintro ⟨url, mem⟩
    exact ⟨_, mem, rfl⟩

theorem deliveredAt_eq_nil (h : deliveries log = []) : deliveredAt url log = [] :=
  List.eq_nil_iff_forall_not_mem.2 fun _ hr =>
    List.not_mem_nil (h ▸ mem_deliveries.2 ⟨url, hr⟩)

theorem deliveries_map (batch : List Received) :
    deliveries (batch.map (.delivered url)) = batch := by
  simp [deliveries, List.filterMap_map]

theorem deliveredAt_map (batch : List Received) :
    deliveredAt url (batch.map (.delivered url)) = batch := by
  simp [deliveredAt, List.filterMap_map]

theorem latestReceipt_delivered (m : Received) :
    latestReceipt url m.id (log ++ [.delivered url m]) = some m.receipt := by
  simp [latestReceipt]

theorem exists_of_latestReceipt {id : MessageId} {receipt : Receipt}
    (h : latestReceipt url id log = some receipt) :
    ∃ r ∈ deliveredAt url log, r.id = id ∧ r.receipt = receipt := by
  obtain ⟨r, last, rfl⟩ := Option.map_eq_some_iff.1 h
  obtain ⟨mem, own⟩ := List.mem_filter.1 (List.mem_of_getLast? last)
  exact ⟨r, mem, of_decide_eq_true own, rfl⟩

/-- What is not a delivery of a message does not change its latest delivery. -/
theorem latestReceipt_append {id : MessageId} {log' : List Incident}
    (h : ∀ m ∈ deliveredAt url log', m.id ≠ id) :
    latestReceipt url id (log ++ log') = latestReceipt url id log := by
  have none_ : (deliveredAt url log').filter (·.id = id) = [] := by
    simpa [List.filter_eq_nil_iff] using h
  simp [latestReceipt, none_]

/-- A message that was not delivered has no latest delivery. -/
theorem latestReceipt_eq_none {id : MessageId} (h : ∀ m ∈ deliveredAt url log, m.id ≠ id) :
    latestReceipt url id log = none :=
  (congrArg (latestReceipt url id) (List.nil_append log)).symm.trans
    (latestReceipt_append h)

end

/-- Only a receive call delivers messages. -/
theorem Broker.deliveries_incidents (b : Broker) (now : Nat) {call : Call}
    (h : ∀ q o, call ≠ .check q o) : deliveries (b.incidents now call) = [] := by
  refine List.filterMap_eq_nil_iff.2 fun i mem => ?_
  cases call with
  | check q o => exact absurd rfl (h q o)
  | send q m =>
    obtain ⟨m', -, rfl⟩ := List.mem_map.1 mem
    rfl
  | delete q receipt =>
    simp only [incidents] at mem
    split at mem
    · obtain ⟨m', -, rfl⟩ := List.mem_map.1 mem
      rfl
    · nomatch mem
  | _ => nomatch mem

/-- Only a delete call that succeeds removes a message, and only one. -/
theorem Broker.removed_mem_incidents {b : Broker} {now : Nat} {call : Call} {url : String}
    {receipt : Receipt} {id : MessageId} (h : .removed url receipt id ∈ b.incidents now call) :
    ∃ q, call = .delete q receipt ∧ q.url = url ∧ (b.delete q receipt).1 = .ok () ∧
      b.incidents now call = [.removed url receipt id] := by
  cases call with
  | delete q receipt' =>
    cases answer : (b.delete q receipt').1 with
    | error e =>
      simp only [incidents, answer] at h
      nomatch h
    | ok =>
      simp only [incidents, answer] at h ⊢
      obtain ⟨m, mem, eq⟩ := List.mem_map.1 h
      cases eq
      rw [Option.mem_toList] at mem
      rw [Option.mem_def.1 mem]
      exact ⟨q, rfl, rfl, answer, rfl⟩
  | send q m =>
    obtain ⟨m', -, eq⟩ := List.mem_map.1 h
    cases eq
  | check q o =>
    simp only [incidents] at h
    split at h
    · obtain ⟨m', -, eq⟩ := List.mem_map.1 h
      cases eq
    · nomatch h
  | _ => nomatch h

/-- Only a receive call that finds messages delivers, and it delivers what it finds. -/
theorem Broker.delivered_mem_incidents {b : Broker} {now : Nat} {call : Call} {url : String}
    {r : Received} (h : .delivered url r ∈ b.incidents now call) :
    ∃ q o batch b', call = .check q o ∧ q.url = url ∧ b.check now q o = (.ok batch, b') ∧
      r ∈ batch := by
  cases call with
  | check q o =>
    simp only [incidents] at h
    split at h
    · next batch answer =>
      obtain ⟨r', mem, eq⟩ := List.mem_map.1 h
      cases eq
      exact ⟨q, o, batch, _, rfl, rfl, Prod.ext answer rfl, mem⟩
    · nomatch h
  | send q m =>
    obtain ⟨m', -, eq⟩ := List.mem_map.1 h
    cases eq
  | delete q receipt =>
    simp only [incidents] at h
    split at h
    · obtain ⟨m', -, eq⟩ := List.mem_map.1 h
      cases eq
    · nomatch h
  | _ => nomatch h

end Courier
