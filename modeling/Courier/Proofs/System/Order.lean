import Courier.Proofs.System.Removal

/-!
# Order within a group

A queue that keeps its messages in order delivers a message only when every message of its group
that was stored before it is gone. Only removals take messages away, and they are rightful, so the
handler of each of these messages has been called and has ended well. A handler is called only for
what was delivered, so the same holds of its calls.

## Main definitions

* `Ahead`: a message was stored before another one of its group.
* `System.RemovedWithin`: a history contains the rightful removal of a message.

## Main results

* `System.Reached.in_order`: messages of a group are handed out one after the other, in the order in
  which they were stored.
-/

namespace Courier

/-- The message `m` was stored in the queue at `url` before the message `m'` of the same group. -/
def Ahead (url : String) (log : List Incident) (m m' : Stored) : Prop :=
  ∃ earlier later, storedAt url log = earlier ++ m' :: later ∧ m ∈ earlier ∧
    ∃ g, m.group = some g ∧ m'.group = some g

namespace Ahead

variable {url : String} {log log' : List Incident} {m m' : Stored}

theorem stored (h : Ahead url log m m') : m ∈ storedAt url log ∧ m' ∈ storedAt url log := by
  obtain ⟨earlier, later, split, mem, -⟩ := h
  rw [split]
  exact ⟨List.mem_append_left _ mem, List.mem_append_right _ List.mem_cons_self⟩

/-- A message that was stored before another one is among the first messages of any log that ends
with the other one. -/
theorem mem_earlier {s : Stock} (h : Ahead url (log ++ log') m m')
    (ledger : Ledger (log ++ log') s) {earlier later : List Stored} {m₀ : Stored}
    (split : storedAt url log = earlier ++ m₀ :: later) (same : m₀.id = m'.id) : m ∈ earlier := by
  obtain ⟨earlier', later', split', mem, -⟩ := h
  have ids := ledger.ids_nodup url
  have both : earlier' ++ m' :: later' = earlier ++ m₀ :: (later ++ storedAt url log') := by
    rw [← split', storedAt_append, split, List.append_assoc, List.cons_append]
  have stored : m₀ ∈ storedAt url (log ++ log') := by
    rw [storedAt_append, split]
    simp
  have stored' : m' ∈ storedAt url (log ++ log') := by
    rw [split']
    simp
  obtain rfl : m₀ = m' := (ledger.stored_unique stored stored' same).2
  have distinct : (earlier' ++ m₀ :: later').Nodup := by
    rw [← split']
    exact List.Nodup.of_map _ ids
  obtain ⟨-, onward, apart⟩ := List.nodup_append.1 distinct
  have before : m₀ ∉ earlier' := fun mem => apart m₀ mem m₀ List.mem_cons_self rfl
  have after : m₀ ∉ later' := (List.nodup_cons.1 onward).1
  obtain ⟨rfl, -⟩ := (List.append_cons_inj_of_notMem before after).1 both
  exact mem

end Ahead

namespace System

/-- The history `before`, which goes on with `after`, contains the removal of a message from the
queue at `url`, and it is rightful. -/
def RemovedWithin (consumers : List Consumer) (before after : List Occurrence) (url : String)
    (id : MessageId) : Prop :=
  ∃ past receipt rest, before = past ++ .incident (.removed url receipt id) :: rest ∧
    Rightful consumers past (rest ++ after) url receipt id

variable {consumers : List Consumer} {history before after : List Occurrence} {sys : System}
  {url : String}

theorem RemovedWithin.later {o : Occurrence} {rest : List Occurrence} {id : MessageId}
    (h : RemovedWithin consumers before (o :: rest ++ after) url id) :
    RemovedWithin consumers (before ++ o :: rest) after url id := by
  obtain ⟨past, receipt, mid, rfl, rightful⟩ := h
  refine ⟨past, receipt, mid ++ o :: rest, ?_, ?_⟩
  · rw [List.append_assoc, List.cons_append]
  · rwa [List.append_assoc]

theorem RemovedWithin.delivered {id : MessageId}
    (h : RemovedWithin consumers before after url id) :
    ∃ r, .incident (.delivered url r) ∈ before ∧ r.id = id := by
  obtain ⟨past, receipt, rest, rfl, current, -⟩ := h
  obtain ⟨r, mem, own, -⟩ := exists_of_latestReceipt current
  exact ⟨r, List.mem_append_left _ (mem_incidentsOf.1 (mem_deliveredAt.1 mem)), own⟩

theorem Reached.removedWithin (h : Reached consumers (before ++ after) sys) {id : MessageId}
    (gone : id ∈ removedAt url (incidentsOf before)) :
    RemovedWithin consumers before after url id := by
  obtain ⟨receipt, removed⟩ := mem_removedAt.1 gone
  obtain ⟨past, rest, rfl⟩ := List.append_of_mem (mem_incidentsOf.1 removed)
  rw [List.append_assoc, List.cons_append] at h
  exact ⟨past, receipt, rest, rfl, h.rightful⟩

theorem Reached.delivered_of_started {s k : Nat} {e : Envelope}
    (h : Reached consumers (before ++ .event s k (.started e) :: after) sys) :
    ∃ url r, .incident (.delivered url r) ∈ before ∧ r.id = e.id := by
  obtain ⟨past, sys₀, a, sys₁, events, first, last, reached, hx, occ, rfl, -⟩ := h.split
  have mem : .event s k (.started e) ∈ sys₀.occurrences a events := by simp [occ]
  obtain ⟨m, sub, run, w, -, hs, hk, at_, -⟩ := started_step hx mem
  obtain ⟨d, carried, delivered, -⟩ := reached.carried hs hk at_ rfl
  have id_eq := (Envelope.ofReceived_eq_ok carried.1.accepted).1
  have there := mem_incidentsOf.1 (mem_deliveredAt.1 delivered)
  exact ⟨_, d.message, List.mem_append_left _ there, id_eq.symm⟩

/-- When a message is delivered, those before it in its group have been removed. -/
private theorem Reached.removed_ahead {url' : String} {r : Received}
    (h : Reached consumers (before ++ .incident (.delivered url' r) :: after) sys)
    {queue : Queue} (there : sys.broker.queue? url = some queue) (fifo : queue.fifo = true)
    {m m' : Stored}
    (ahead : Ahead url (incidentsOf (before ++ .incident (.delivered url' r) :: after)) m m')
    (own : r.id = m'.id) :
    RemovedWithin consumers before (.incident (.delivered url' r) :: after) url m.id := by
  have log := h.broker.changes
  have incidents : incidentsOf (before ++ .incident (.delivered url' r) :: after) =
      incidentsOf before ++ .delivered url' r :: incidentsOf after := by
    simp [incidentsOf, Occurrence.incident?]
  rw [incidents] at log ahead
  obtain ⟨earlier, m₀, later, split, id_eq, -, turn⟩ := log.delivered_in_turn
  have same : m₀.id = m'.id := id_eq.trans own
  have stored : m₀ ∈ storedAt url' (incidentsOf before) := by simp [split]
  have stored : m₀ ∈ storedAt url' (incidentsOf before ++ .delivered url' r :: incidentsOf after) :=
    storedAt_append _ ▸ List.mem_append_left _ stored
  obtain ⟨rfl, rfl⟩ := log.ledger.stored_unique stored ahead.stored.2 same
  have mem : m ∈ earlier := ahead.mem_earlier log.ledger split rfl
  obtain ⟨-, -, -, -, g, group, group'⟩ := ahead
  have shelf : sys.broker.stock.shelves url' = some ⟨true, queue.messages⟩ := by
    rw [Broker.shelves_of_queue there, fifo]
  exact h.removedWithin (turn _ shelf g group' m mem group)

/-- From a queue that keeps its messages in order, a message is handed out only when every message
of its group that was stored before it has been removed rightfully, and its handler is called only
then. So the first deliveries come in the order in which the messages were stored, and a message
that is never removed holds back every later one of its group. -/
theorem Reached.in_order (h : Reached consumers history sys) {queue : Queue}
    (there : sys.broker.queue? url = some queue) (fifo : queue.fifo = true) {m m' : Stored}
    (ahead : Ahead url (incidentsOf history) m m') :
    (∀ before url' r after, history = before ++ .incident (.delivered url' r) :: after →
      r.id = m'.id →
      RemovedWithin consumers before (.incident (.delivered url' r) :: after) url m.id ∧
        ∃ r', .incident (.delivered url r') ∈ before ∧ r'.id = m.id) ∧
    (∀ before s k e after, history = before ++ .event s k (.started e) :: after → e.id = m'.id →
      RemovedWithin consumers before (.event s k (.started e) :: after) url m.id) ∧
    ((∀ receipt, .incident (.removed url receipt m.id) ∉ history) →
      (∀ url' r, r.id = m'.id → .incident (.delivered url' r) ∉ history) ∧
        ∀ s k e, e.id = m'.id → .event s k (.started e) ∉ history) := by
  have handed (before url' r after)
      (split : history = before ++ .incident (.delivered url' r) :: after) (own : r.id = m'.id) :
      RemovedWithin consumers before (.incident (.delivered url' r) :: after) url m.id := by
    subst split
    exact h.removed_ahead there fifo ahead own
  have called (before s k e after) (split : history = before ++ .event s k (.started e) :: after)
      (own : e.id = m'.id) :
      RemovedWithin consumers before (.event s k (.started e) :: after) url m.id := by
    subst split
    obtain ⟨url', r, delivered, own'⟩ := h.delivered_of_started
    obtain ⟨past, rest, rfl⟩ := List.append_of_mem delivered
    have split : past ++ .incident (.delivered url' r) :: rest ++ .event s k (.started e) :: after =
        past ++ .incident (.delivered url' r) :: (rest ++ .event s k (.started e) :: after) := by
      simp
    exact (handed past url' r _ split (own'.trans own)).later
  refine ⟨fun before url' r after split own => ?_, called, fun never => ⟨?_, ?_⟩⟩
  · have removed := handed before url' r after split own
    exact ⟨removed, removed.delivered⟩
  · intro url' r own delivered
    obtain ⟨before, after, rfl⟩ := List.append_of_mem delivered
    obtain ⟨past, receipt, rest, rfl, -⟩ := handed before url' r after rfl own
    exact never receipt (by simp)
  · intro s k e own started
    obtain ⟨before, after, rfl⟩ := List.append_of_mem started
    obtain ⟨past, receipt, rest, rfl, -⟩ := called before s k e after rfl own
    exact never receipt (by simp)

theorem Reached.in_order_of_errands :
    ∃ queue, Sample.errands.2.broker.queue? Sample.desk.address = some queue ∧
      queue.fifo = true ∧ ∃ m m' : Stored,
      Ahead Sample.desk.address (incidentsOf Sample.errands.1) m m' ∧
      ∃ before r after, r.id = m'.id ∧
        Sample.errands.1 = before ++ .incident (.delivered Sample.desk.address r) :: after ∧
        RemovedWithin [Sample.clerk] before
          (.incident (.delivered Sample.desk.address r) :: after) Sample.desk.address m.id := by
  have there : Sample.errands.2.broker.queue? Sample.desk.address = some _ := rfl
  have stored : storedAt Sample.desk.address (incidentsOf Sample.errands.1) = [_, _] := rfl
  have ahead : Ahead Sample.desk.address (incidentsOf Sample.errands.1) _ _ :=
    ⟨[_], [], stored, List.mem_singleton_self _, "guests", rfl, rfl⟩
  have delivered : .incident (.delivered Sample.desk.address _) ∈ Sample.errands.1 :=
    List.mem_of_getElem? (i := 12) rfl
  obtain ⟨before, after, split⟩ := List.append_of_mem delivered
  obtain ⟨handed, -, -⟩ := Sample.errands_reached.in_order there rfl ahead
  exact ⟨_, there, rfl, _, _, ahead, before, _, after, rfl, split,
    (handed before _ _ after split rfl).1⟩

end System

end Courier
