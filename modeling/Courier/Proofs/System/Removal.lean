import Courier.Proofs.Broker.Entries
import Courier.Proofs.Pipeline.Acknowledgement
import Courier.Proofs.System.History

/-!
# Removals

A message leaves its queue only by a delete call of a run, and a run makes such a call only for a
delivery whose handler has ended well. The broker accepts the call only if it bears the receipt of
the latest delivery of the message. Since no receipt is given twice, that delivery is the one whose
handler has ended well, so no message is lost.

## Main definitions

* `System.Rightful`: a removal comes after the success of the handler.

## Main results

* `System.Reached.rightful`: every removal is rightful.
* `System.Reached.kept_or_acknowledged`: a message that was stored is in its queue, or was removed
  once and rightfully.
-/

namespace Courier.System

/-- A message is removed from the queue at `url` after `before`: the call belongs to a run of a
consumer of that queue, which is told so at once, and was made for the latest delivery of the
message, whose handler was called and had ended well. -/
def Rightful (consumers : List Consumer) (before after : List Occurrence) (url : String)
    (receipt : Receipt) (id : MessageId) : Prop :=
  latestReceipt url id (incidentsOf before) = some receipt ∧
    ∃ s k c e rest, consumers[s]? = some c ∧ c.queue.url = url ∧
      after = .event s k (.deleted e (.ok ())) :: rest ∧ e.id = id ∧ e.receipt = receipt ∧
      .event s k (.started e) ∈ before ∧ .event s k (.returned e .ok) ∈ before

variable {consumers : List Consumer} {history : List Occurrence} {sys sys' : System}
  {a : Action} {events : List Event}

/-- A delete call is made by a worker that is about to make one. -/
private theorem call?_eq_delete {c : Consumer} {now : Nat} {b : Broker} {u : Unsettled} {r : Run}
    {m : Move} {effect : Effect} (h : r.Makes c now b u m effect) {q : Identity}
    {receipt : Receipt} (call : r.call? c m = some (.delete q receipt)) :
    ∃ (w : Nat) (e : Envelope), r.pipeline.workers[w]? = some (.deleting e) ∧ q = c.queue ∧
      receipt = e.receipt ∧ effect.events = [.deleted e (b.delete q receipt).1, .settled e] := by
  cases h with
  | @delete w e x at_ step =>
    simp only [Run.call?, at_, Option.some.injEq, Broker.Call.delete.injEq] at call
    obtain ⟨rfl, rfl⟩ := call
    refine ⟨w, e, at_, rfl, rfl, ?_⟩
    have moves := Pipeline.moves_of_step step
    clear step
    cases moves with
    | advance at' step => cases step
    | release at' step =>
      cases step with
      | answered r =>
        rw [at_] at at'
        cases at'
        rfl
  | send at_ step =>
    simp only [Run.call?, at_] at call
    cases call
  | _ => cases call

/-- The step of a removal: a run makes a delete call, and nothing else is added to the history
before what it is told. -/
private theorem removal_step (hx : sys.step a = some (sys', events)) {url : String}
    {receipt : Receipt} {id : MessageId} {first last : List Occurrence}
    (occ : sys.occurrences a events = first ++ .incident (.removed url receipt id) :: last) :
    first = [] ∧ ∃ s k sub run, ∃ (w : Nat) (e : Envelope), sys.subscribers[s]? = some sub ∧
      sub.runs[k]? = some run ∧ run.pipeline.workers[w]? = some (.deleting e) ∧
      sub.consumer.queue.url = url ∧ e.receipt = receipt ∧
      last = [.event s k (.deleted e (.ok ())), .event s k (.settled e)] := by
  have mem : .removed url receipt id ∈ sys.broker.incidentsOfSome sys.now (sys.call? a) := by
    rw [← incidentsOf_occurrences sys a events, mem_incidentsOf, occ]
    simp
  cases called : sys.call? a with
  | none =>
    rw [called] at mem
    nomatch mem
  | some call =>
    rw [called] at mem
    obtain ⟨q, rfl, rfl, answer, only⟩ := Broker.removed_mem_incidents mem
    cases a with
    | move s k m =>
      obtain ⟨sub, run, effect, hs, hk, makes, rfl, -⟩ := makes_of_step hx
      rw [call?_move hs hk] at called
      obtain ⟨w, e, at_, rfl, rfl, told⟩ := call?_eq_delete makes called
      have made : sys.occurrences (.move s k m) effect.events =
          [.incident (.removed sub.consumer.queue.url e.receipt id),
            .event s k (.deleted e (.ok ())), .event s k (.settled e)] := by
        rw [occurrences, call?_move hs hk, called, Broker.incidentsOfSome, Option.elim, only, told,
          answer]
        rfl
      rw [made] at occ
      rcases List.cons_eq_append_iff.1 occ with ⟨rfl, here⟩ | ⟨first, rfl, there⟩
      · exact ⟨rfl, s, k, sub, run, w, e, hs, hk, at_, rfl, rfl, (List.cons.inj here).2⟩
      · have mem : Occurrence.incident (.removed sub.consumer.queue.url e.receipt id) ∈
            [Occurrence.event s k (.deleted e (.ok ())), .event s k (.settled e)] := by
          simp [there]
        simp at mem
    | _ => cases called

/-- The handler of a delivery that a worker is deleting was called and has ended well. -/
private theorem deleting_succeeded (h : Reached consumers history sys) {s k w : Nat}
    {sub : Subscriber} {run : Run} {e : Envelope} (hs : sys.subscribers[s]? = some sub)
    (hk : sub.runs[k]? = some run) (at_ : run.pipeline.workers[w]? = some (.deleting e)) :
    (∃ r ∈ deliveredAt sub.consumer.queue.url (incidentsOf history),
      e.id = r.id ∧ e.receipt = r.receipt) ∧
    .event s k (.started e) ∈ history ∧ .event s k (.returned e .ok) ∈ history := by
  obtain ⟨d, carried, delivered, observed⟩ := h.carried hs hk at_ rfl
  obtain ⟨b, cancelled, first, deeds, -, -, -, life⟩ := carried.called
  obtain ⟨id_eq, receipt_eq, -⟩ := Envelope.ofReceived_eq_ok carried.accepted
  have started : .started e ∈ d.events := by simp [life]
  have returned : .returned e .ok ∈ d.events := by simp [life]
  exact ⟨⟨d.message, delivered, id_eq, receipt_eq⟩, observed _ started, observed _ returned⟩

/-- Every removal is rightful. -/
theorem Reached.rightful {before after : List Occurrence} {url : String} {receipt : Receipt}
    {id : MessageId}
    (h : Reached consumers (before ++ .incident (.removed url receipt id) :: after) sys) :
    Rightful consumers before after url receipt id := by
  have log := h.broker.changes
  obtain ⟨past, sys₀, a, sys₁, events, first, last, reached, hx, occ, rfl, told⟩ := h.split
  obtain ⟨rfl, s, k, sub, run, w, e, hs, hk, at_, rfl, rfl, rfl⟩ := removal_step hx occ
  rw [List.append_nil] at log ⊢
  rw [incidentsOf_append] at log
  have current := (Stock.Changes.removed_current log).1
  obtain ⟨⟨r, delivered, id_eq, receipt_eq⟩, started, returned⟩ :=
    deleting_succeeded reached hs hk at_
  obtain ⟨r', delivered', own, same⟩ := exists_of_latestReceipt current
  obtain ⟨-, rfl⟩ := reached.broker.changes.ledger.delivered_unique delivered' delivered
    (same.trans receipt_eq)
  obtain ⟨rest, rfl⟩ := told
  exact ⟨current, s, k, sub.consumer, e, _, reached.consumer hs, rfl, rfl, id_eq.trans own, rfl,
    started, returned⟩

/-- A message is removed from the queue in which it was stored. -/
theorem Reached.removed_there (h : Reached consumers history sys) {url url' : String} {m : Stored}
    {receipt : Receipt} (stored : .incident (.stored url m) ∈ history)
    (removed : .incident (.removed url' receipt m.id) ∈ history) : url' = url := by
  have ledger := h.broker.changes.ledger
  have gone := mem_removedAt.2 ⟨receipt, mem_incidentsOf.2 removed⟩
  obtain ⟨m', stored', same⟩ := ledger.gone url' _ gone
  exact (ledger.stored_unique stored' (mem_storedAt.2 (mem_incidentsOf.2 stored)) same).1

/-- A message is removed at one place of the history only. -/
theorem Reached.removed_once {before after : List Occurrence} {url : String} {m : Stored}
    {receipt : Receipt}
    (h : Reached consumers (before ++ .incident (.removed url receipt m.id) :: after) sys)
    (stored : .incident (.stored url m) ∈ before ++ .incident (.removed url receipt m.id) :: after)
    (url' : String) (receipt' : Receipt) :
    .incident (.removed url' receipt' m.id) ∉ before ++ after := by
  intro removed
  have again : Occurrence.incident (.removed url' receipt' m.id) ∈
      before ++ .incident (.removed url receipt m.id) :: after := by
    rw [List.mem_append] at removed
    simp [removed, or_left_comm]
  obtain rfl : url' = url := h.removed_there stored again
  have once := h.broker.changes.ledger.once url'
  have split : removedAt url' (incidentsOf (before ++
      .incident (.removed url' receipt m.id) :: after)) =
        removedAt url' (incidentsOf before) ++ m.id :: removedAt url' (incidentsOf after) := by
    simp [incidentsOf, removedAt, Occurrence.incident?]
  rw [split, List.nodup_middle, List.nodup_cons, ← removedAt_append, ← incidentsOf_append] at once
  exact once.1 (mem_removedAt.2 ⟨receipt', mem_incidentsOf.2 removed⟩)

/-- No message is lost: at every point of a history, a message that was stored is still in its queue
as it was sent, or one delete call has removed it, rightfully. -/
theorem Reached.kept_or_acknowledged (h : Reached consumers history sys) {url : String}
    {m : Stored} (stored : .incident (.stored url m) ∈ history) :
    (∃ m' ∈ sys.broker.messages url, m'.asSent = m.asSent) ∧
      (∀ url' receipt, .incident (.removed url' receipt m.id) ∉ history) ∨
    (∀ m' ∈ sys.broker.messages url, m'.id ≠ m.id) ∧ ∃ before receipt after,
      history = before ++ .incident (.removed url receipt m.id) :: after ∧
      Rightful consumers before after url receipt m.id ∧
      ∀ url' receipt', .incident (.removed url' receipt' m.id) ∉ before ++ after := by
  have ledger := h.broker.changes.ledger
  have storedAt_ : m ∈ storedAt url (incidentsOf history) :=
    mem_storedAt.2 (mem_incidentsOf.2 stored)
  cases there : sys.broker.stock.shelves url with
  | none =>
    rw [ledger.empty url there] at storedAt_
    nomatch storedAt_
  | some shelf =>
    have messages : sys.broker.messages url = shelf.messages := by
      simp [Broker.messages_eq, there]
    rw [messages]
    by_cases gone : m.id ∈ removedAt url (incidentsOf history)
    · right
      obtain ⟨receipt, removed⟩ := mem_removedAt.1 gone
      obtain ⟨before, after, rfl⟩ := List.append_of_mem (mem_incidentsOf.1 removed)
      refine ⟨?_, before, receipt, after, rfl, h.rightful, h.removed_once stored⟩
      intro m' hm' same
      exact (ledger.exists_present there hm').1 (same ▸ gone)
    · left
      refine ⟨ledger.exists_message there storedAt_ gone, fun url' receipt removed => gone ?_⟩
      obtain rfl := h.removed_there stored removed
      exact mem_removedAt.2 ⟨receipt, mem_incidentsOf.2 removed⟩

end Courier.System

/-! ### A history with removals -/

namespace Courier

namespace Sample

/-- The name of a queue that keeps its messages in order. -/
def desk : Locator where
  name := ⟨"letters.fifo", by decide⟩

/-- A consumer of that queue that accepts greetings. -/
def clerk : Consumer where
  settings := { queue := desk.name, workers := 1 }
  registry := host.registry
  queue := ⟨desk.name, desk.address⟩

/-- A greeting to be sent. -/
def letter : Outbound where
  body := placeholder
  attributes := greeting.attributes
  group := some "guests"

/-- The moves of a run that receives a message and deletes it. -/
def turn : List Move :=
  [.beginReceive, .look, .internal .push, .internal (.takeRaw 0), .internal (.decode 0),
    .internal (.offer 0), .internal (.takeDecoded 0), .internal (.start 0),
    .internal (.proceed 0), .internal (.callDelete 0), .delete 0]

/-- Two greetings are sent, and a run of the consumer accepts both. -/
def errand : List System.Action :=
  [.create desk, .send clerk.queue letter, .send clerk.queue letter, .start 0] ++
    (turn ++ turn).map (.move 0 0)

/-- Where these steps lead. -/
def errands : List System.Occurrence × System :=
  (System.replay [] (.initial [clerk]) errand).get rfl

theorem errands_reached : System.Reached [clerk] errands.1 errands.2 :=
  System.Reached.start.replay (Option.some_get _).symm

end Sample

namespace System

theorem Reached.acknowledged_of_errands :
    ∃ m : Stored, .incident (.stored Sample.desk.address m) ∈ Sample.errands.1 ∧
      (∀ m' ∈ Sample.errands.2.broker.messages Sample.desk.address, m'.id ≠ m.id) ∧
      ∃ before receipt after, Sample.errands.1 =
          before ++ .incident (.removed Sample.desk.address receipt m.id) :: after ∧
        Rightful [Sample.clerk] before after Sample.desk.address receipt m.id := by
  have stored : .incident (.stored Sample.desk.address _) ∈ Sample.errands.1 :=
    List.mem_of_getElem? (i := 0) rfl
  have removed : .incident (.removed Sample.desk.address _ _) ∈ Sample.errands.1 :=
    List.mem_of_getElem? (i := 9) rfl
  refine ⟨_, stored, ?_⟩
  rcases Sample.errands_reached.kept_or_acknowledged stored with
    ⟨-, never⟩ | ⟨gone, before, receipt, after, split, rightful, -⟩
  · exact absurd removed (never _ _)
  · exact ⟨gone, before, receipt, after, split, rightful⟩

end System

end Courier
