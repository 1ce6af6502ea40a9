import Courier.Proofs.Broker.Deduplication
import Courier.Proofs.Broker.Receipts
import Courier.Proofs.Broker.Receiving

/-!
# Journals

Whoever makes all calls of a queue can keep a journal of it from the answers alone: which sends were
accepted under a new identifier, what was delivered, and which messages were deleted. The queue is
what its journal says, however the calls are mixed and whichever of them fail. It holds the messages
that were accepted and not deleted, in the order of their sends, and hands them out as they were
sent.

## Main definitions

* `Journal`, `Journal.record`: a journal, and its next entry.
* `Broker.Recorded`: the histories of a broker with the journals of its queues.
* `Journal.Tells`: a journal says the same as the log of the broker.
* `Broker.KeptAsSent`, `Broker.HandsOut`: a queue is what its journal says, and what a receive call
  does to its messages.

## Main results

* `Broker.Recorded.reached`: journals say the same as the log.
* `Broker.Recorded.kept_as_sent`: a queue is what its journal says.
-/

namespace Courier

namespace Broker

/-- The answer of a call that is about messages. -/
inductive Answer where
  | sent (answer : Except QueueError MessageId)
  | received (answer : Except ReceiveFailure (List Received))
  | deleted (answer : Except QueueError Unit)
  /-- The call is not about messages. -/
  | other

/-- The answer of a call. -/
def answer (b : Broker) (now : Nat) : Call → Answer
  | .send q m => .sent (b.send now q m).1
  | .check q o => .received (b.check now q o).1
  | .delete q receipt => .deleted (b.delete q receipt).1
  | _ => .other

end Broker

/-- What the answers of its calls tell about a queue. -/
structure Journal where
  /-- The sends that were answered with a new identifier. -/
  accepted : List (MessageId × Outbound) := []
  delivered : List Received := []
  deleted : List MessageId := []

namespace Journal

/-- A send is answered with an identifier. When the identifier is that of an earlier send, nothing
is stored for the repetition. -/
def accept (j : Journal) (id : MessageId) (m : Outbound) : Journal :=
  if id ∈ j.accepted.map (·.1) then j else { j with accepted := j.accepted ++ [(id, m)] }

/-- A receive call is answered with a batch. -/
def deliver (j : Journal) (batch : List Received) : Journal :=
  { j with delivered := j.delivered ++ batch }

/-- A delete call succeeds. The message is the one that was delivered with the receipt. -/
def delete (j : Journal) (receipt : Receipt) : Journal :=
  match j.delivered.find? (·.receipt = receipt) with
  | some r => { j with deleted := j.deleted ++ [r.id] }
  | none => j

/-- The journal of the queue at an address after a call. Calls that fail leave no entry. -/
def record (url : String) (j : Journal) : Broker.Call → Broker.Answer → Journal
  | .send q m, .sent (.ok id) => if q.url = url then j.accept id m else j
  | .check q _, .received (.ok batch) => if q.url = url then j.deliver batch else j
  | .delete q receipt, .deleted (.ok ()) => if q.url = url then j.delete receipt else j
  | _, _ => j

/-- The sends that were accepted and whose messages have not been deleted. -/
def present (j : Journal) : List (MessageId × Outbound) :=
  j.accepted.filter (·.1 ∉ j.deleted)

/-- A journal says the same as the log of the broker. -/
structure Tells (url : String) (log : List Incident) (j : Journal) : Prop where
  accepted : j.accepted.map (fun a => a.2.toStored a.1 0) =
    (storedAt url log).map Stored.asSent
  delivered : j.delivered = deliveredAt url log
  deleted : j.deleted = removedAt url log

namespace Tells

variable {url : String} {log new : List Incident} {j : Journal}

theorem ids (h : j.Tells url log) :
    j.accepted.map (·.1) = (storedAt url log).map (·.id) := by
  have ids := congrArg (List.map Stored.id) h.accepted
  rwa [List.map_map, List.map_map] at ids

theorem present (h : j.Tells url log) :
    j.present.map (fun a => a.2.toStored a.1 0) = (presentAt url log).map Stored.asSent := by
  calc j.present.map (fun a => a.2.toStored a.1 0)
      = (j.accepted.map fun a => a.2.toStored a.1 0).filter (·.id ∉ j.deleted) := by
        rw [List.filter_map]
        rfl
    _ = ((storedAt url log).map Stored.asSent).filter (·.id ∉ removedAt url log) := by
        rw [h.accepted, h.deleted]
    _ = (presentAt url log).map Stored.asSent := by
        rw [List.filter_map]
        rfl

theorem spare (h : j.Tells url log) (hs : Spares url new) : j.Tells url (log ++ new) where
  accepted := by simpa [hs.stored] using h.accepted
  delivered := by simpa [hs.delivered] using h.delivered
  deleted := by simpa [hs.removed] using h.deleted

theorem accept (h : j.Tells url log) {id : MessageId} (fresh : id ∉ (storedAt url log).map (·.id))
    (m : Outbound) (now : Nat) :
    (j.accept id m).Tells url (log ++ [.stored url (m.toStored id now)]) := by
  rw [Journal.accept, if_neg (h.ids ▸ fresh)]
  constructor
  · simpa [Outbound.toStored, Stored.asSent] using h.accepted
  · simpa using h.delivered
  · simpa using h.deleted

theorem repeated (h : j.Tells url log) {id : MessageId} (old : id ∈ (storedAt url log).map (·.id))
    (m : Outbound) : (j.accept id m).Tells url log := by
  rwa [Journal.accept, if_pos (h.ids ▸ old)]

theorem deliver (h : j.Tells url log) (batch : List Received) :
    (j.deliver batch).Tells url (log ++ batch.map (.delivered url)) := by
  have stored : storedAt url (batch.map (.delivered url)) = [] := by simp [storedAt]
  have removed : removedAt url (batch.map (.delivered url)) = [] := by simp [removedAt]
  constructor
  · simpa [Journal.deliver, stored] using h.accepted
  · simp [Journal.deliver, h.delivered, deliveredAt_map]
  · simpa [Journal.deliver, removed] using h.deleted

/-- A removal with the receipt of a delivery, which no other delivery bears. -/
theorem delete (h : j.Tells url log) {r : Received} (mem : r ∈ deliveredAt url log)
    (unique : ∀ r' ∈ deliveredAt url log, r'.receipt = r.receipt → r' = r) :
    (j.delete r.receipt).Tells url (log ++ [.removed url r.receipt r.id]) := by
  have found : j.delivered.find? (·.receipt = r.receipt) = some r := by
    rw [h.delivered]
    cases found : (deliveredAt url log).find? (·.receipt = r.receipt) with
    | none => exact absurd (decide_eq_true rfl) (List.find?_eq_none.1 found r mem)
    | some r' =>
      have bears : r'.receipt = r.receipt := of_decide_eq_true (List.find?_some found :)
      exact congrArg some (unique r' (List.mem_of_find?_eq_some found) bears)
  simp only [Journal.delete, found]
  constructor
  · simpa using h.accepted
  · simpa using h.delivered
  · simp [h.deleted]

end Tells

end Journal

/-! ### Histories -/

namespace Broker

variable {log : List Incident} {b : Broker} {journals : String → Journal} {now : Nat}

/-- What comes of a send. -/
inductive SendOutcome (b : Broker) (now : Nat) (q : Identity) (m : Outbound) : Prop
  | refused {e} (answer : (b.send now q m).1 = .error e)
      (incidents : b.incidents now (.send q m) = [])
      (lookup : ∀ url, (b.send now q m).2.queue? url = b.queue? url)
  | repeated {queue w} (there : b.queue? q.url = some queue) (old : w ∈ queue.windows)
      (answer : (b.send now q m).1 = .ok w.id) (incidents : b.incidents now (.send q m) = [])
      (lookup : ∀ url, (b.send now q m).2.queue? url =
        if url = q.url then some (queue.purge now) else b.queue? url)
  | stored {queue} (there : b.queue? q.url = some queue)
      (answer : (b.send now q m).1 = .ok b.mint.drawMessageId.1)
      (incidents : b.incidents now (.send q m) =
        [.stored q.url (m.toStored b.mint.drawMessageId.1 now)])
      (lookup : ∀ url, (b.send now q m).2.queue? url = if url = q.url then
        some ((queue.purge now).store now m b.mint.drawMessageId.1) else b.queue? url)

theorem send_outcome (b : Broker) (now : Nat) (q : Identity) (m : Outbound) :
    b.SendOutcome now q m := by
  by_cases passes : ∃ queue, b.Admits q m queue
  · obtain ⟨queue, admits⟩ := passes
    cases found : (queue.deduplicationOf m).bind (queue.purge now).window? with
    | some w =>
      obtain ⟨stored, answer, -, lookup⟩ := send_repeated now admits found
      obtain ⟨key, -, found⟩ := Option.bind_eq_some_iff.1 found
      have old := (Queue.mem_purge.1 (Queue.mem_of_window? found).1).1
      exact .repeated admits.there old answer (congrArg (List.map _) stored) lookup
    | none =>
      obtain ⟨stored, answer, -, lookup⟩ := send_new now admits found
      exact .stored admits.there answer (congrArg (List.map _) stored) lookup
  · obtain ⟨⟨e, failed⟩, queues⟩ := send_refused now fun queue admits => passes ⟨queue, admits⟩
    have lookup (url : String) : (b.send now q m).2.queue? url = b.queue? url :=
      congrArg (List.lookup url) queues
    refine .refused failed ?_ lookup
    rw [incidents, messages, messages, lookup, List.drop_length, List.map_nil]

/-- What the windows of a queue remember was stored. -/
def WindowsStored (url : String) (log : List Incident) (queue : Option Queue) : Prop :=
  ∀ q, queue = some q → ∀ w ∈ q.windows, w.id ∈ (storedAt url log).map (·.id)

theorem WindowsStored.append {url : String} {queue : Option Queue} (new : List Incident)
    (h : WindowsStored url log queue) : WindowsStored url (log ++ new) queue := by
  intro q there w hw
  rw [storedAt_append, List.map_append]
  exact List.mem_append_left _ (h q there w hw)

theorem WindowsStored.purge {url : String} {queue : Queue} (now : Nat)
    (h : WindowsStored url log (some queue)) : WindowsStored url log (some (queue.purge now)) := by
  intro q same w hw
  cases same
  exact h queue rfl w (Queue.mem_purge.1 hw).1

theorem WindowsStored.store {url : String} {queue : Queue}
    (h : WindowsStored url log (some queue)) (now : Nat) (m : Outbound) (id : MessageId) :
    WindowsStored url (log ++ [.stored url (m.toStored id now)])
      (some (queue.store now m id)) := by
  intro q same w hw
  cases same
  have kept := h.append [.stored url (m.toStored id now)] queue rfl
  simp only [Queue.store] at hw
  split at hw
  · rcases List.mem_cons.1 hw with rfl | hw
    · simp [Outbound.toStored]
    · exact kept w hw
  · exact kept w hw

theorem WindowsStored.send {q : Identity} {m : Outbound}
    (h : ∀ url, WindowsStored url log (b.queue? url)) (url : String) :
    WindowsStored url (log ++ b.incidents now (.send q m)) ((b.send now q m).2.queue? url) := by
  cases b.send_outcome now q m with
  | refused answer incidents lookup => exact lookup url ▸ (h url).append _
  | @repeated queue w there old answer incidents lookup =>
    refine WindowsStored.append _ ?_
    rw [lookup]
    split
    · next same => exact (same ▸ there ▸ h q.url).purge now
    · exact h url
  | @stored queue there answer incidents lookup =>
    rw [lookup]
    split
    · next same =>
      subst same
      rw [incidents]
      exact ((there ▸ h q.url).purge now).store now m _
    · exact (h url).append _

theorem Reached.windowsStored (h : Reached log b) :
    ∀ url, WindowsStored url log (b.queue? url) := by
  induction h with
  | start => exact fun url q there => nomatch there
  | @call log b h now call ih =>
    intro url
    by_cases send : ∃ q m, call = .send q m
    · obtain ⟨q, m, rfl⟩ := send
      exact .send ih url
    · have keeps : KeepsWindows (b.queue? url) ((b.after now call).queue? url) :=
        .after fun q m same => send ⟨q, m, same⟩
      have before := ih url
      refine WindowsStored.append _ ?_
      generalize b.queue? url = queue at keeps before
      generalize (b.after now call).queue? url = queue' at keeps
      cases keeps with
      | absent => exact before
      | built empty =>
        intro q same w hw
        cases same
        rw [empty] at hw
        nomatch hw
      | kept fifo windows =>
        intro q same w hw
        cases same
        exact before _ rfl w (windows ▸ hw)

/-- The states to which calls lead from a broker without queues, with the journals of all
addresses. -/
inductive Recorded : (String → Journal) → Broker → Prop
  | start : Recorded (fun _ => {}) {}
  | call {known b} (h : Recorded known b) (now : Nat) (call : Call) :
      Recorded (fun url => (known url).record url call (b.answer now call)) (b.after now call)

theorem Reached.tells_record (h : Reached log b) (now : Nat) (call : Call) (url : String)
    {j : Journal} (tells : j.Tells url log) :
    (j.record url call (b.answer now call)).Tells url (log ++ b.incidents now call) := by
  have ledger := h.changes.ledger
  have unnoted : j.Tells url (log ++ []) := tells.spare (spares_nil url)
  cases call with
  | send q m =>
    cases b.send_outcome now q m with
    | refused answer incidents lookup =>
      rw [incidents, Broker.answer, answer]
      exact unnoted
    | @repeated queue w there old answer incidents lookup =>
      rw [incidents, Broker.answer, answer]
      simp only [Journal.record]
      split
      · next own =>
        subst own
        refine Journal.Tells.repeated unnoted ?_ m
        exact (h.windowsStored q.url).append [] queue there w old
      · exact unnoted
    | @stored queue there answer incidents lookup =>
      rw [incidents, Broker.answer, answer]
      simp only [Journal.record]
      split
      · next own =>
        subst own
        refine tells.accept (fun mem => ?_) m now
        obtain ⟨m', stored, same⟩ := List.mem_map.1 mem
        have text := Ledger.mem_texts_of_stored stored
        rw [same] at text
        exact ledger.fresh text
      · next other => exact tells.spare (spares_stored other _)
  | check q o =>
    cases found : (b.check now q o).1 with
    | error e =>
      simp only [answer, incidents, found]
      exact unnoted
    | ok batch =>
      simp only [answer, incidents, found, Journal.record]
      split
      · next own =>
        subst own
        exact tells.deliver batch
      · next other =>
        refine tells.spare ⟨?_, ?_, ?_⟩ <;>
          simp [storedAt, deliveredAt, removedAt, List.filterMap_map, other]
  | delete q receipt =>
    rcases b.stock_delete q receipt with
      ⟨e, failed, -⟩ | ⟨removed, fifo, before, m, after, there, current, found, -⟩
    · simp only [answer, incidents, failed]
      exact unnoted
    · simp only [answer, incidents, removed, found, Journal.record]
      split
      · next own =>
        subst own
        have latest := (ledger.agrees q.url _ there).receipt m (by simp)
        obtain ⟨r, delivered, same, rfl⟩ := exists_of_latestReceipt (latest.symm.trans current)
        show Journal.Tells q.url (log ++ [.removed q.url r.receipt m.id]) _
        rw [← same]
        exact tells.delete delivered fun r' delivered' bears =>
          (ledger.delivered_unique delivered' delivered bears).2
      · next other => exact tells.spare (spares_removed other _ _)
  | _ => exact unnoted

/-- Journals say the same as the log. -/
theorem Recorded.reached (h : Recorded journals b) :
    ∃ log, Reached log b ∧ ∀ url, (journals url).Tells url log := by
  induction h with
  | start => exact ⟨[], .start, fun url => ⟨rfl, rfl, rfl⟩⟩
  | call h now call ih =>
    obtain ⟨log, reached, tells⟩ := ih
    exact ⟨_, reached.call now call, fun url => reached.tells_record now call url (tells url)⟩

/-! ### What a queue holds and hands out -/

private theorem length_filter_add {α : Type} {xs : List (MessageId × α)} {gone : List MessageId}
    (distinct : (xs.map (·.1)).Nodup) (once : gone.Nodup) (known : ∀ id ∈ gone, id ∈ xs.map (·.1)) :
    (xs.filter (·.1 ∉ gone)).length + gone.length = xs.length := by
  have away : ((xs.filter (·.1 ∈ gone)).map (·.1)).Perm gone := by
    refine (List.perm_ext_iff_of_nodup (distinct.sublist (List.filter_sublist.map _)) once).2 ?_
    intro id
    simp only [List.mem_map, List.mem_filter, decide_eq_true_eq]
    constructor
    · rintro ⟨x, ⟨-, mem⟩, rfl⟩
      exact mem
    · intro mem
      obtain ⟨x, hx, rfl⟩ := List.mem_map.1 (known id mem)
      exact ⟨x, ⟨hx, mem⟩, rfl⟩
  have both := List.length_eq_length_filter_add (l := xs) (·.1 ∈ gone)
  have size := away.length_eq
  rw [List.length_map] at size
  simp only [← decide_not] at both ⊢
  omega

/-- A receive call changes nothing but the messages that it hands out, unless it is broken off. Then
it has counted the delivery of one message already. -/
theorem Reached.messages_check (h : Reached log b) (now : Nat) (q : Identity) (o : ReceiveOptions) :
    (∀ batch, (b.check now q o).1 = .ok batch →
      List.Forall₂ (fun m m' => m'.asSent = m.asSent ∧ (m.id ∉ batch.map (·.id) → m' = m))
        (b.messages q.url) ((b.check now q o).2.messages q.url) ∧
      ∀ r ∈ batch, r.id ∉ removedAt q.url log) ∧
    (∀ e, (b.check now q o).1 = .error (.refused e) →
      (b.check now q o).2.messages q.url = b.messages q.url) ∧
    ((b.check now q o).1 = .error .beyondClock →
      later? now o.visibilityTimeout = none ∧
      ∃ before m after, b.messages q.url = before ++ m :: after ∧ m.isVisible now = true ∧
        (b.check now q o).2.messages q.url =
          before ++ { m with receiveCount := m.receiveCount + 1 } :: after) ∧
    ∀ url, url ≠ q.url → (b.check now q o).2.messages url = b.messages url := by
  have looks := b.check_looks now q o
  generalize b.check now q o = result at looks
  cases looks with
  | unknown absent =>
    refine ⟨by rintro _ ⟨⟩, fun _ _ => rfl, by rintro ⟨⟩, fun _ _ => rfl⟩
  | @found queue visibleAt batch messages mint there inTime receives =>
    have before : b.messages q.url = queue.messages := messages_of_queue there
    have after (url : String) : ({ b.setQueue q.url { queue with messages } with mint } :
        Broker).messages url = if url = q.url then messages else b.messages url :=
      b.messages_setQueue q.url { queue with messages } url
    refine ⟨?_, by rintro _ ⟨⟩, by rintro ⟨⟩, fun url other => (after url).trans (if_neg other)⟩
    intro _ answer
    cases answer
    rw [after, if_pos rfl, before]
    refine ⟨receives.forall₂, fun r hr => ?_⟩
    obtain ⟨m, mem, same, -⟩ := receives.visible_of_mem hr
    exact same ▸ (h.present_of_mem (before ▸ mem)).1
  | idle there overtime =>
    refine ⟨?_, by rintro _ ⟨⟩, by rintro ⟨⟩, fun _ _ => rfl⟩
    intro _ answer
    cases answer
    exact ⟨List.forall₂_same.2 fun m _ => ⟨rfl, fun _ => rfl⟩, nofun⟩
  | @brokenOff queue before m after there overtime split visible =>
    refine ⟨by rintro _ ⟨⟩, by rintro _ ⟨⟩,
      fun _ => ⟨overtime, before, m, after, ?_, visible, ?_⟩, ?_⟩
    · rw [messages_of_queue there, split]
    · rw [messages_setQueue, if_pos rfl]
    · intro url other
      rw [messages_setQueue, if_neg other]

/-- What a queue holds and what has been delivered from it is what its journal says. It holds the
messages that were accepted and not deleted, as they were sent and in the order of their sends. -/
structure KeptAsSent (journal : Journal) (b : Broker) (q : Identity) : Prop where
  present : (b.messages q.url).map Stored.asSent =
    journal.present.map fun a => a.2.toStored a.1 0
  accepted_once : (journal.accepted.map (·.1)).Nodup
  deleted_once : journal.deleted.Nodup
  deleted_accepted : ∀ id ∈ journal.deleted, id ∈ journal.accepted.map (·.1)
  count : b.count q + journal.deleted.length = journal.accepted.length
  delivered : ∀ r ∈ journal.delivered, ∃ m, (r.id, m) ∈ journal.accepted ∧
    r.body = m.body ∧ r.attributes = m.attributes

/-- What a receive call does to messages, when the identifiers in `gone` are those of deleted ones.
It changes of the messages that it hands out what deliveries change, and no others, unless it is
broken off. Then it hands out nothing, but it has counted the delivery of one message already. -/
structure HandsOut (gone : List MessageId) (b : Broker) (q : Identity) (now : Nat)
    (o : ReceiveOptions) : Prop where
  begins : ∀ url, (b.beginReceive now o).2.messages url = b.messages url
  hands_out : ∀ batch, (b.check now q o).1 = .ok batch →
    List.Forall₂ (fun m m' => m'.asSent = m.asSent ∧ (m.id ∉ batch.map (·.id) → m' = m))
      (b.messages q.url) ((b.check now q o).2.messages q.url) ∧
    ∀ r ∈ batch, r.id ∉ gone
  fails : ∀ e, (b.check now q o).1 = .error (.refused e) →
    (b.check now q o).2.messages q.url = b.messages q.url
  breaks_off : (b.check now q o).1 = .error .beyondClock →
    later? now o.visibilityTimeout = none ∧
    ∃ before m after, b.messages q.url = before ++ m :: after ∧ m.isVisible now = true ∧
      (b.check now q o).2.messages q.url =
        before ++ { m with receiveCount := m.receiveCount + 1 } :: after
  elsewhere : ∀ url, url ≠ q.url → (b.check now q o).2.messages url = b.messages url

/-- A queue holds the messages that were accepted and not deleted, as they were sent and in the
order of their sends; their identifiers differ, and their number is the difference. Every delivery
has the content of an accepted send, however often its message is delivered. A receive call changes
of the messages that it hands out what deliveries change, and no others, and no deleted message is
handed out. Only a receive call whose deliveries would last beyond the clock, and which therefore
hands out nothing, still counts the delivery of one message. -/
theorem Recorded.kept_as_sent (h : Recorded journals b) (q : Identity) :
    KeptAsSent (journals q.url) b q ∧ ∀ now o, HandsOut (journals q.url).deleted b q now o := by
  obtain ⟨log, reached, tells⟩ := h.reached
  have ledger := reached.changes.ledger
  have tells := tells q.url
  have held : (b.messages q.url).map Stored.asSent =
      (journals q.url).present.map (fun a => a.2.toStored a.1 0) :=
    (reached.messages_eq_present q.url).trans tells.present.symm
  have distinct : ((journals q.url).accepted.map (·.1)).Nodup :=
    tells.ids ▸ ledger.ids_nodup q.url
  have once : (journals q.url).deleted.Nodup := tells.deleted ▸ ledger.once q.url
  have known : ∀ id ∈ (journals q.url).deleted, id ∈ (journals q.url).accepted.map (·.1) := by
    rw [tells.deleted, tells.ids]
    exact fun id mem => List.mem_map.2 (ledger.gone q.url id mem)
  refine ⟨⟨held, distinct, once, known, ?_, ?_⟩, fun now o => ?_⟩
  · have size : b.count q = (journals q.url).present.length := by
      have lengths := congrArg List.length held
      rw [List.length_map, List.length_map] at lengths
      rw [← lengths, messages, count]
      cases b.queue? q.url <;> rfl
    rw [size]
    exact length_filter_add distinct once known
  · rw [tells.delivered]
    intro r delivered
    obtain ⟨m₀, stored, id_eq, body, attributes⟩ := reached.changes.delivered_as_stored delivered
    have mem : m₀.asSent ∈ (journals q.url).accepted.map fun a => a.2.toStored a.1 0 :=
      tells.accepted ▸ List.mem_map_of_mem stored
    obtain ⟨⟨id, m⟩, accepted, same⟩ := List.mem_map.1 mem
    obtain ⟨rfl, body', attributes', -⟩ := Stored.mk.inj same
    exact ⟨m, id_eq ▸ accepted, (body'.trans body).symm, (attributes'.trans attributes).symm⟩
  · rw [tells.deleted]
    obtain ⟨handsOut, fails, breaksOff, elsewhere⟩ := reached.messages_check now q o
    refine ⟨fun url => ?_, handsOut, fails, breaksOff, elsewhere⟩
    rw [messages_eq, stock_beginReceive, messages_eq]

end Broker

/-! ### A queue with two accepted messages and one deleted -/

namespace Sample

/-- How nobody can receive messages: they would stay hidden beyond the clock. -/
def forever : ReceiveOptions where
  visibilityTimeout := 18446744073709551615000

/-- After its two deliveries the message has been deleted, and another one has been sent. -/
def refilled : Broker :=
  (fetched.after 20 (.delete window ⟨Mint.text 2⟩)).after 30 (.send window { body := "letter" })

theorem refilled_recorded : ∃ journals, Broker.Recorded journals refilled ∧
    (journals window.url).accepted.map (·.2.body) = ["parcel", "letter"] ∧
    (journals window.url).delivered.length = 2 ∧ (journals window.url).deleted.length = 1 := by
  have sent := (Broker.Recorded.start.call 0 (.create counter)).call 0
    (.send window { body := "parcel" })
  have twice := (sent.call 0 (.check window glance)).call 10 (.check window glance)
  have replaced := (twice.call 20 (.delete window ⟨Mint.text 2⟩)).call 30
    (.send window { body := "letter" })
  exact ⟨_, replaced, rfl, rfl, rfl⟩

end Sample

namespace Broker

/-- One of the two messages is left, and what was delivered is what was sent. -/
theorem Recorded.kept_as_sent_of_parcels :
    Sample.refilled.count Sample.window = 1 ∧
    ∃ journals, Recorded journals Sample.refilled ∧
      (journals Sample.window.url).delivered.length = 2 ∧
      ∀ r ∈ (journals Sample.window.url).delivered, r.body ∈ ["parcel", "letter"] := by
  obtain ⟨journals, recorded, accepted, delivered, deleted⟩ := Sample.refilled_recorded
  obtain ⟨kept, -⟩ := recorded.kept_as_sent Sample.window
  have size := kept.count
  have two : (journals Sample.window.url).accepted.length = 2 := by
    rw [← List.length_map (fun a => a.2.body), accepted]
    rfl
  refine ⟨by omega, journals, recorded, delivered, fun r mem => ?_⟩
  obtain ⟨m, sent, body, -⟩ := kept.delivered r mem
  rw [body, ← accepted]
  exact List.mem_map.2 ⟨_, sent, rfl⟩

/-- A receive call whose deliveries would last beyond the clock hands out nothing, and yet it
changes the number of deliveries of a message. -/
theorem overtime_counts : (∃ log, Reached log Sample.stocked) ∧
    (Sample.stocked.check 0 Sample.window Sample.forever).1 = .error .beyondClock ∧
    (Sample.stocked.messages Sample.window.url).map (·.receiveCount) = [0] ∧
    ((Sample.stocked.check 0 Sample.window Sample.forever).2.messages Sample.window.url).map
      (·.receiveCount) = [1] :=
  ⟨⟨_, (Reached.start.call 0 (.create Sample.counter)).call 0
    (.send Sample.window { body := "parcel" })⟩, rfl, rfl, rfl⟩

end Broker

end Courier
