import Courier.Proofs.Broker.Entries

/-!
# Receipts

A message bears the receipt of its latest delivery until it is delivered again, and no two messages
bear the same one. So a delete call finds the message whose latest delivery has its receipt and no
other, whether that delivery still hides the message or not. Earlier receipts of the message, those
of other queues and those that nobody has given out find nothing.

## Main definitions

* `removals`: the messages that were removed, from whatever queue.

## Main results

* `Ledger.removals_nodup`: a message is removed once.
* `Stock.Changes.not_removed_of_stale`: after a redelivery nothing is removed with the earlier
  receipt.
* `Broker.Reached.latest_receipt_deletes`: what a delete call does in every state of a broker.
-/

namespace Courier

/-- The message that an incident removes from some queue. -/
def Incident.removal? : Incident → Option MessageId
  | .removed _ _ id => some id
  | _ => none

/-- The identifiers of the messages that were removed, from whatever queue, in order. -/
def removals (log : List Incident) : List MessageId :=
  log.filterMap (·.removal?)

theorem mem_removals {id : MessageId} {log : List Incident} :
    id ∈ removals log ↔ ∃ url, id ∈ removedAt url log := by
  simp only [removals, List.mem_filterMap, mem_removedAt]
  constructor
  · rintro ⟨i, mem, eq⟩
    cases i with
    | removed url receipt id' =>
      cases eq
      exact ⟨url, receipt, mem⟩
    | _ => cases eq
  · rintro ⟨url, receipt, mem⟩
    exact ⟨_, mem, rfl⟩

private theorem removals_nodup_of_apart {log : List Incident}
    (once : ∀ url, (removedAt url log).Nodup)
    (apart : ∀ url url' id, id ∈ removedAt url log → id ∈ removedAt url' log → url = url') :
    (removals log).Nodup := by
  induction log with
  | nil => exact List.nodup_nil
  | cons i log ih =>
    have tail (url : String) : (removedAt url log).Sublist (removedAt url (i :: log)) :=
      (List.sublist_cons_self i log).filterMap _
    have rest : (removals log).Nodup := ih (fun url => (once url).sublist (tail url))
      fun url url' id mem mem' =>
        apart url url' id ((tail url).subset mem) ((tail url').subset mem')
    cases i with
    | removed url receipt id =>
      have head : removedAt url (.removed url receipt id :: log) = id :: removedAt url log := by
        simp [removedAt]
      refine List.nodup_cons.2 ⟨fun again => ?_, rest⟩
      obtain ⟨url', mem⟩ := mem_removals.1 again
      obtain rfl := apart url url' id (head ▸ List.mem_cons_self) ((tail url').subset mem)
      have fresh := once url
      rw [head] at fresh
      exact (List.nodup_cons.1 fresh).1 mem
    | _ => exact rest

namespace Ledger

variable {log : List Incident} {s : Stock} {url : String} {shelf : Shelf}

/-- A message is removed once, since it is stored in one queue only. -/
theorem removals_nodup (h : Ledger log s) : (removals log).Nodup := by
  refine removals_nodup_of_apart h.once fun url url' id mem mem' => ?_
  obtain ⟨m, stored, rfl⟩ := h.gone url id mem
  obtain ⟨m', stored', same⟩ := h.gone url' _ mem'
  exact (h.stored_unique stored stored' same.symm).1

/-- A receipt is the latest one of one message only. -/
theorem id_eq_of_latestReceipt (h : Ledger log s) {url url' : String} {id id' : MessageId}
    {receipt : Receipt} (latest : latestReceipt url id log = some receipt)
    (latest' : latestReceipt url' id' log = some receipt) : url = url' ∧ id = id' := by
  obtain ⟨r, delivered, rfl, bears⟩ := exists_of_latestReceipt latest
  obtain ⟨r', delivered', rfl, bears'⟩ := exists_of_latestReceipt latest'
  obtain ⟨rfl, rfl⟩ := h.delivered_unique delivered delivered' (bears.trans bears'.symm)
  exact ⟨rfl, rfl⟩

theorem receipt_ne (h : Ledger log s) {fifo : Bool} {before after : List Stored} {m : Stored}
    (there : s.shelves url = some ⟨fifo, before ++ m :: after⟩) {receipt : Receipt}
    (bears : m.receipt = some receipt) : ∀ m' ∈ before ++ after, m'.receipt ≠ some receipt := by
  have agrees := h.agrees url _ there
  intro m' mem bears'
  have inside : m' ∈ before ++ m :: after := by
    rcases List.mem_append.1 mem with mem | mem <;> simp [mem]
  have latest := (agrees.receipt m (by simp)).symm.trans bears
  have latest' := (agrees.receipt m' inside).symm.trans bears'
  exact h.id_ne there m' mem (h.id_eq_of_latestReceipt latest' latest).2

end Ledger

/-- All deliveries have different receipts. -/
theorem Ledger.deliveries_nodup {log : List Incident} {s : Stock} (h : Ledger log s) :
    ((deliveries log).map (·.receipt)).Nodup := by
  have sublist (log : List Incident) :
      ((deliveries log).map (·.receipt.text)).Sublist (log.filterMap Incident.text?) := by
    induction log with
    | nil => exact .slnil
    | cons i log ih =>
      cases i with
      | stored url' m => exact ih.cons _
      | delivered url' r => exact ih.cons_cons _
      | removed url' receipt id => exact ih
  have texts : (((deliveries log).map (·.receipt)).map (·.text)).Nodup := by
    simpa [Function.comp_def] using h.distinct.sublist (sublist log)
  exact List.Nodup.of_map _ texts

theorem deliveredAt_sublist (url : String) (log : List Incident) :
    (deliveredAt url log).Sublist (deliveries log) := by
  induction log with
  | nil => exact .slnil
  | cons i log ih =>
    cases i with
    | stored url' m => exact ih
    | delivered url' r =>
      by_cases here : url' = url
      · simpa [deliveredAt, deliveries, Incident.delivered?, here] using ih
      · simpa [deliveredAt, deliveries, Incident.delivered?, here] using ih.cons _
    | removed url' receipt id => exact ih

/-- The deliveries from a queue have different receipts. -/
theorem Ledger.receipts_nodup {log : List Incident} {s : Stock} (h : Ledger log s)
    (url : String) : ((deliveredAt url log).map (·.receipt)).Nodup :=
  h.deliveries_nodup.sublist ((deliveredAt_sublist url log).map _)

/-- The latest delivery of a message that has been delivered again is not an earlier one. -/
theorem exists_of_latestReceipt_redelivered {url : String} {r' : Received}
    {past rest : List Incident} {receipt : Receipt}
    (latest : latestReceipt url r'.id (past ++ .delivered url r' :: rest) = some receipt) :
    receipt ∈ (r' :: deliveredAt url rest).map (·.receipt) := by
  have split : (deliveredAt url (past ++ .delivered url r' :: rest)).filter (·.id = r'.id) =
      (deliveredAt url past).filter (·.id = r'.id) ++
        r' :: (deliveredAt url rest).filter (·.id = r'.id) := by
    simp [deliveredAt]
  obtain ⟨x, last, rfl⟩ := Option.map_eq_some_iff.1 latest
  rw [split, List.getLast?_append_cons] at last
  have mem := List.mem_of_getLast? last
  refine List.mem_map_of_mem ?_
  rcases List.mem_cons.1 mem with rfl | mem
  · exact List.mem_cons_self
  · exact List.mem_cons_of_mem _ (List.mem_filter.1 mem).1

namespace Stock.Changes

variable {before between after : List Incident} {url : String} {r r' : Received} {s : Stock}

/-- When a message has been delivered again, the earlier receipt is no latest receipt. -/
theorem latestReceipt_ne_stale
    (h : Changes {} (before ++ .delivered url r :: between ++ .delivered url r' :: after) s)
    (same : r'.id = r.id) (url' : String) (id : MessageId) : latestReceipt url' id
      (before ++ .delivered url r :: between ++ .delivered url r' :: after) ≠ some r.receipt := by
  intro latest
  have ledger := h.ledger
  have own : r ∈ deliveredAt url
      (before ++ .delivered url r :: between ++ .delivered url r' :: after) :=
    mem_deliveredAt.2 (by simp)
  obtain ⟨x, delivered, rfl, bears⟩ := exists_of_latestReceipt latest
  obtain ⟨rfl, rfl⟩ := ledger.delivered_unique delivered own bears
  rw [← same] at latest
  have later := exists_of_latestReceipt_redelivered latest
  have distinct := ledger.receipts_nodup url'
  have split : deliveredAt url'
      (before ++ .delivered url' x :: between ++ .delivered url' r' :: after) =
      deliveredAt url' (before ++ .delivered url' x :: between) ++
        r' :: deliveredAt url' after := by
    simp [deliveredAt]
  rw [split, List.map_append, List.nodup_append] at distinct
  have earlier : x.receipt ∈
      (deliveredAt url' (before ++ .delivered url' x :: between)).map (·.receipt) :=
    List.mem_map_of_mem (mem_deliveredAt.2 (by simp))
  exact distinct.2.2 _ earlier _ later rfl

/-- When a message has been delivered again, nothing is removed with the earlier receipt. -/
theorem not_removed_of_stale
    (h : Changes {} (before ++ .delivered url r :: between ++ .delivered url r' :: after) s)
    (same : r'.id = r.id) (url' : String) (id : MessageId) :
    .removed url' r.receipt id ∉ after := by
  intro removed
  obtain ⟨mid, rest, rfl⟩ := List.append_of_mem removed
  rw [← List.cons_append, ← List.append_assoc] at h
  obtain ⟨s₀, s₁, made, -⟩ := h.split
  exact made.latestReceipt_ne_stale same url' id h.removed_current.1

end Stock.Changes

/-! ### Delete calls -/

/-- A removal finds a message that bears the receipt, if there is one. -/
theorem Queue.remove?_eq {q : Queue} {before after : List Stored} {m : Stored} {receipt : Receipt}
    (split : q.messages = before ++ m :: after) (bears : m.receipt = some receipt)
    (others : ∀ m' ∈ before ++ after, m'.receipt ≠ some receipt) :
    q.remove? receipt = some { q with messages := before ++ after } := by
  have found : q.messages.any (·.receipt = some receipt) = true :=
    List.any_eq_true.2 ⟨m, by simp [split], decide_eq_true bears⟩
  have erased : q.messages.eraseP (·.receipt = some receipt) = before ++ after := by
    rw [split, List.eraseP_append_right _ fun m' mem => by
      simpa using others m' (List.mem_append_left _ mem), List.eraseP_cons_of_pos (by simpa)]
  rw [remove?, if_pos found, erased]

theorem Queue.remove?_eq_none {q : Queue} {receipt : Receipt}
    (none_ : ∀ m ∈ q.messages, m.receipt ≠ some receipt) : q.remove? receipt = none := by
  rw [remove?, if_neg (by simpa using none_)]

namespace Broker

variable {b : Broker} {q : Identity} {queue : Queue}

/-- A delete call that is counted, and does nothing else. -/
def deleteCounted (b : Broker) : Broker :=
  { b with calls.delete := b.calls.delete + 1 }

/-- A delete call whose failure nobody has asked for looks for its receipt in the queue. -/
theorem delete_eq (there : b.queue? q.url = some queue) (unspent : b.faults.delete = 0)
    (receipt : Receipt) : b.delete q receipt = match queue.remove? receipt with
      | some rest => (.ok (), b.deleteCounted.setQueue q.url rest)
      | none => (.error (.messageNotFound receipt.text), b.deleteCounted) := by
  have spent : b.deleteCounted.spendFault .delete = none := spendFault_eq_none.2 unspent
  have there' : b.deleteCounted.queue? q.url = some queue := there
  unfold deleteCounted at spent there' ⊢
  cases removed : queue.remove? receipt with
  | some rest => simp only [delete, spent, there', removed]
  | none => simp only [delete, spent, there', removed]

theorem messages_of_queue {url : String} (there : b.queue? url = some queue) :
    b.messages url = queue.messages := by
  simp [messages, there]

namespace Reached

variable {log : List Incident} {receipt : Receipt}

/-- A delete call with the latest receipt of a message removes that message. -/
theorem delete_current (h : Reached log b) (there : b.queue? q.url = some queue)
    (unspent : b.faults.delete = 0) {before after : List Stored} {m : Stored}
    (split : queue.messages = before ++ m :: after)
    (latest : latestReceipt q.url m.id log = some receipt) (now : Nat) :
    b.delete q receipt =
        (.ok (), b.deleteCounted.setQueue q.url { queue with messages := before ++ after }) ∧
      b.incidents now (.delete q receipt) = [.removed q.url receipt m.id] := by
  have ledger := h.changes.ledger
  have shelf := shelves_of_queue there
  have bears : m.receipt = some receipt :=
    ((ledger.agrees q.url _ shelf).receipt m (by simp [split])).trans latest
  rw [split] at shelf
  have others := ledger.receipt_ne shelf bears
  have deleted := delete_eq there unspent receipt
  rw [Queue.remove?_eq split bears others] at deleted
  refine ⟨deleted, ?_⟩
  have found : queue.messages.find? (·.receipt = some receipt) = some m := by
    rw [split]
    refine List.find?_eq_some_iff_append.2 ⟨decide_eq_true bears, before, after, rfl, ?_⟩
    intro m' mem
    simpa using others m' (List.mem_append_left _ mem)
  simp only [incidents, deleted, messages_of_queue there, found]
  rfl

/-- A delete call with another receipt fails, and is only counted. -/
theorem delete_other (h : Reached log b) (there : b.queue? q.url = some queue)
    (unspent : b.faults.delete = 0)
    (none_ : ∀ m ∈ queue.messages, latestReceipt q.url m.id log ≠ some receipt) :
    b.delete q receipt = (.error (.messageNotFound receipt.text), b.deleteCounted) := by
  have agrees := h.changes.ledger.agrees q.url _ (shelves_of_queue there)
  have deleted := delete_eq there unspent receipt
  rwa [Queue.remove?_eq_none fun m mem => agrees.receipt m mem ▸ none_ m mem] at deleted

/-- In every state of a broker, a delete call succeeds exactly when a message that is still in the
queue was last delivered with its receipt, whether or not that delivery still hides the message. It
removes that message and leaves all else as it was. Otherwise it fails, and nothing but the number
of calls changes. So a message is removed once, and a receipt after which the message was delivered
again never removes anything. -/
theorem latest_receipt_deletes (h : Reached log b) :
    (∀ q queue receipt, b.queue? q.url = some queue → b.faults.delete = 0 →
      ((b.delete q receipt).1 = .ok () ↔
        ∃ m ∈ queue.messages, latestReceipt q.url m.id log = some receipt) ∧
      (∀ before m after, queue.messages = before ++ m :: after →
        latestReceipt q.url m.id log = some receipt →
        (b.delete q receipt).2 =
          b.deleteCounted.setQueue q.url { queue with messages := before ++ after } ∧
        ∀ now, b.incidents now (.delete q receipt) = [.removed q.url receipt m.id]) ∧
      ((∀ m ∈ queue.messages, latestReceipt q.url m.id log ≠ some receipt) →
        b.delete q receipt = (.error (.messageNotFound receipt.text), b.deleteCounted))) ∧
    (removals log).Nodup ∧
    ∀ before url r between r' after,
      log = before ++ .delivered url r :: between ++ .delivered url r' :: after → r'.id = r.id →
      (∀ url' id, .removed url' r.receipt id ∉ after) ∧
        ∀ q queue, b.queue? q.url = some queue → b.faults.delete = 0 →
          b.delete q r.receipt = (.error (.messageNotFound r.receipt.text), b.deleteCounted) := by
  refine ⟨fun q queue receipt there unspent => ⟨⟨fun answer => ?_, ?_⟩, ?_, ?_⟩,
    h.changes.ledger.removals_nodup, ?_⟩
  · by_contra none_
    rw [h.delete_other there unspent fun m mem latest => none_ ⟨m, mem, latest⟩] at answer
    cases answer
  · rintro ⟨m, mem, latest⟩
    obtain ⟨before, after, split⟩ := List.append_of_mem mem
    rw [(h.delete_current there unspent split latest 0).1]
  · intro before m after split latest
    refine ⟨?_, fun now => (h.delete_current there unspent split latest now).2⟩
    rw [(h.delete_current there unspent split latest 0).1]
  · exact h.delete_other there unspent
  · rintro before url r between r' after rfl same
    refine ⟨h.changes.not_removed_of_stale same, fun q queue there unspent => ?_⟩
    exact h.delete_other there unspent fun m _ => h.changes.latestReceipt_ne_stale same q.url m.id

end Reached

end Broker

/-! ### A message that is delivered twice -/

namespace Sample

/-- A queue whose messages may be delivered in any order. -/
def counter : Locator where
  name := ⟨"parcels", by decide⟩

/-- The queue as it is found. -/
def window : Identity :=
  ⟨counter.name, counter.address⟩

/-- How messages are received there: they stay hidden for ten milliseconds. -/
def glance : ReceiveOptions where
  visibilityTimeout := 10

/-- A message has been sent. -/
def stocked : Broker :=
  (({} : Broker).after 0 (.create counter)).after 0 (.send window { body := "parcel" })

/-- The message has been delivered, and again when it was no longer hidden. -/
def fetched : Broker :=
  (stocked.after 0 (.check window glance)).after 10 (.check window glance)

/-- What has happened to the message. -/
def fetches : List Incident :=
  stocked.incidents 0 (.check window glance) ++
    (stocked.after 0 (.check window glance)).incidents 10 (.check window glance)

/-- The log of the broker. -/
def parcels : List Incident :=
  ({} : Broker).incidents 0 (.create counter) ++
    (({} : Broker).after 0 (.create counter)).incidents 0 (.send window { body := "parcel" }) ++
    fetches

theorem fetched_reached : Broker.Reached parcels fetched := by
  have sent := (Broker.Reached.start.call 0 (.create counter)).call 0
    (.send window { body := "parcel" })
  have twice := (sent.call 0 (.check window glance)).call 10 (.check window glance)
  rwa [List.append_assoc] at twice

end Sample

namespace Broker

/-- The first receipt is stale; the second one still removes the message after its time. -/
theorem Reached.latest_receipt_deletes_of_parcels :
    (Sample.fetched.delete Sample.window ⟨Mint.text 1⟩).1 =
      .error (.messageNotFound (Mint.text 1)) ∧
    (Sample.fetched.delete Sample.window ⟨Mint.text 2⟩).1 = .ok () ∧
    Sample.fetched.inFlight 20 Sample.window = 0 := by
  obtain ⟨rule, -, stale⟩ := Sample.fetched_reached.latest_receipt_deletes
  have there : Sample.fetched.queue? Sample.window.url = some _ := rfl
  have log : Sample.parcels = [_] ++ .delivered _ _ :: [] ++ .delivered _ _ :: [] := rfl
  obtain ⟨-, refused⟩ := stale _ _ _ _ _ _ log rfl
  obtain ⟨⟨-, accepted⟩, -⟩ := rule Sample.window _ ⟨Mint.text 2⟩ there rfl
  exact ⟨congrArg Prod.fst (refused Sample.window _ there rfl),
    accepted ⟨_, List.mem_singleton_self _, rfl⟩, rfl⟩

end Broker

end Courier
