import Courier.Broker.Poll
import Courier.Proofs.Broker.Journal
import Courier.Proofs.Broker.Receiving
import Mathlib.Data.List.Induction

/-!
# Handouts

A history in which the clock never goes back keeps, for every message, the deliveries that were made
of it, each with its instant and the time for which it hides the message. What the queue knows of a
message is what its deliveries have left: how many there were, until when the latest one hides it,
and the receipt of that one. So the deliveries of a message are counted one after the other, in
thirty-two bits, and none begins before the one before it is over.

A receive call whose deliveries would last beyond the clock counts a delivery that it does not make.
The number of the next delivery is one too high then, and this is the only gap that there can be.

## Main definitions

* `Handout`, `Reception`: a delivery with its times, and what a receive call does to a message.
* `Broker.Clocked`: the histories of a broker in which the clock never goes back.
* `Stored.Left`: a message is as its deliveries have left it.
* `Broker.Paces`: how deliveries are counted, and when they are made.

## Main results

* `Broker.Clocked.attended`: the messages of all queues are as their deliveries have left them.
* `Broker.Clocked.counted_and_apart`: deliveries are counted one after the other and made apart.
-/

namespace Courier

/-- A delivery, with its instant and the time for which it hides its message. -/
structure Handout where
  time : Nat
  hides : Nat
  delivery : Received

namespace Handout

/-- When the delivery no longer hides its message. -/
def expiry (x : Handout) : Nat :=
  x.time + x.hides

/-- Whether the delivery hides its message at an instant. -/
def isLive (instant : Nat) (x : Handout) : Bool :=
  x.time ≤ instant && instant < x.expiry

end Handout

/-- What a receive call does to a message. -/
inductive Reception where
  | handed (x : Handout)
  /-- The call is broken off when it has counted a delivery of the message. -/
  | counted (id : MessageId)

namespace Reception

/-- The message that is received. -/
def id : Reception → MessageId
  | handed x => x.delivery.id
  | counted id => id

/-- The delivery that is made. -/
def handout? : Reception → Option Handout
  | handed x => some x
  | counted _ => none

end Reception

/-- The deliveries of all messages, in order. -/
def handouts (seen : List Reception) : List Handout :=
  seen.filterMap (·.handout?)

/-- What receive calls did to a message. -/
def receptionsOf (id : MessageId) (seen : List Reception) : List Reception :=
  seen.filter (·.id = id)

/-- The deliveries of a message, in order. -/
def handoutsOf (id : MessageId) (seen : List Reception) : List Handout :=
  handouts (receptionsOf id seen)

section

variable {id : MessageId} {seen : List Reception} {now hides : Nat} {batch : List Received}

theorem handouts_append (seen new : List Reception) :
    handouts (seen ++ new) = handouts seen ++ handouts new :=
  List.filterMap_append

theorem receptionsOf_append (id : MessageId) (seen new : List Reception) :
    receptionsOf id (seen ++ new) = receptionsOf id seen ++ receptionsOf id new :=
  List.filter_append ..

theorem handoutsOf_append (id : MessageId) (seen new : List Reception) :
    handoutsOf id (seen ++ new) = handoutsOf id seen ++ handoutsOf id new := by
  rw [handoutsOf, receptionsOf_append, handouts_append]
  rfl

theorem mem_handoutsOf {x : Handout} :
    x ∈ handoutsOf id seen ↔ .handed x ∈ seen ∧ x.delivery.id = id := by
  simp only [handoutsOf, handouts, receptionsOf, List.mem_filterMap, List.mem_filter,
    decide_eq_true_eq]
  constructor
  · rintro ⟨⟨y⟩ | _, ⟨mem, own⟩, eq⟩
    · cases eq
      exact ⟨mem, own⟩
    · cases eq
  · rintro ⟨mem, own⟩
    exact ⟨.handed x, ⟨mem, own⟩, rfl⟩

/-- The receptions of a batch. -/
def handedOut (now hides : Nat) (batch : List Received) : List Reception :=
  batch.map fun r => .handed ⟨now, hides, r⟩

theorem receptionsOf_handedOut (id : MessageId) :
    receptionsOf id (handedOut now hides batch) =
      handedOut now hides (batch.filter (·.id = id)) := by
  rw [receptionsOf, handedOut, List.filter_map]
  rfl

theorem receptionsOf_handedOut_eq_nil (other : id ∉ batch.map (·.id)) :
    receptionsOf id (handedOut now hides batch) = [] := by
  rw [receptionsOf_handedOut, List.filter_eq_nil_iff.2]
  · rfl
  · intro r hr own
    exact other (of_decide_eq_true own ▸ List.mem_map_of_mem hr)

theorem handouts_handedOut (now hides : Nat) (batch : List Received) :
    handouts (handedOut now hides batch) = batch.map (⟨now, hides, ·⟩) := by
  induction batch with
  | nil => rfl
  | cons r batch ih => exact congrArg (_ :: ·) ih

end

/-! ### A message and its deliveries -/

/-- A message is as its deliveries have left it at an instant. -/
structure Stored.Left (seen : List Reception) (clock : Nat) (m : Stored) : Prop where
  count : m.receiveCount = .ofNat (receptionsOf m.id seen).length
  fresh : handoutsOf m.id seen = [] → m.visibleAt ≤ clock ∧ m.receipt = none
  latest : ∀ x, (handoutsOf m.id seen).getLast? = some x →
    m.visibleAt = x.expiry ∧ m.receipt = some x.delivery.receipt
  past : ∀ x ∈ handoutsOf m.id seen, x.expiry ≤ m.visibleAt

namespace Stored.Left

variable {seen new : List Reception} {clock now : Nat} {m : Stored}

theorem pass (h : m.Left seen clock) (later : clock ≤ now) (others : receptionsOf m.id new = []) :
    m.Left (seen ++ new) now := by
  have same : handoutsOf m.id (seen ++ new) = handoutsOf m.id seen := by
    rw [handoutsOf_append, handoutsOf, handoutsOf, others]
    exact List.append_nil _
  constructor
  · rw [receptionsOf_append, others, List.append_nil]
    exact h.count
  · rw [same]
    intro none_
    exact ⟨Nat.le_trans (h.fresh none_).1 later, (h.fresh none_).2⟩
  · rw [same]
    exact h.latest
  · rw [same]
    exact h.past

/-- The message is delivered at an instant at which it is not hidden. -/
theorem hand (h : m.Left seen clock) (visible : m.visibleAt ≤ now) {hides : Nat}
    {receipt : Receipt}
    (own : receptionsOf m.id new = [.handed ⟨now, hides, m.toReceived receipt⟩]) :
    (m.delivered receipt (now + hides)).Left (seen ++ new) now := by
  have snoc : handoutsOf m.id (seen ++ new) =
      handoutsOf m.id seen ++ [⟨now, hides, m.toReceived receipt⟩] := by
    rw [handoutsOf_append, handoutsOf, handoutsOf, own]
    rfl
  constructor
  · show m.receiveCount + 1 = .ofNat (receptionsOf m.id (seen ++ new)).length
    rw [receptionsOf_append, own, List.length_append, h.count, UInt32.ofNat_add]
    rfl
  · show handoutsOf m.id (seen ++ new) = [] → _
    simp [snoc]
  · show ∀ x, (handoutsOf m.id (seen ++ new)).getLast? = some x → _
    rw [snoc, List.getLast?_concat]
    rintro x ⟨⟩
    exact ⟨rfl, rfl⟩
  · show ∀ x ∈ handoutsOf m.id (seen ++ new), x.expiry ≤ now + hides
    rw [snoc]
    intro x mem
    rcases List.mem_append.1 mem with mem | mem
    · have := h.past x mem
      omega
    · rw [List.mem_singleton.1 mem]
      exact Nat.le_refl _

/-- A delivery of the message is counted that is not made. -/
theorem counted (h : m.Left seen clock) (later : clock ≤ now) :
    { m with receiveCount := m.receiveCount + 1 : Stored }.Left
      (seen ++ [.counted m.id]) now := by
  have own : receptionsOf m.id [.counted m.id] = [.counted m.id] := by
    simp [receptionsOf, Reception.id]
  have same : handoutsOf m.id (seen ++ [.counted m.id]) = handoutsOf m.id seen := by
    rw [handoutsOf_append, handoutsOf, handoutsOf, own]
    exact List.append_nil _
  constructor
  · show m.receiveCount + 1 = .ofNat (receptionsOf m.id (seen ++ [.counted m.id])).length
    rw [receptionsOf_append, own, List.length_append, h.count, UInt32.ofNat_add]
    rfl
  · show handoutsOf m.id _ = [] → _
    rw [same]
    intro none_
    exact ⟨Nat.le_trans (h.fresh none_).1 later, (h.fresh none_).2⟩
  · show ∀ x, (handoutsOf m.id _).getLast? = some x → _
    rw [same]
    exact h.latest
  · show ∀ x ∈ handoutsOf m.id _, _
    rw [same]
    exact h.past

end Stored.Left

/-! ### Deliveries in their order -/

/-- Every delivery is counted after all that was counted of its message before, and begins when the
one before it is over. -/
structure Orderly (seen : List Reception) : Prop where
  counted : ∀ before x after, seen = before ++ .handed x :: after →
    x.delivery.receiveCount = .ofNat ((receptionsOf x.delivery.id before).length + 1)
  apart : ∀ id, (handoutsOf id seen).Pairwise fun x y => x.expiry ≤ y.time

namespace Orderly

variable {seen new : List Reception} {id : MessageId}

theorem append (h : Orderly seen)
    (counted : ∀ before x after, new = before ++ .handed x :: after →
      receptionsOf x.delivery.id before = [] ∧
        x.delivery.receiveCount = .ofNat ((receptionsOf x.delivery.id seen).length + 1))
    (apart : ∀ id, (handoutsOf id new).Pairwise fun x y => x.expiry ≤ y.time)
    (past : ∀ x, .handed x ∈ new → ∀ y ∈ handoutsOf x.delivery.id seen, y.expiry ≤ x.time) :
    Orderly (seen ++ new) := by
  constructor
  · intro before x after split
    rcases List.append_eq_append_iff.1 split with ⟨mid, rfl, made⟩ | ⟨mid, rfl, made⟩
    · obtain ⟨none_, count⟩ := counted mid x after made
      rw [receptionsOf_append, none_, List.append_nil, count]
    · cases mid with
      | nil =>
        obtain ⟨-, count⟩ := counted [] x after made.symm
        simpa using count
      | cons y mid =>
        obtain ⟨rfl, -⟩ := List.cons.inj made
        exact h.counted before x mid rfl
  · intro id
    rw [handoutsOf_append, List.pairwise_append]
    refine ⟨h.apart id, apart id, fun y hy x hx => ?_⟩
    obtain ⟨mem, rfl⟩ := mem_handoutsOf.1 hx
    exact past x mem y hy

/-- As long as every delivery that is counted is made, the deliveries of a message are counted from
one without a gap. -/
theorem receiveCounts (h : Orderly seen) (made : .counted id ∉ seen) :
    (handoutsOf id seen).map (·.delivery.receiveCount) =
      (List.range' 1 (receptionsOf id seen).length).map UInt32.ofNat := by
  induction seen using List.reverseRecOn with
  | nil => rfl
  | append_singleton seen x ih =>
    have earlier : Orderly seen := by
      refine ⟨fun before x' after split => ?_, fun id => ?_⟩
      · exact h.counted before x' (after ++ [x]) (by simp [split])
      · have apart := h.apart id
        rw [handoutsOf_append, List.pairwise_append] at apart
        exact apart.1
    have before := ih earlier fun mem => made (List.mem_append_left _ mem)
    rw [handoutsOf_append, receptionsOf_append, List.map_append, before]
    cases x with
    | counted id' =>
      have other : id' ≠ id := by
        rintro rfl
        exact made (by simp)
      have none_ : receptionsOf id [.counted id'] = [] := by
        simp [receptionsOf, Reception.id, other]
      simp [handoutsOf, none_, handouts]
    | handed y =>
      by_cases own : y.delivery.id = id
      · subst own
        have next := h.counted seen y [] rfl
        have one : receptionsOf y.delivery.id [.handed y] = [.handed y] := by
          simp [receptionsOf, Reception.id]
        rw [handoutsOf, one, List.length_append]
        show _ ++ [y.delivery.receiveCount] = (List.range' 1 (_ + 1)).map UInt32.ofNat
        rw [List.range'_concat, List.map_append, next, Nat.one_mul, Nat.add_comm]
        rfl
      · have none_ : receptionsOf id [.handed y] = [] := by simp [receptionsOf, Reception.id, own]
        simp [handoutsOf, none_, handouts]

/-- Two deliveries of a message never hide it at the same time. -/
theorem live_le_one (h : Orderly seen) (id : MessageId) (instant : Nat) :
    ((handoutsOf id seen).filter (·.isLive instant)).length ≤ 1 := by
  have apart := (h.apart id).filter (·.isLive instant)
  have live : ∀ x ∈ (handoutsOf id seen).filter (·.isLive instant),
      x.time ≤ instant ∧ instant < x.expiry := by
    intro x mem
    simpa [Handout.isLive] using (List.mem_filter.1 mem).2
  generalize (handoutsOf id seen).filter (·.isLive instant) = both at apart live ⊢
  rcases both with _ | ⟨x, _ | ⟨y, rest⟩⟩
  · exact Nat.zero_le _
  · exact Nat.le_refl _
  · have elapsed := (List.pairwise_cons.1 apart).1 y List.mem_cons_self
    have first := live x List.mem_cons_self
    have second := live y (by simp)
    omega

end Orderly

/-! ### Receive calls -/

namespace Queue

variable {now visibleAt : Nat} {ms ms' : List Stored} {batch : List Received}

namespace Receives

theorem ids_sublist (h : Receives now visibleAt ms batch ms') :
    (batch.map (·.id)).Sublist (ms.map (·.id)) := by
  induction h with
  | done => exact .slnil
  | pass m h ih => exact ih.cons _
  | hand visible receipt h ih => exact ih.cons_cons _

theorem exists_of_mem (h : Receives now visibleAt ms batch ms') {r : Received} (hr : r ∈ batch) :
    ∃ m ∈ ms, ∃ receipt, r = m.toReceived receipt ∧ m.visibleAt ≤ now := by
  induction h with
  | done => exact absurd hr List.not_mem_nil
  | pass m h ih =>
    obtain ⟨m', mem, rest⟩ := ih hr
    exact ⟨m', List.mem_cons_of_mem _ mem, rest⟩
  | @hand m _ _ _ visible receipt h ih =>
    rcases List.mem_cons.1 hr with rfl | hr
    · exact ⟨m, List.mem_cons_self, receipt, rfl, of_decide_eq_true visible⟩
    · obtain ⟨m', mem, rest⟩ := ih hr
      exact ⟨m', List.mem_cons_of_mem _ mem, rest⟩

/-- A message of the queue after the call was not handed out and is what it was, or was handed out
once. -/
theorem before (h : Receives now visibleAt ms batch ms') (distinct : (ms.map (·.id)).Nodup)
    {m' : Stored} (mem : m' ∈ ms') : ∃ m ∈ ms, m' = m ∧ m.id ∉ batch.map (·.id) ∨
      ∃ receipt, m' = m.delivered receipt visibleAt ∧ m.visibleAt ≤ now ∧
        batch.filter (·.id = m.id) = [m.toReceived receipt] := by
  induction h with
  | done => exact absurd mem List.not_mem_nil
  | @pass ms batch ms' m h ih =>
    obtain ⟨apart, distinct⟩ := List.nodup_cons.1 distinct
    rcases List.mem_cons.1 mem with rfl | mem
    · exact ⟨m', List.mem_cons_self, .inl ⟨rfl, fun own => apart (h.ids_sublist.subset own)⟩⟩
    · obtain ⟨m₀, mem₀, rest⟩ := ih distinct mem
      exact ⟨m₀, List.mem_cons_of_mem _ mem₀, rest⟩
  | @hand m ms batch ms' visible receipt h ih =>
    obtain ⟨apart, distinct⟩ := List.nodup_cons.1 distinct
    have own : (m.toReceived receipt).id = m.id := rfl
    rcases List.mem_cons.1 mem with rfl | mem
    · refine ⟨m, List.mem_cons_self, .inr ⟨receipt, rfl, of_decide_eq_true visible, ?_⟩⟩
      have others : batch.filter (·.id = m.id) = [] := by
        refine List.filter_eq_nil_iff.2 fun r hr same => apart (h.ids_sublist.subset ?_)
        exact List.mem_map.2 ⟨r, hr, of_decide_eq_true same⟩
      simp [own, others]
    · obtain ⟨m₀, mem₀, rest⟩ := ih distinct mem
      have other : m.id ≠ m₀.id := fun same => apart (List.mem_map.2 ⟨m₀, mem₀, same.symm⟩)
      refine ⟨m₀, List.mem_cons_of_mem _ mem₀, ?_⟩
      rw [List.filter_cons_of_neg (by simpa [own] using other), List.map_cons, List.mem_cons, own]
      rcases rest with ⟨rfl, passed⟩ | handed
      · exact .inl ⟨rfl, fun own => own.elim (fun same => other same.symm) passed⟩
      · exact .inr handed

end Receives

/-- The first message that a receive call would hand out, at which it is broken off. -/
def next? (q : Queue) (now max : Nat) : Option Stored :=
  ((q.select now max).find? (·.2)).map (·.1)

end Queue

namespace Broker

/-- What a call does to messages as a receive call. -/
def receptions (b : Broker) (now : Nat) : Call → List Reception
  | .check q o =>
    match (b.check now q o).1 with
    | .ok batch => handedOut now o.visibilityTimeout batch
    | .error .beyondClock =>
      (((b.queue? q.url).bind (·.next? now o.maxMessages)).map (.counted ·.id)).toList
    | .error (.refused _) => []
  | _ => []

/-- The states to which calls lead from a broker without queues, with what receive calls and what
all calls did to messages, and the clock. No call has an earlier instant than the one before it. -/
inductive Clocked : List Reception → List Incident → Nat → Broker → Prop
  | start : Clocked [] [] 0 {}
  | call {seen log clock b} (h : Clocked seen log clock b) {now} (later : clock ≤ now)
      (call : Call) :
      Clocked (seen ++ b.receptions now call) (log ++ b.incidents now call) now (b.after now call)

/-- The messages of all queues are as their deliveries have left them. -/
structure Attended (seen : List Reception) (log : List Incident) (clock : Nat) (b : Broker) :
    Prop where
  orderly : Orderly seen
  left : ∀ url, ∀ m ∈ b.messages url, m.Left seen clock
  /-- Only messages that were stored are received. -/
  origin : ∀ x ∈ seen, ∃ url, ∃ m ∈ storedAt url log, m.id = x.id

variable {b b' : Broker} {seen : List Reception} {log : List Incident} {clock now : Nat}

/-- A call that is not a receive call leaves a message as it is, or stores one. -/
theorem mem_messages_of_after {call : Call} (other : ∀ q o, call ≠ .check q o) {url : String}
    {m : Stored} (mem : m ∈ (b.after now call).messages url) : m ∈ b.messages url ∨
      ∃ id out, id.text = Mint.text b.stock.next ∧ m = Outbound.toStored out id now := by
  cases call with
  | create l => exact .inl (b.messages_create l url ▸ mem)
  | resolve l =>
    left
    rwa [after, messages_eq, stock_resolve, ← messages_eq] at mem
  | failNext op count | draw => exact .inl mem
  | send q out =>
    rw [after, messages_eq] at mem
    rcases b.stock_send now q out with same | ⟨fifo, ms, id, there, minted, stored⟩
    · left
      rwa [same, ← messages_eq] at mem
    · rw [stored, Stock.drawn_shelves] at mem
      by_cases own : url = q.url
      · subst own
        rw [Stock.set_shelves_self] at mem
        rcases List.mem_append.1 mem with mem | mem
        · left
          rwa [messages_eq, there]
        · exact .inr ⟨id, out, minted, List.mem_singleton.1 mem⟩
      · left
        rwa [Stock.set_shelves_of_ne _ own, ← messages_eq] at mem
  | beginReceive o =>
    left
    rwa [after, messages_eq, stock_beginReceive, ← messages_eq] at mem
  | check q o => exact absurd rfl (other q o)
  | delete q receipt =>
    left
    rw [after, messages_eq] at mem
    rcases b.stock_delete q receipt with
      ⟨e, -, same⟩ | ⟨-, fifo, before, m', after, there, -, -, rest⟩
    · rwa [same, ← messages_eq] at mem
    · rw [rest] at mem
      by_cases own : url = q.url
      · subst own
        rw [Stock.set_shelves_self] at mem
        rw [messages_eq, there]
        exact (List.Sublist.append_left (List.sublist_cons_self m' after) before).subset mem
      · rwa [Stock.set_shelves_of_ne _ own, ← messages_eq] at mem

theorem receptions_eq_nil {call : Call} (other : ∀ q o, call ≠ .check q o) :
    b.receptions now call = [] := by
  cases call with
  | check q o => exact absurd rfl (other q o)
  | _ => rfl

/-- A receive call that is broken off has counted a delivery of one message. -/
theorem check_brokenOff {q : Identity} {o : ReceiveOptions}
    (beyond : (b.check now q o).1 = .error .beyondClock) : ∃ queue before m after,
      b.queue? q.url = some queue ∧ queue.messages = before ++ m :: after ∧
      b.receptions now (.check q o) = [.counted m.id] ∧
      (b.check now q o).2 = b.setQueue q.url { queue with
        messages := before ++ { m with receiveCount := m.receiveCount + 1 } :: after } := by
  simp only [receptions, beyond]
  rw [check] at beyond ⊢
  cases there : b.queue? q.url with
  | none =>
    rw [there] at beyond
    cases beyond
  | some queue =>
    rw [there] at beyond
    cases inTime : later? now o.visibilityTimeout with
    | some visibleAt =>
      rw [inTime] at beyond
      cases beyond
    | none =>
      rw [inTime] at beyond
      by_cases marked : (queue.select now o.maxMessages).any (·.2) = true
      · obtain ⟨before, m, after, split, found, counted⟩ := Queue.countFirst_eq marked
        rw [Queue.select, Queue.map_selectFrom] at split
        refine ⟨queue, before, m, after, rfl, split, ?_, ?_⟩
        · simp [Queue.next?, found]
        · simp [marked, counted]
      · simp [marked] at beyond

namespace Attended

private theorem origin_append (h : Attended seen log clock b) (new : List Incident) :
    ∀ x ∈ seen, ∃ url, ∃ m ∈ storedAt url (log ++ new), m.id = x.id := by
  intro x hx
  obtain ⟨url, m, stored, own⟩ := h.origin x hx
  refine ⟨url, m, ?_, own⟩
  rw [storedAt_append]
  exact List.mem_append_left _ stored

/-- What a call that is not a receive call stores is new. -/
theorem call (h : Attended seen log clock b) (reached : Reached log b) (later : clock ≤ now)
    {call : Call} (other : ∀ q o, call ≠ .check q o) :
    Attended (seen ++ b.receptions now call) (log ++ b.incidents now call) now
      (b.after now call) := by
  rw [receptions_eq_nil other]
  constructor
  · rw [List.append_nil]
    exact h.orderly
  · intro url m mem
    rcases mem_messages_of_after other mem with mem | ⟨id, out, minted, rfl⟩
    · exact (h.left url m mem).pass later rfl
    · have unseen : receptionsOf id seen = [] := by
        refine List.filter_eq_nil_iff.2 fun x hx own => ?_
        obtain ⟨url', m₀, stored, same⟩ := h.origin x hx
        have text := Ledger.mem_texts_of_stored stored
        rw [same, of_decide_eq_true own, minted] at text
        exact reached.changes.ledger.fresh text
      rw [List.append_nil]
      constructor <;> simp [Outbound.toStored, handoutsOf, unseen, handouts]
  · rw [List.append_nil]
    exact h.origin_append _

/-- A receive call hands out a batch. -/
theorem hand (h : Attended seen log clock b) (reached : Reached log b) (later : clock ≤ now)
    {q : Identity} {queue : Queue} (there : b.queue? q.url = some queue) {hides : Nat}
    {batch : List Received} {messages : List Stored}
    (receives : Queue.Receives now (now + hides) queue.messages batch messages)
    (after : ∀ url, b'.messages url = if url = q.url then messages else b.messages url)
    (new : List Incident) :
    Attended (seen ++ handedOut now hides batch) (log ++ new) now b' := by
  have inside : b.messages q.url = queue.messages := by rw [Broker.messages, there]; rfl
  have distinct : (queue.messages.map (·.id)).Nodup :=
    reached.changes.ledger.shelf_nodup (shelves_of_queue there)
  have once : (batch.map (·.id)).Nodup := distinct.sublist receives.ids_sublist
  constructor
  · refine h.orderly.append ?_ ?_ ?_
    · intro before x after split
      obtain ⟨rs, rs', rfl, rfl, made⟩ := List.map_eq_append_iff.1 split
      obtain ⟨r, rest, rfl, made, -⟩ := List.map_eq_cons_iff.1 made
      cases made
      refine ⟨receptionsOf_handedOut_eq_nil ?_, ?_⟩
      · rw [List.map_append, List.map_cons] at once
        exact fun mem => (List.nodup_append.1 once).2.2 _ mem _ List.mem_cons_self rfl
      · obtain ⟨m, mem, receipt, rfl, -⟩ := receives.exists_of_mem (r := r) (by simp)
        have count := (h.left q.url m (inside ▸ mem)).count
        rw [UInt32.ofNat_add]
        exact congrArg (· + 1) count
    · intro id
      rw [handoutsOf, receptionsOf_handedOut, handouts_handedOut, List.pairwise_map]
      have same : (batch.filter (·.id = id)).Pairwise fun r r' => r.id ≠ r'.id :=
        (List.pairwise_map.1 once).filter _
      refine same.imp_of_mem fun hr hr' other => ?_
      exact absurd ((of_decide_eq_true (List.mem_filter.1 hr).2).trans
        (of_decide_eq_true (List.mem_filter.1 hr').2).symm) other
    · intro x mem y hy
      obtain ⟨r, hr, made⟩ := List.mem_map.1 mem
      cases made
      obtain ⟨m, own, receipt, rfl, visible⟩ := receives.exists_of_mem hr
      exact Nat.le_trans ((h.left q.url m (inside ▸ own)).past y hy) visible
  · intro url m' mem
    rw [after] at mem
    by_cases own : url = q.url
    · rw [if_pos own] at mem
      obtain ⟨m, hm, ⟨rfl, passed⟩ | ⟨receipt, rfl, visible, handed⟩⟩ :=
        receives.before distinct mem
      · exact (h.left q.url m' (inside ▸ hm)).pass later (receptionsOf_handedOut_eq_nil passed)
      · refine (h.left q.url m (inside ▸ hm)).hand visible ?_
        rw [receptionsOf_handedOut, handed]
        rfl
    · rw [if_neg own] at mem
      refine (h.left url m' mem).pass later (receptionsOf_handedOut_eq_nil fun again => ?_)
      obtain ⟨r, hr, same⟩ := List.mem_map.1 again
      obtain ⟨m, hm, receipt, rfl, -⟩ := receives.exists_of_mem hr
      exact own (reached.message_unique (inside ▸ hm) mem same).1.symm
  · intro x hx
    rcases List.mem_append.1 hx with hx | hx
    · exact h.origin_append new x hx
    · obtain ⟨r, hr, rfl⟩ := List.mem_map.1 hx
      obtain ⟨m, hm, receipt, rfl, -⟩ := receives.exists_of_mem hr
      obtain ⟨-, m₀, stored, own⟩ := reached.present_of_mem (inside ▸ hm)
      refine ⟨q.url, m₀, ?_, own⟩
      rw [storedAt_append]
      exact List.mem_append_left _ stored

/-- A receive call is broken off. -/
theorem count (h : Attended seen log clock b) (reached : Reached log b) (later : clock ≤ now)
    {q : Identity} {queue : Queue} {before rest : List Stored} {m : Stored}
    (there : b.queue? q.url = some queue) (split : queue.messages = before ++ m :: rest)
    (after : ∀ url, b'.messages url = if url = q.url then
      before ++ { m with receiveCount := m.receiveCount + 1 } :: rest else b.messages url)
    (new : List Incident) :
    Attended (seen ++ [.counted m.id]) (log ++ new) now b' := by
  have inside : b.messages q.url = before ++ m :: rest := by
    rw [Broker.messages, there, ← split]
    rfl
  have own : m ∈ b.messages q.url := by simp [inside]
  have others {m' : Stored} (other : m'.id ≠ m.id) : receptionsOf m'.id [.counted m.id] = [] := by
    simp [receptionsOf, Reception.id, other.symm]
  constructor
  · refine h.orderly.append ?_ ?_ ?_
    · intro before x after split
      obtain ⟨rfl, made⟩ | ⟨bef, rfl, made⟩ := List.cons_eq_append_iff.1 split <;> simp at made
    · intro id
      by_cases same : m.id = id <;> simp [handoutsOf, receptionsOf, handouts, Reception.id, same,
        Reception.handout?]
    · intro x mem
      simp at mem
  · intro url m' mem
    rw [after] at mem
    split at mem
    · next same =>
      subst same
      have shelf := shelves_of_queue there
      rw [split] at shelf
      have apart := reached.changes.ledger.id_ne shelf
      have kept {m' : Stored} (mem : m' ∈ before ++ rest) :
          m'.Left (seen ++ [.counted m.id]) now := by
        refine (h.left q.url m' (inside ▸ ?_)).pass later (others (apart m' mem))
        exact (List.Sublist.append_left (List.sublist_cons_self m rest) before).subset mem
      rcases List.mem_append.1 mem with mem | mem
      · exact kept (List.mem_append_left _ mem)
      · rcases List.mem_cons.1 mem with rfl | mem
        · exact (h.left q.url m own).counted later
        · exact kept (List.mem_append_right _ mem)
    · next other =>
      refine (h.left url m' mem).pass later (others fun same => other ?_)
      exact (reached.message_unique mem own same).1
  · intro x hx
    rcases List.mem_append.1 hx with hx | hx
    · exact h.origin_append new x hx
    · rw [List.mem_singleton.1 hx]
      obtain ⟨-, m₀, stored, same⟩ := reached.present_of_mem own
      refine ⟨q.url, m₀, ?_, same⟩
      rw [storedAt_append]
      exact List.mem_append_left _ stored

theorem check (h : Attended seen log clock b) (reached : Reached log b) (later : clock ≤ now)
    (q : Identity) (o : ReceiveOptions) :
    Attended (seen ++ b.receptions now (.check q o)) (log ++ b.incidents now (.check q o)) now
      (b.check now q o).2 := by
  by_cases beyond : (b.check now q o).1 = .error .beyondClock
  · obtain ⟨queue, before, m, rest, there, split, counted, changed⟩ := check_brokenOff beyond
    rw [counted, changed]
    exact h.count reached later there split (b.messages_setQueue q.url _) _
  · have same : Attended (seen ++ []) (log ++ b.incidents now (.check q o)) now b := by
      rw [List.append_nil]
      refine ⟨h.orderly, fun url m mem => ?_, h.origin_append _⟩
      have left : m.Left (seen ++ []) now := (h.left url m mem).pass later rfl
      rwa [List.append_nil] at left
    have looks := b.check_looks now q o
    simp only [receptions]
    generalize b.incidents now (.check q o) = new at same ⊢
    generalize b.check now q o = result at looks beyond ⊢
    cases looks with
    | unknown absent | idle there overtime => exact same
    | @found queue visibleAt batch messages mint there inTime receives =>
      obtain ⟨-, rfl⟩ : now + o.visibilityTimeout ≤ lastInstant ∧
          now + o.visibilityTimeout = visibleAt := by simpa [later?] using inTime
      refine h.hand reached later there receives (fun url => ?_) new
      exact b.messages_setQueue q.url { queue with messages } url
    | brokenOff => exact absurd rfl beyond

end Attended

namespace Clocked

theorem reached (h : Clocked seen log clock b) : Reached log b := by
  induction h with
  | start => exact .start
  | call h later call ih => exact ih.call _ call

/-- The messages of all queues are as their deliveries have left them. -/
theorem attended (h : Clocked seen log clock b) : Attended seen log clock b := by
  induction h with
  | start =>
    refine ⟨⟨?_, fun id => .nil⟩, fun url => List.forall_mem_nil _,
      List.forall_mem_nil _⟩
    intro before x after split
    simp at split
  | @call seen log clock b h now later call ih =>
    by_cases check : ∃ q o, call = .check q o
    · obtain ⟨q, o, rfl⟩ := check
      exact ih.check h.reached later q o
    · exact ih.call h.reached later fun q o same => check ⟨q, o, same⟩

theorem handouts_eq (h : Clocked seen log clock b) :
    (handouts seen).map (·.delivery) = deliveries log := by
  induction h with
  | start => rfl
  | @call seen log clock b h now later call ih =>
    rw [handouts_append, List.map_append, deliveries_append, ih]
    refine congrArg _ ?_
    by_cases check : ∃ q o, call = .check q o
    · obtain ⟨q, o, rfl⟩ := check
      rcases answer : (b.check now q o).1 with (e | _) | batch
      · simp [receptions, incidents, answer, handouts, deliveries]
      · obtain ⟨-, -, m, -, -, -, counted, -⟩ := check_brokenOff answer
        rw [counted, incidents, answer]
        rfl
      · simp only [receptions, incidents, answer]
        rw [handouts_handedOut, deliveries_map, List.map_map]
        exact List.map_id batch
    · have other : ∀ q o, call ≠ .check q o := fun q o same => check ⟨q, o, same⟩
      rw [receptions_eq_nil other, b.deliveries_incidents now other]
      rfl

end Clocked

/-- What a waiting call answers was found in one look. -/
theorem check_of_poll {others : Nat → Nat → Broker → Broker}
    (keep : ∀ now next log b, Reached log b → ∃ log, Reached log (others now next b))
    {q : Identity} {o : ReceiveOptions} {deadline : Nat} {batch : List Received}
    (reached : Reached log b) (answer : (b.poll others q o deadline now).1 = .ok batch) :
    ∃ log b now, Reached log b ∧ (b.check now q o).1 = .ok batch := by
  fun_induction poll others q o deadline now b generalizing log with
  | case1 now b e b' failed => cases answer
  | case2 now b batch' b' found last =>
    cases answer
    exact ⟨log, b, now, reached, congrArg Prod.fst found⟩
  | case3 now b batch' b' found next again bounds ih =>
    have looked := reached.call now (.check q o)
    rw [after, found] at looked
    obtain ⟨log, reached⟩ := keep now next _ b' looked
    exact ih reached answer

theorem Reached.batch_nodup (h : Reached log b) {q : Identity} {o : ReceiveOptions}
    {batch : List Received} (answer : (b.check now q o).1 = .ok batch) :
    (batch.map (·.id)).Nodup := by
  have looks := b.check_looks now q o
  generalize b.check now q o = result at looks answer
  cases looks with
  | unknown absent => cases answer
  | @found queue visibleAt _ messages mint there inTime receives =>
    cases answer
    exact (h.changes.ledger.shelf_nodup (shelves_of_queue there)).sublist receives.ids_sublist
  | idle there overtime =>
    cases answer
    exact List.nodup_nil
  | brokenOff => cases answer

/-- How the deliveries of a history are counted, and when they are made. -/
structure Paces (seen : List Reception) (log : List Incident) : Prop where
  delivered : (handouts seen).map (·.delivery) = deliveries log
  counted : ∀ before x after, seen = before ++ .handed x :: after →
    x.delivery.receiveCount = .ofNat ((receptionsOf x.delivery.id before).length + 1)
  gapless : ∀ id, .counted id ∉ seen → (handoutsOf id seen).length < UInt32.size →
    (handoutsOf id seen).map (·.delivery.receiveCount.toNat) =
      List.range' 1 (handoutsOf id seen).length
  apart : ∀ id, (handoutsOf id seen).Pairwise fun x y => x.time + x.hides ≤ y.time
  one : ∀ id instant, ((handoutsOf id seen).filter (·.isLive instant)).length ≤ 1
  receipts : ((handouts seen).map (·.delivery.receipt)).Nodup

namespace Clocked

theorem paces (h : Clocked seen log clock b) : Paces seen log where
  delivered := h.handouts_eq
  counted := h.attended.orderly.counted
  gapless id made few := by
    have counts := h.attended.orderly.receiveCounts made
    have size := congrArg List.length counts
    rw [List.length_map, List.length_map, List.length_range'] at size
    rw [← size] at counts
    have exact_ : ∀ n ∈ List.range' 1 (handoutsOf id seen).length, (UInt32.ofNat n).toNat = n := by
      intro n mem
      exact UInt32.toNat_ofNat_of_lt' (by rw [UInt32.size]; grind)
    calc (handoutsOf id seen).map (·.delivery.receiveCount.toNat)
        = ((handoutsOf id seen).map (·.delivery.receiveCount)).map UInt32.toNat := by
          rw [List.map_map]
          rfl
      _ = (List.range' 1 (handoutsOf id seen).length).map fun n => (UInt32.ofNat n).toNat := by
          rw [counts, List.map_map]
          rfl
      _ = List.range' 1 (handoutsOf id seen).length := by
          rw [List.map_congr_left exact_, List.map_id']
  apart := h.attended.orderly.apart
  one := h.attended.orderly.live_le_one
  receipts := by
    have receipts := h.reached.changes.ledger.deliveries_nodup
    rw [← h.handouts_eq, List.map_map] at receipts
    exact receipts

/-- A delivery is counted after everything that was counted of its message before, so that the
deliveries of a message are counted from one without a gap, as long as no receive call was broken
off at the message and there are fewer than 2³². No delivery is made before the one before it is
over, whoever asks for it, and at every instant one at most hides the message. All deliveries have
different receipts, and no receive call answers with a message twice, whatever others do while it
waits. -/
theorem counted_and_apart (h : Clocked seen log clock b) : Paces seen log ∧
    ∀ others : Nat → Nat → Broker → Broker,
      (∀ now next log b, Reached log b → ∃ log, Reached log (others now next b)) →
      ∀ now q o batch, (b.receive others now q o).1 = .ok batch → (batch.map (·.id)).Nodup := by
  refine ⟨h.paces, fun others keep now q o batch answer => ?_⟩
  simp only [receive] at answer
  split at answer
  · cases answer
  · next deadline b' began =>
    have begun := h.reached.call now (.beginReceive o)
    rw [after, began] at begun
    obtain ⟨log, b, now, reached, found⟩ := check_of_poll keep begun answer
    exact reached.batch_nodup found

/-- Ten milliseconds lie between the two deliveries of the message, and the first one hides it for
ten milliseconds. -/
theorem counted_and_apart_of_fetches : ∃ seen, Clocked seen Sample.parcels 10 Sample.fetched ∧
    (handouts seen).map (fun x => (x.time, x.hides, x.delivery.receiveCount)) =
      [(0, 10, 1), (10, 10, 2)] ∧
    (∀ id instant, ((handoutsOf id seen).filter (·.isLive instant)).length ≤ 1) ∧
    (deliveries Sample.parcels).length = 2 := by
  have sent := (Clocked.start.call (Nat.le_refl 0) (.create Sample.counter)).call (Nat.le_refl 0)
    (.send Sample.window { body := "parcel" })
  have twice := (sent.call (Nat.le_refl 0) (.check Sample.window Sample.glance)).call
    (Nat.zero_le 10) (.check Sample.window Sample.glance)
  rw [List.append_assoc _ _ (Broker.incidents _ 10 _)] at twice
  obtain ⟨paces, -⟩ := twice.counted_and_apart
  exact ⟨_, twice, rfl, paces.one, rfl⟩

/-- A receive call is broken off at a message that has never been delivered, and the first delivery
of the message has the number two. -/
theorem first_delivery_second : ∃ seen log, Clocked seen log 0
      ((Sample.stocked.after 0 (.check Sample.window Sample.forever)).after 0
        (.check Sample.window Sample.glance)) ∧
    (deliveries log).map (·.receiveCount) = [2] := by
  have sent := (Clocked.start.call (Nat.le_refl 0) (.create Sample.counter)).call (Nat.le_refl 0)
    (.send Sample.window { body := "parcel" })
  have twice := (sent.call (Nat.le_refl 0) (.check Sample.window Sample.forever)).call
    (Nat.le_refl 0) (.check Sample.window Sample.glance)
  exact ⟨_, _, twice, rfl⟩

end Clocked

end Broker

end Courier
