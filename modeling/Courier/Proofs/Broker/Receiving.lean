import Courier.Proofs.Broker.Ledger

/-!
# Receive calls and the messages of a queue

A receive call goes through the messages of a queue once, from the front. It passes over a message,
which then stays as it is, or hands it out, which it does only when no delivery hides the message.
The batch holds the messages that are handed out, in their order. A call whose deliveries would
last beyond the clock is broken off at the first message that it would hand out.

## Main definitions

* `Queue.Receives`: the messages of a queue before and after a receive call, and the batch.
* `Broker.Looks`: what a receive call comes to when it looks for messages.

## Main results

* `Queue.receives_select`: what is selected and delivered is received.
* `Broker.check_looks`: a receive call looks for messages as described.
* `Broker.mem_messages_after`: a hidden message stays as it is, unless it is removed.
-/

namespace Courier

namespace Queue

/-- The messages of a queue, the batch that a receive call takes from them at an instant, and the
messages afterwards. What is handed out is hidden until `visibleAt`. -/
inductive Receives (now visibleAt : Nat) : List Stored → List Received → List Stored → Prop
  | done : Receives now visibleAt [] [] []
  | pass {ms batch ms'} (m) (h : Receives now visibleAt ms batch ms') :
      Receives now visibleAt (m :: ms) batch (m :: ms')
  | hand {m ms batch ms'} (visible : m.isVisible now = true) (receipt)
      (h : Receives now visibleAt ms batch ms') :
      Receives now visibleAt (m :: ms) (m.toReceived receipt :: batch)
        (m.delivered receipt visibleAt :: ms')

namespace Receives

variable {now visibleAt : Nat} {ms ms' : List Stored} {batch : List Received}

theorem handed (h : Receives now visibleAt ms batch ms') {r : Received} (hr : r ∈ batch) :
    ∃ m ∈ ms', m.id = r.id ∧ m.receipt = some r.receipt ∧ m.visibleAt = visibleAt := by
  induction h with
  | done => exact absurd hr List.not_mem_nil
  | pass m h ih =>
    obtain ⟨m', mem, rest⟩ := ih hr
    exact ⟨m', List.mem_cons_of_mem _ mem, rest⟩
  | @hand m _ _ _ visible receipt h ih =>
    rcases List.mem_cons.1 hr with rfl | hr
    · exact ⟨_, List.mem_cons_self, rfl, rfl, rfl⟩
    · obtain ⟨m', mem, rest⟩ := ih hr
      exact ⟨m', List.mem_cons_of_mem _ mem, rest⟩

theorem hidden (h : Receives now visibleAt ms batch ms') {m : Stored} (hm : m ∈ ms)
    (hides : now < m.visibleAt) : m ∈ ms' := by
  induction h with
  | done => exact absurd hm List.not_mem_nil
  | pass m' h ih =>
    rcases List.mem_cons.1 hm with rfl | hm
    · exact List.mem_cons_self
    · exact List.mem_cons_of_mem _ (ih hm)
  | hand visible receipt h ih =>
    rcases List.mem_cons.1 hm with rfl | hm
    · have past := of_decide_eq_true visible
      omega
    · exact List.mem_cons_of_mem _ (ih hm)

/-- Only messages of the queue that are not hidden are handed out. -/
theorem visible_of_mem (h : Receives now visibleAt ms batch ms') {r : Received} (hr : r ∈ batch) :
    ∃ m ∈ ms, m.id = r.id ∧ m.visibleAt ≤ now := by
  induction h with
  | done => exact absurd hr List.not_mem_nil
  | pass m h ih =>
    obtain ⟨m', mem, rest⟩ := ih hr
    exact ⟨m', List.mem_cons_of_mem _ mem, rest⟩
  | @hand m _ _ _ visible receipt h ih =>
    rcases List.mem_cons.1 hr with rfl | hr
    · exact ⟨m, List.mem_cons_self, rfl, of_decide_eq_true visible⟩
    · obtain ⟨m', mem, rest⟩ := ih hr
      exact ⟨m', List.mem_cons_of_mem _ mem, rest⟩

/-- Every message keeps its place and its content, and changes only when it is handed out. -/
theorem forall₂ (h : Receives now visibleAt ms batch ms') :
    List.Forall₂ (fun m m' => m'.asSent = m.asSent ∧ (m.id ∉ batch.map (·.id) → m' = m))
      ms ms' := by
  induction h with
  | done => exact .nil
  | pass m h ih => exact .cons ⟨rfl, fun _ => rfl⟩ ih
  | @hand m _ _ _ visible receipt h ih =>
    refine .cons ⟨rfl, fun other => absurd List.mem_cons_self other⟩ (ih.imp ?_)
    exact fun m₁ m₂ same => ⟨same.1, fun other => same.2 fun mem =>
      other (List.mem_cons_of_mem _ mem)⟩

end Receives

/-- The messages that are marked are not hidden. -/
theorem visible_of_selectFrom (q : Queue) (now room : Nat) (blocked : List String)
    (ms : List Stored) :
    ∀ x ∈ q.selectFrom now room blocked ms, x.2 = true → x.1.isVisible now = true := by
  fun_induction selectFrom q now room blocked ms with
  | case1 => exact List.forall_mem_nil _
  | case2 blocked ms =>
    intro x mem marked
    obtain ⟨m, -, rfl⟩ := List.mem_map.1 mem
    cases marked
  | case3 room blocked m ms group at_ mem ih =>
    exact List.forall_mem_cons.2 ⟨fun marked => absurd marked Bool.false_ne_true, ih⟩
  | case4 room blocked m ms group at_ free visible ih =>
    exact List.forall_mem_cons.2 ⟨fun _ => visible, ih⟩
  | case5 room blocked m ms group at_ free hidden ih =>
    exact List.forall_mem_cons.2 ⟨fun marked => absurd marked Bool.false_ne_true, ih⟩
  | case6 room blocked m ms none_ visible ih =>
    exact List.forall_mem_cons.2 ⟨fun _ => visible, ih⟩
  | case7 room blocked m ms none_ hidden ih =>
    exact List.forall_mem_cons.2 ⟨fun marked => absurd marked Bool.false_ne_true, ih⟩

/-- The delivery of marked messages is a receive call. -/
theorem receives_deliver {now : Nat} (visibleAt : Nat) (mint : Mint)
    (selection : List (Stored × Bool))
    (visible : ∀ x ∈ selection, x.2 = true → x.1.isVisible now = true) :
    Receives now visibleAt (selection.map (·.1)) (deliver visibleAt mint selection).1
      (deliver visibleAt mint selection).2.1 := by
  induction selection generalizing mint with
  | nil => exact .done
  | cons x selection ih =>
    obtain ⟨m, marked⟩ := x
    obtain ⟨first, rest⟩ := List.forall_mem_cons.1 visible
    cases marked with
    | false => exact .pass m (ih mint rest)
    | true => exact .hand (first rfl) ⟨mint.draw.1⟩ (ih mint.draw.2 rest)

/-- What is selected and delivered is received. -/
theorem receives_select (q : Queue) (now max visibleAt : Nat) (mint : Mint) :
    Receives now visibleAt q.messages (deliver visibleAt mint (q.select now max)).1
      (deliver visibleAt mint (q.select now max)).2.1 := by
  have received := receives_deliver visibleAt mint (q.select now max)
    (q.visible_of_selectFrom now max [] q.messages)
  rwa [select, map_selectFrom] at received

end Queue

namespace Broker

/-- What a receive call answers when it looks for messages, and the broker afterwards. -/
inductive Looks (b : Broker) (now : Nat) (q : Identity) (o : ReceiveOptions) :
    Except ReceiveFailure (List Received) × Broker → Prop
  | unknown (absent : b.queue? q.url = none) :
      Looks b now q o (.error (.refused (notFound q)), b)
  | found {queue visibleAt batch messages} (mint) (there : b.queue? q.url = some queue)
      (inTime : later? now o.visibilityTimeout = some visibleAt)
      (receives : Queue.Receives now visibleAt queue.messages batch messages) :
      Looks b now q o (.ok batch, { b.setQueue q.url { queue with messages } with mint })
  /-- There is nothing to deliver, so that it does not matter when deliveries would be over. -/
  | idle {queue} (there : b.queue? q.url = some queue)
      (overtime : later? now o.visibilityTimeout = none) : Looks b now q o (.ok [], b)
  | brokenOff {queue before m after} (there : b.queue? q.url = some queue)
      (overtime : later? now o.visibilityTimeout = none)
      (split : queue.messages = before ++ m :: after) (visible : m.isVisible now = true) :
      Looks b now q o (.error .beyondClock, b.setQueue q.url { queue with
        messages := before ++ { m with receiveCount := m.receiveCount + 1 } :: after })

/-- A receive call looks for messages as described. -/
theorem check_looks (b : Broker) (now : Nat) (q : Identity) (o : ReceiveOptions) :
    b.Looks now q o (b.check now q o) := by
  rw [check]
  cases there : b.queue? q.url with
  | none => exact .unknown there
  | some queue =>
    cases inTime : later? now o.visibilityTimeout with
    | some visibleAt =>
      exact .found _ there inTime (queue.receives_select now o.maxMessages visibleAt b.mint)
    | none =>
      by_cases marked : (queue.select now o.maxMessages).any (·.2) = true
      · obtain ⟨before, m, after, split, found, counted⟩ := Queue.countFirst_eq marked
        have visible := queue.visible_of_selectFrom now o.maxMessages [] queue.messages _
          (List.mem_of_find?_eq_some found) rfl
        rw [Queue.select, Queue.map_selectFrom] at split
        simp only [marked, ↓reduceIte, counted]
        exact .brokenOff there inTime split visible
      · simp only [marked, Bool.false_eq_true, ↓reduceIte]
        exact .idle there inTime

theorem messages_setQueue (b : Broker) (url : String) (q : Queue) (other : String) :
    (b.setQueue url q).messages other = if other = url then q.messages else b.messages other := by
  have lookup : (b.setQueue url q).queue? other = if other = url then some q else b.queue? other :=
    lookup_assign ..
  rw [messages, lookup]
  split <;> rfl

/-! ### Hidden messages -/

theorem messages_create (b : Broker) (l : Locator) (url : String) :
    (b.create l).2.messages url = b.messages url := by
  simp only [create]
  split
  · rfl
  · next absent =>
    have built : ({ b.setQueue l.address { fifo := l.name.isFifo } with
        addresses := assign l l.address b.addresses } : Broker).messages url =
        if url = l.address then [] else b.messages url :=
      b.messages_setQueue l.address { fifo := l.name.isFifo } url
    refine built.trans ?_
    split
    · next own =>
      have none_ : b.queue? l.address = none := by simpa using absent
      rw [own, messages, none_]
      rfl
    · rfl

theorem mem_messages_send {b : Broker} {url : String} {m : Stored} (mem : m ∈ b.messages url)
    (now : Nat) (q : Identity) (out : Outbound) : m ∈ (b.send now q out).2.messages url := by
  rw [messages_eq] at mem ⊢
  rcases b.stock_send now q out with same | ⟨fifo, ms, id, there, -, stored⟩
  · rwa [same]
  · rw [stored, Stock.drawn_shelves]
    by_cases own : url = q.url
    · subst own
      rw [there] at mem
      rw [Stock.set_shelves_self]
      exact List.mem_append_left _ mem
    · rwa [Stock.set_shelves_of_ne _ own]

theorem mem_messages_check {b : Broker} {now : Nat} {url : String} {m : Stored}
    (mem : m ∈ b.messages url) (hides : now < m.visibleAt) (q : Identity) (o : ReceiveOptions) :
    m ∈ (b.check now q o).2.messages url := by
  have looks := b.check_looks now q o
  generalize b.check now q o = result at looks
  have held {queue : Queue} (there : b.queue? q.url = some queue) (own : url = q.url) :
      m ∈ queue.messages := by
    rwa [own, messages, there] at mem
  cases looks with
  | unknown absent | idle there overtime => exact mem
  | @found queue visibleAt batch ms mint there inTime receives =>
    have after : ({ b.setQueue q.url { queue with messages := ms } with mint } :
        Broker).messages url = if url = q.url then ms else b.messages url :=
      b.messages_setQueue q.url { queue with messages := ms } url
    rw [after]
    split
    · next own => exact receives.hidden (held there own) hides
    · exact mem
  | @brokenOff queue before m' after there overtime split visible =>
    rw [messages_setQueue]
    split
    · next own =>
      have inside := held there own
      rw [split] at inside
      have past : m'.visibleAt ≤ now := of_decide_eq_true visible
      rcases List.mem_append.1 inside with inside | inside
      · exact List.mem_append_left _ inside
      · rcases List.mem_cons.1 inside with rfl | inside
        · omega
        · exact List.mem_append_right _ (List.mem_cons_of_mem _ inside)
    · exact mem

/-- A delete call leaves a message where it is, or removes it by its receipt. -/
theorem mem_messages_delete {b : Broker} {url : String} {m : Stored} (mem : m ∈ b.messages url)
    (now : Nat) (q : Identity) (receipt : Receipt) :
    m ∈ (b.delete q receipt).2.messages url ∨ m.receipt = some receipt ∧
      .removed url receipt m.id ∈ b.incidents now (.delete q receipt) := by
  rcases b.stock_delete q receipt with
    ⟨e, -, same⟩ | ⟨removed, fifo, before, m', after, there, current, found, rest⟩
  · left
    rwa [messages_eq, same, ← messages_eq]
  · by_cases own : url = q.url
    · subst own
      rw [messages_eq, there] at mem
      have mem : m ∈ before ++ m' :: after := mem
      by_cases same : m = m'
      · subst same
        refine .inr ⟨current, ?_⟩
        simp [incidents, removed, found]
      · left
        rw [messages_eq, rest, Stock.set_shelves_self]
        show m ∈ before ++ after
        simpa [same] using mem
    · left
      rwa [messages_eq, rest, Stock.set_shelves_of_ne _ own, ← messages_eq]

/-- A message that is hidden stays as it is in every call, unless it is removed by its receipt. -/
theorem mem_messages_after {b : Broker} {now : Nat} {url : String} {m : Stored}
    (mem : m ∈ b.messages url) (hides : now < m.visibleAt) (call : Call) :
    m ∈ (b.after now call).messages url ∨ ∃ receipt, m.receipt = some receipt ∧
      .removed url receipt m.id ∈ b.incidents now call := by
  cases call with
  | create l => exact .inl (b.messages_create l url ▸ mem)
  | resolve l =>
    left
    rwa [after, messages_eq, stock_resolve, ← messages_eq]
  | failNext op count => exact .inl mem
  | draw => exact .inl mem
  | send q out => exact .inl (mem_messages_send mem now q out)
  | beginReceive o =>
    left
    rwa [after, messages_eq, stock_beginReceive, ← messages_eq]
  | check q o => exact .inl (mem_messages_check mem hides q o)
  | delete q receipt =>
    rcases mem_messages_delete mem now q receipt with kept | ⟨bears, removed⟩
    · exact .inl kept
    · exact .inr ⟨receipt, bears, removed⟩

/-- What a receive call hands out is hidden as long as the call has asked for. -/
theorem hidden_of_check {b b' : Broker} {now : Nat} {q : Identity} {o : ReceiveOptions}
    {batch : List Received} (found : b.check now q o = (.ok batch, b')) {r : Received}
    (mem : r ∈ batch) : ∃ m ∈ b'.messages q.url, m.id = r.id ∧ m.receipt = some r.receipt ∧
      m.visibleAt = now + o.visibilityTimeout := by
  have looks := b.check_looks now q o
  rw [found] at looks
  cases looks with
  | @found queue visibleAt _ ms mint there inTime receives =>
    obtain ⟨m, inside, own, bears, until_⟩ := receives.handed mem
    refine ⟨m, ?_, own, bears, ?_⟩
    · have after : ({ b.setQueue q.url { queue with messages := ms } with mint } :
          Broker).messages q.url = if q.url = q.url then ms else b.messages q.url :=
        b.messages_setQueue q.url { queue with messages := ms } q.url
      rwa [after, if_pos rfl]
    · unfold later? at inTime
      split at inTime
      · rw [until_, Option.some.inj inTime]
      · cases inTime
  | idle there overtime => exact absurd mem List.not_mem_nil

/-- A receive call hands out only messages that are not hidden. -/
theorem visible_of_check {b b' : Broker} {now : Nat} {q : Identity} {o : ReceiveOptions}
    {batch : List Received} (found : b.check now q o = (.ok batch, b')) {r : Received}
    (mem : r ∈ batch) : ∃ m ∈ b.messages q.url, m.id = r.id ∧ m.visibleAt ≤ now := by
  have looks := b.check_looks now q o
  rw [found] at looks
  cases looks with
  | found mint there inTime receives =>
    rw [messages, there]
    exact receives.visible_of_mem mem
  | idle there overtime => exact absurd mem List.not_mem_nil

end Broker

end Courier
