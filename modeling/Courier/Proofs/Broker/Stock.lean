import Courier.Proofs.Broker.Calls
import Mathlib.Logic.Function.Basic

/-!
# The stock of a broker

Of the state of the broker, only the messages of its queues and the number of the next identifier
matter for what becomes of messages: this is its stock. A stock changes in few elementary ways, with
at most one incident each, and every call is a sequence of them. A receive call, for instance,
delivers one message after the other, each of which is the oldest of its group when its turn comes.

An invariant is then shown for the elementary changes, and holds whatever the calls are.

## Main definitions

* `Shelf`, `Stock`: the messages of a queue, and of all queues.
* `Stock.Change`, `Stock.Changes`: an elementary change, and a sequence of them.

## Main results

* `Broker.changes_of_call`: a call is a sequence of elementary changes.
* `Broker.Reached.changes`: so is a history of calls.
-/

namespace Courier

/-- The messages of a queue. -/
structure Shelf where
  fifo : Bool
  messages : List Stored

/-- The messages of all queues, and the number of the next identifier. -/
@[ext] structure Stock where
  shelves : String → Option Shelf := fun _ => none
  next : Nat := 0

namespace Stock

/-- Replaces the messages of a queue. -/
def set (s : Stock) (url : String) (shelf : Shelf) : Stock :=
  { s with shelves := Function.update s.shelves url (some shelf) }

/-- The stock after an identifier was given out. -/
def drawn (s : Stock) : Stock :=
  { s with next := s.next + 1 }

@[simp] theorem set_next (s : Stock) (url : String) (shelf : Shelf) :
    (s.set url shelf).next = s.next := rfl

@[simp] theorem drawn_next (s : Stock) : s.drawn.next = s.next + 1 := rfl

@[simp] theorem drawn_shelves (s : Stock) : s.drawn.shelves = s.shelves := rfl

@[simp] theorem set_shelves_self (s : Stock) (url : String) (shelf : Shelf) :
    (s.set url shelf).shelves url = some shelf :=
  Function.update_self ..

theorem set_shelves_of_ne (s : Stock) {url other : String} (h : other ≠ url) (shelf : Shelf) :
    (s.set url shelf).shelves other = s.shelves other :=
  Function.update_of_ne h ..

@[simp] theorem set_set (s : Stock) (url : String) (shelf shelf' : Shelf) :
    (s.set url shelf).set url shelf' = s.set url shelf' := by
  simp [set]

theorem set_eq_self {s : Stock} {url : String} {shelf : Shelf} (h : s.shelves url = some shelf) :
    s.set url shelf = s := by
  simp [set, ← h]

@[simp] theorem set_drawn (s : Stock) (url : String) (shelf : Shelf) :
    s.drawn.set url shelf = (s.set url shelf).drawn := rfl

/-- An elementary change, with what it does to a message. -/
inductive Change (s : Stock) : List Incident → Stock → Prop
  | draw : Change s [] s.drawn
  | build {url} (free : s.shelves url = none) (fifo) : Change s [] (s.set url ⟨fifo, []⟩)
  | store {url fifo messages m} (there : s.shelves url = some ⟨fifo, messages⟩)
      (id_eq : m.id.text = Mint.text s.next) (undelivered : m.receipt = none) :
      Change s [.stored url m] (s.set url ⟨fifo, messages ++ [m]⟩).drawn
  /-- On a queue that keeps its messages in order, a message is delivered only as the oldest of its
  group. -/
  | deliver {url fifo before m after} (visibleAt)
      (there : s.shelves url = some ⟨fifo, before ++ m :: after⟩)
      (turn : fifo = true → ∀ g, m.group = some g → ∀ m' ∈ before, m'.group ≠ some g) :
      Change s [.delivered url (m.toReceived ⟨Mint.text s.next⟩)]
        (s.set url ⟨fifo, before ++ m.delivered ⟨Mint.text s.next⟩ visibleAt :: after⟩).drawn
  /-- A delivery is counted that does not take place. -/
  | count {url fifo before m after} (there : s.shelves url = some ⟨fifo, before ++ m :: after⟩) :
      Change s []
        (s.set url ⟨fifo, before ++ { m with receiveCount := m.receiveCount + 1 } :: after⟩)
  | remove {url fifo before m after receipt}
      (there : s.shelves url = some ⟨fifo, before ++ m :: after⟩)
      (current : m.receipt = some receipt) :
      Change s [.removed url receipt m.id] (s.set url ⟨fifo, before ++ after⟩)

/-- A sequence of elementary changes. -/
inductive Changes (s : Stock) : List Incident → Stock → Prop
  | refl : Changes s [] s
  | step {log s' new s''} (h : Changes s log s') (hc : Change s' new s'') :
      Changes s (log ++ new) s''

theorem Change.changes {s s' : Stock} {new : List Incident} (h : Change s new s') :
    Changes s new s' :=
  Changes.refl.step h

theorem Changes.trans {s s' s'' : Stock} {log log' : List Incident} (h : Changes s log s')
    (h' : Changes s' log' s'') : Changes s (log ++ log') s'' := by
  induction h' with
  | refl => simpa using h
  | step h' hc ih => simpa using ih.step hc

end Stock

namespace Broker

/-- The stock of a broker. -/
def stock (b : Broker) : Stock where
  shelves url := (b.queue? url).map fun q => ⟨q.fifo, q.messages⟩
  next := b.mint.next

variable {b : Broker} {now : Nat}

theorem messages_eq (b : Broker) (url : String) :
    b.messages url = ((b.stock.shelves url).map (·.messages)).getD [] := by
  simp [messages, stock, Function.comp_def]

theorem shelves_of_queue {url : String} {q : Queue} (h : b.queue? url = some q) :
    b.stock.shelves url = some ⟨q.fifo, q.messages⟩ := by
  simp [stock, h]

@[simp] theorem stock_setQueue (b : Broker) (url : String) (q : Queue) :
    (b.setQueue url q).stock = b.stock.set url ⟨q.fifo, q.messages⟩ := by
  ext1
  · funext other
    by_cases h : other = url
    · subst h
      simp [stock, setQueue, queue?, lookup_assign]
    · rw [Stock.set_shelves_of_ne _ h]
      simp [stock, setQueue, queue?, lookup_assign, h]
  · rfl

/-! ### Failures on request -/

section

variable {op : Operation} {e : QueueError} {b' : Broker}

theorem spendFault_eq_none : b.spendFault op = none ↔ b.faults.get op = 0 := by
  unfold spendFault
  split <;> simp_all

theorem spendFault_eq_some (h : b.spendFault op = some (e, b')) : ∃ n, b.faults.get op = n + 1 ∧
    e = .connectionFailed s!"injected {op.word} failure" ∧ b' = b.failNext op n := by
  unfold spendFault at h
  split at h
  · cases h
  · next n budget =>
    cases h
    exact ⟨n, budget, rfl, rfl⟩

theorem spendFault_keeps (h : b.spendFault op = some (e, b')) :
    b'.queues = b.queues ∧ b'.addresses = b.addresses := by
  obtain ⟨n, -, -, rfl⟩ := spendFault_eq_some h
  exact ⟨rfl, rfl⟩

theorem stock_spendFault (h : b.spendFault op = some (e, b')) : b'.stock = b.stock := by
  obtain ⟨n, -, -, rfl⟩ := spendFault_eq_some h
  rfl

end

/-! ### Calls that leave messages alone -/

theorem stock_resolve (l : Locator) : (b.resolve l).2.stock = b.stock := by
  unfold resolve
  split
  · next spent => exact stock_spendFault spent
  · split <;> rfl

theorem stock_beginReceive (o : ReceiveOptions) : (b.beginReceive now o).2.stock = b.stock := by
  simp only [beginReceive]
  split
  · next spent => exact (stock_spendFault spent).trans rfl
  · split <;> rfl

theorem changes_of_create (l : Locator) : Stock.Changes b.stock [] (b.create l).2.stock := by
  simp only [create]
  split
  · exact .refl
  · next absent =>
    have free : b.stock.shelves l.address = none := by simpa [stock] using absent
    have built : (b.setQueue l.address { fifo := l.name.isFifo }).stock =
        b.stock.set l.address ⟨l.name.isFifo, []⟩ := stock_setQueue ..
    exact built ▸ (Stock.Change.build free l.name.isFifo).changes

end Broker

/-! ### Sending -/

/-- A send finds the earlier send that it repeats, or stores its message under a fresh
identifier. -/
theorem Queue.push_eq (q : Queue) (now : Nat) (m : Outbound) (mint : Mint) :
    (∃ id, q.push now m mint = (id, q.purge now, mint)) ∨
      q.push now m mint = (mint.drawMessageId.1, (q.purge now).store now m mint.drawMessageId.1,
        mint.drawMessageId.2) := by
  simp only [push]
  split
  · exact .inl ⟨_, rfl⟩
  · exact .inr rfl

/-- A message as it is stored. -/
def Outbound.toStored (m : Outbound) (id : MessageId) (now : Nat) : Stored where
  id
  body := m.body
  attributes := m.attributes
  group := m.group
  visibleAt := now

namespace Broker

/-- A send leaves the messages alone, or stores one under a fresh identifier. -/
theorem stock_send (b : Broker) (now : Nat) (q : Identity) (m : Outbound) :
    (b.send now q m).2.stock = b.stock ∨
      ∃ fifo messages id, b.stock.shelves q.url = some ⟨fifo, messages⟩ ∧
        id.text = Mint.text b.stock.next ∧
        (b.send now q m).2.stock =
          (b.stock.set q.url ⟨fifo, messages ++ [m.toStored id now]⟩).drawn := by
  simp only [send]
  split
  · next spent => exact .inl ((stock_spendFault spent).trans rfl)
  · split
    · exact .inl rfl
    · split
      · exact .inl rfl
      · next queue there =>
        split
        · exact .inl rfl
        · have shelf : b.stock.shelves q.url = some ⟨queue.fifo, queue.messages⟩ :=
            shelves_of_queue there
          rcases queue.push_eq now m b.mint with ⟨id, pushed⟩ | pushed
          · left
            rw [pushed]
            exact (stock_setQueue b q.url (queue.purge now)).trans (Stock.set_eq_self shelf)
          · right
            rw [pushed]
            refine ⟨_, _, b.mint.drawMessageId.1, shelf, rfl, ?_⟩
            exact congrArg Stock.drawn
              (stock_setQueue b q.url ((queue.purge now).store now m b.mint.drawMessageId.1))

theorem changes_of_send (b : Broker) (now : Nat) (q : Identity) (m : Outbound) :
    Stock.Changes b.stock (b.incidents now (.send q m)) (b.send now q m).2.stock := by
  simp only [incidents, messages_eq]
  rcases stock_send b now q m with same | ⟨fifo, messages, id, there, id_eq, stored⟩
  · rw [same]
    simpa using Stock.Changes.refl
  · rw [stored]
    simpa [there] using (Stock.Change.store (m := m.toStored id now) there id_eq rfl).changes

/-! ### Deleting -/

end Broker

/-- A removal takes away the first message whose latest delivery has the receipt. -/
theorem Queue.remove?_eq_some {q q' : Queue} {receipt : Receipt}
    (h : q.remove? receipt = some q') : q'.fifo = q.fifo ∧
      ∃ before m after, q.messages = before ++ m :: after ∧ q'.messages = before ++ after ∧
        m.receipt = some receipt ∧ q.messages.find? (·.receipt = some receipt) = some m := by
  simp only [remove?] at h
  split at h
  · next found =>
    cases h
    obtain ⟨m₀, mem, current⟩ := List.any_eq_true.1 found
    obtain ⟨m, before, after, others, current, split, erased⟩ :=
      List.exists_of_eraseP (p := fun m : Stored => decide (m.receipt = some receipt)) mem current
    refine ⟨rfl, before, m, after, split, erased, by simpa using current, ?_⟩
    refine List.find?_eq_some_iff_append.2 ⟨current, before, after, split, fun m' hm' => ?_⟩
    simpa using others m' hm'
  · cases h

namespace Broker

/-- A delete fails and leaves the messages alone, or removes the message whose latest delivery has
the receipt. -/
theorem stock_delete (b : Broker) (q : Identity) (receipt : Receipt) :
    (∃ e, (b.delete q receipt).1 = .error e ∧ (b.delete q receipt).2.stock = b.stock) ∨
      (b.delete q receipt).1 = .ok () ∧ ∃ fifo before m after,
        b.stock.shelves q.url = some ⟨fifo, before ++ m :: after⟩ ∧ m.receipt = some receipt ∧
        (b.messages q.url).find? (·.receipt = some receipt) = some m ∧
        (b.delete q receipt).2.stock = b.stock.set q.url ⟨fifo, before ++ after⟩ := by
  simp only [delete]
  split
  · next spent => exact .inl ⟨_, rfl, (stock_spendFault spent).trans rfl⟩
  · split
    · exact .inl ⟨_, rfl, rfl⟩
    · next queue there =>
      split
      · next queue' removed =>
        obtain ⟨fifo, before, m, after, split, rest, current, found⟩ :=
          Queue.remove?_eq_some removed
        have messages : b.messages q.url = queue.messages := by
          have there : b.queue? q.url = some queue := there
          simp [Broker.messages, there]
        refine .inr ⟨rfl, queue.fifo, before, m, after, ?_, current, ?_, ?_⟩
        · rw [← split]
          exact shelves_of_queue there
        · rw [messages]
          exact found
        · rw [← fifo, ← rest]
          exact stock_setQueue b q.url queue'
      · exact .inl ⟨_, rfl, rfl⟩

theorem changes_of_delete (b : Broker) (now : Nat) (q : Identity) (receipt : Receipt) :
    Stock.Changes b.stock (b.incidents now (.delete q receipt)) (b.delete q receipt).2.stock := by
  rcases b.stock_delete q receipt with
    ⟨e, failed, same⟩ | ⟨removed, fifo, before, m, after, there, current, found, rest⟩
  · simp only [incidents, failed, same]
    exact .refl
  · simp only [incidents, removed, found, rest]
    exact (Stock.Change.remove there current).changes

end Broker

/-! ### Receiving -/

namespace Queue

theorem map_selectFrom (q : Queue) (now room : Nat) (blocked : List String) (ms : List Stored) :
    (q.selectFrom now room blocked ms).map (·.1) = ms := by
  fun_induction selectFrom q now room blocked ms <;> simp_all [Function.comp_def]

/-- Every marked message is the first of its group, which is not blocked. -/
def InTurn (q : Queue) (blocked : List String) (selection : List (Stored × Bool)) : Prop :=
  ∀ before m after, selection = before ++ (m, true) :: after →
    ∀ g, q.groupOf m = some g → g ∉ blocked ∧ ∀ m' ∈ before, q.groupOf m'.1 ≠ some g

theorem InTurn.cons {q : Queue} {blocked blocked' : List String}
    {selection : List (Stored × Bool)} (h : q.InTurn blocked' selection) {m : Stored}
    {marked : Bool} (turn : marked = true → ∀ g, q.groupOf m = some g → g ∉ blocked)
    (more : ∀ g ∈ blocked, g ∈ blocked') (own : ∀ g, q.groupOf m = some g → g ∈ blocked') :
    q.InTurn blocked ((m, marked) :: selection) := by
  intro before m' after split g group
  rcases List.cons_eq_append_iff.1 split with ⟨rfl, here⟩ | ⟨before, rfl, there⟩
  · obtain ⟨first, -⟩ := List.cons.inj here
    cases first
    exact ⟨turn rfl g group, nofun⟩
  · obtain ⟨free, others⟩ := h before m' after there g group
    refine ⟨fun mem => free (more g mem), fun x mem => ?_⟩
    rcases List.mem_cons.1 mem with rfl | mem
    · exact fun same => free (own g same)
    · exact others x mem

theorem inTurn_selectFrom (q : Queue) (now room : Nat) (blocked : List String)
    (ms : List Stored) : q.InTurn blocked (q.selectFrom now room blocked ms) := by
  fun_induction selectFrom q now room blocked ms with
  | case1 =>
    intro before m after split
    simp at split
  | case2 blocked ms =>
    intro before m after split
    have mem : (m, true) ∈ ms.map (·, false) := by simp [split]
    simp at mem
  | case3 room blocked m ms group at_ mem ih =>
    exact ih.cons nofun (fun _ mem => mem) (by simp [at_, mem])
  | case4 room blocked m ms group at_ free visible ih =>
    exact ih.cons (by simp [at_, free]) (fun _ mem => List.mem_cons_of_mem _ mem) (by simp [at_])
  | case5 room blocked m ms group at_ free hidden ih =>
    exact ih.cons nofun (fun _ mem => List.mem_cons_of_mem _ mem) (by simp [at_])
  | case6 room blocked m ms none_ visible ih =>
    exact ih.cons (by simp [none_]) (fun _ mem => mem) (by simp [none_])
  | case7 room blocked m ms none_ hidden ih =>
    exact ih.cons nofun (fun _ mem => mem) (by simp [none_])

/-- The count of a delivery that does not take place goes up at the first message that is marked. -/
theorem countFirst_eq {selection : List (Stored × Bool)} (h : selection.any (·.2) = true) :
    ∃ before m after, selection.map (·.1) = before ++ m :: after ∧
      selection.find? (·.2) = some (m, true) ∧
      countFirst selection = before ++ { m with receiveCount := m.receiveCount + 1 } :: after := by
  induction selection with
  | nil => cases h
  | cons x selection ih =>
    obtain ⟨m, marked⟩ := x
    cases marked with
    | true => exact ⟨[], m, selection.map (·.1), rfl, rfl, rfl⟩
    | false =>
      obtain ⟨before, m', after, split, found, counted⟩ := ih (by simpa using h)
      exact ⟨m :: before, m', after, congrArg (m :: ·) split, found, congrArg (m :: ·) counted⟩

end Queue

namespace Stock

/-- The messages that a receive call has marked are delivered one after the other. `done` are those
that it has passed. -/
theorem changes_of_deliver (url : String) (fifo : Bool) (visibleAt : Nat)
    (selection : List (Stored × Bool)) (s : Stock) (done : List Stored)
    (there : s.shelves url = some ⟨fifo, done ++ selection.map (·.1)⟩)
    (turn : ∀ before m after, selection = before ++ (m, true) :: after → fifo = true →
      ∀ g, m.group = some g → ∀ m' ∈ done ++ before.map (·.1), m'.group ≠ some g) :
    Changes s ((Queue.deliver visibleAt ⟨s.next⟩ selection).1.map (.delivered url))
      { s.set url ⟨fifo, done ++ (Queue.deliver visibleAt ⟨s.next⟩ selection).2.1⟩ with
        next := (Queue.deliver visibleAt ⟨s.next⟩ selection).2.2.next } := by
  induction selection generalizing s done with
  | nil =>
    have same : s.set url ⟨fifo, done⟩ = s := set_eq_self (by simpa using there)
    simp only [Queue.deliver, List.append_nil, same]
    exact .refl
  | cons x selection ih =>
    obtain ⟨m, marked⟩ := x
    cases marked with
    | false =>
      have rest := ih s (done ++ [m]) (by simpa using there) fun before m' after split =>
        by simpa using turn ((m, false) :: before) m' after (by rw [split]; rfl)
      simpa [Queue.deliver] using rest
    | true =>
      let sent : Stored := m.delivered ⟨Mint.text s.next⟩ visibleAt
      have there' : s.shelves url = some ⟨fifo, done ++ m :: selection.map (·.1)⟩ := there
      have first := Change.deliver visibleAt there' fun order g group m' mem =>
        turn [] m selection rfl order g group m' (by simpa using mem)
      have rest := ih (s.set url ⟨fifo, done ++ sent :: selection.map (·.1)⟩).drawn (done ++ [sent])
        (by simp) fun before m' after split order g group x mem => by
          have others := turn ((m, true) :: before) m' after (by rw [split]; rfl) order g group
          simp only [List.append_assoc, List.mem_append, List.mem_singleton] at mem
          rcases mem with mem | rfl | mem
          · exact others x (List.mem_append_left _ mem)
          · exact others m (by simp)
          · exact others x (List.mem_append_right _ (List.mem_cons_of_mem _ mem))
      have both := first.changes.trans rest
      simpa [Queue.deliver, Mint.draw] using both

end Stock

namespace Broker

/-- The selection of a receive call is in turn. -/
private theorem turn_of_select (q : Queue) (now max : Nat) (before : List (Stored × Bool))
    (m : Stored) (after : List (Stored × Bool))
    (split : q.select now max = before ++ (m, true) :: after) (fifo : q.fifo = true) (g : String)
    (group : m.group = some g) : ∀ m' ∈ [] ++ before.map (·.1), m'.group ≠ some g := by
  intro m' passed
  obtain ⟨x, mem, rfl⟩ := List.mem_map.1 passed
  have groupOf (m : Stored) : q.groupOf m = m.group := by simp [Queue.groupOf, fifo]
  have first := (q.inTurn_selectFrom now max [] q.messages before m after split g
    ((groupOf m).trans group)).2 x mem
  rwa [groupOf] at first

theorem changes_of_check (b : Broker) (now : Nat) (q : Identity) (o : ReceiveOptions) :
    Stock.Changes b.stock (b.incidents now (.check q o)) (b.check now q o).2.stock := by
  simp only [incidents, check]
  cases there : b.queue? q.url with
  | none => exact .refl
  | some queue =>
    have shelf : b.stock.shelves q.url =
        some ⟨queue.fifo, [] ++ (queue.select now o.maxMessages).map (·.1)⟩ := by
      rw [shelves_of_queue there, Queue.select, Queue.map_selectFrom]
      rfl
    cases later? now o.visibilityTimeout with
    | some visibleAt =>
      have delivered := Stock.changes_of_deliver q.url queue.fifo visibleAt _ b.stock [] shelf
        (turn_of_select queue now o.maxMessages)
      change Stock.Changes _ (List.map _ (Queue.deliver visibleAt b.mint _).1)
        { b.stock.set q.url ⟨queue.fifo, (Queue.deliver visibleAt b.mint _).2.1⟩ with
          next := (Queue.deliver visibleAt b.mint _).2.2.next } at delivered
      rw [← stock_setQueue b q.url
        { queue with messages := (Queue.deliver visibleAt b.mint _).2.1 }] at delivered
      exact delivered
    | none =>
      by_cases marked : (queue.select now o.maxMessages).any (·.2) = true
      · obtain ⟨before, m, after, split, -, counted⟩ := Queue.countFirst_eq marked
        rw [split] at shelf
        simp only [marked, ↓reduceIte, stock_setQueue, counted]
        exact (Stock.Change.count shelf).changes
      · simp only [marked, Bool.false_eq_true, ↓reduceIte]
        exact .refl

/-- A call is a sequence of elementary changes. -/
theorem changes_of_call (b : Broker) (now : Nat) (call : Call) :
    Stock.Changes b.stock (b.incidents now call) (b.after now call).stock := by
  cases call with
  | create l => exact changes_of_create l
  | resolve l =>
    simp only [after, stock_resolve]
    exact .refl
  | failNext op count => exact .refl
  | draw => exact Stock.Change.draw.changes
  | send q m => exact changes_of_send b now q m
  | beginReceive o =>
    simp only [after, stock_beginReceive]
    exact .refl
  | check q o => exact changes_of_check b now q o
  | delete q receipt => exact changes_of_delete b now q receipt

/-- So is a history of calls. -/
theorem Reached.changes {log : List Incident} {b : Broker} (h : Reached log b) :
    Stock.Changes {} log b.stock := by
  induction h with
  | start => exact .refl
  | call h now call ih => exact ih.trans (changes_of_call _ now call)

end Broker

end Courier
