import Courier.Proofs.Broker.Ledger

/-!
# Repeated sends

A queue that keeps its messages in order stores nothing for a send that repeats the deduplication
identifier of another one within five minutes. The queue remembers this in windows, from which a
send removes those that have closed. Here the rule is stated by the sends alone: a send is a
repetition when the latest send with its identifier that was stored is less than five minutes old.

The clock of the sends does not run backwards. What other calls do in between, and at which
instants, does not matter.

## Main definitions

* `Sending`, `Broker.sending`: a send call and what came of it.
* `latestStored`: the latest send with an identifier that was stored.
* `Broker.Timed`: the histories of a broker with the instants of its sends.
* `Broker.Admits`: a send passes all checks.
* `Windowed`: the windows of a queue are those of the latest sends.

## Main results

* `Broker.Timed.windowed`: in a history the windows are those of the latest sends.
* `Broker.Timed.deduplication`: which sends are repetitions, and what becomes of all others.
-/

namespace Courier

/-- A send call and what came of it. -/
structure Sending where
  now : Nat
  url : String
  message : Outbound
  answer : Except QueueError MessageId
  /-- What the call has added to the messages of the queue. -/
  stored : List Stored

/-- Whether a send to the queue at an address has stored a message with a deduplication
identifier. -/
def Sending.opens (url key : String) (s : Sending) : Bool :=
  s.url = url && !s.stored.isEmpty && s.message.deduplication = some key

/-- The latest send with a deduplication identifier that was stored. -/
def latestStored (url key : String) (sends : List Sending) : Option Sending :=
  (sends.filter (·.opens url key)).getLast?

section

variable {url key : String} {sends : List Sending} {s : Sending}

theorem latestStored_of_opens (h : s.opens url key = true) :
    latestStored url key (sends ++ [s]) = some s := by
  simp [latestStored, h]

theorem latestStored_of_not_opens (h : s.opens url key = false) :
    latestStored url key (sends ++ [s]) = latestStored url key sends := by
  simp [latestStored, h]

theorem latestStored_eq_none (h : ∀ s ∈ sends, s.url = url → s.stored = []) :
    latestStored url key sends = none := by
  rw [latestStored, List.getLast?_eq_none_iff, List.filter_eq_nil_iff]
  intro s hs opens
  simp only [Sending.opens, Bool.and_eq_true, decide_eq_true_eq, Bool.not_eq_true'] at opens
  rw [h s hs opens.1.1] at opens
  simp at opens

theorem Sending.opens_of_stored_eq_nil (h : s.stored = []) : s.opens url key = false := by
  simp [Sending.opens, h]

theorem Sending.opens_of_url_ne (h : s.url ≠ url) : s.opens url key = false := by
  simp [Sending.opens, h]

end

/-! ### The queue -/

namespace Queue

variable {q : Queue} {now : Nat} {m : Outbound} {mint : Mint}

theorem push_repeated {w : Window}
    (found : (q.deduplicationOf m).bind (q.purge now).window? = some w) :
    q.push now m mint = (w.id, q.purge now, mint) := by
  have found' : ((q.purge now).deduplicationOf m).bind (q.purge now).window? = some w := found
  simp only [push, found']

theorem push_new (free : (q.deduplicationOf m).bind (q.purge now).window? = none) :
    q.push now m mint = (mint.drawMessageId.1,
      (q.purge now).store now m mint.drawMessageId.1, mint.drawMessageId.2) := by
  have free' : ((q.purge now).deduplicationOf m).bind (q.purge now).window? = none := free
  simp only [push, free']

theorem mem_purge {w : Window} :
    w ∈ (q.purge now).windows ↔ w ∈ q.windows ∧ now - w.openedAt < windowLength := by
  simp [purge, Window.isOpen]

theorem window?_eq_none {key : String} :
    q.window? key = none ↔ ∀ w ∈ q.windows, w.key ≠ key := by
  simp [window?]

theorem mem_of_window? {key : String} {w : Window} (h : q.window? key = some w) :
    w ∈ q.windows ∧ w.key = key :=
  ⟨List.mem_of_find?_eq_some h, of_decide_eq_true (List.find?_some h :)⟩

end Queue

/-- The windows of a queue are those of the latest sends, as long as these are recent. -/
structure Windowed (sends : List Sending) (clock : Nat) (url : String) (q : Queue) : Prop where
  sound : ∀ w ∈ q.windows, ∃ s, latestStored url w.key sends = some s ∧ s.answer = .ok w.id ∧
    s.now = w.openedAt
  complete : ∀ key s, latestStored url key sends = some s → clock - s.now < windowLength →
    ∃ w ∈ q.windows, w.key = key

namespace Windowed

variable {sends : List Sending} {clock now : Nat} {url : String} {q q' : Queue}

theorem build (none_ : ∀ s ∈ sends, s.url = url → s.stored = []) (empty : q.windows = []) :
    Windowed sends clock url q where
  sound := by simp [empty]
  complete key s latest := by
    rw [latestStored_eq_none none_] at latest
    cases latest

theorem same (h : Windowed sends clock url q) (windows : q'.windows = q.windows) :
    Windowed sends clock url q' where
  sound := windows ▸ h.sound
  complete := windows ▸ h.complete

theorem purge (h : Windowed sends clock url q) (later : clock ≤ now) :
    Windowed sends now url (q.purge now) where
  sound w hw := h.sound w (Queue.mem_purge.1 hw).1
  complete key s latest recent := by
    obtain ⟨w, hw, rfl⟩ := h.complete key s latest (by omega)
    obtain ⟨s', latest', -, openedAt⟩ := h.sound w hw
    obtain rfl : s = s' := Option.some.inj (latest.symm.trans latest')
    exact ⟨w, Queue.mem_purge.2 ⟨hw, openedAt ▸ recent⟩, rfl⟩

theorem ignore (h : Windowed sends clock url q) (later : clock ≤ now) {s : Sending}
    (silent : ∀ key, s.opens url key = false) : Windowed (sends ++ [s]) now url q where
  sound w hw := by
    rw [latestStored_of_not_opens (silent w.key)]
    exact h.sound w hw
  complete key s' latest recent := by
    rw [latestStored_of_not_opens (silent key)] at latest
    exact h.complete key s' latest (by omega)

/-- A new window replaces none, since there was none with its identifier. -/
theorem store (h : Windowed sends now url q) {s : Sending} (key : String) {id : MessageId}
    (free : ∀ w ∈ q.windows, w.key ≠ key)
    (opens : ∀ key', s.opens url key' = true ↔ key' = key) (answer : s.answer = .ok id)
    (windows : q'.windows = ⟨key, id, s.now⟩ :: q.windows) :
    Windowed (sends ++ [s]) now url q' where
  sound w hw := by
    rw [windows] at hw
    rcases List.mem_cons.1 hw with rfl | hw
    · exact ⟨s, latestStored_of_opens ((opens key).2 rfl), answer, rfl⟩
    · have silent : s.opens url w.key = false := by
        rw [← Bool.not_eq_true, opens]
        exact free w hw
      rw [latestStored_of_not_opens silent]
      exact h.sound w hw
  complete key' s' latest recent := by
    rw [windows]
    by_cases own : key' = key
    · exact ⟨_, List.mem_cons_self, own.symm⟩
    · have silent : s.opens url key' = false := by
        rw [← Bool.not_eq_true, opens]
        exact own
      rw [latestStored_of_not_opens silent] at latest
      obtain ⟨w, hw, key_eq⟩ := h.complete key' s' latest recent
      exact ⟨w, List.mem_cons_of_mem _ hw, key_eq⟩

/-- The window that a send finds is that of the latest send with its identifier. -/
theorem window?_purge (h : Windowed sends clock url q) (later : clock ≤ now) {key : String} :
    (∀ w, (q.purge now).window? key = some w → ∃ s, latestStored url key sends = some s ∧
      now - s.now < windowLength ∧ s.answer = .ok w.id) ∧
    ((q.purge now).window? key = none → ∀ s, latestStored url key sends = some s →
      windowLength ≤ now - s.now) := by
  refine ⟨fun w found => ?_, fun free s latest => ?_⟩
  · obtain ⟨mem, rfl⟩ := Queue.mem_of_window? found
    obtain ⟨hw, recent⟩ := Queue.mem_purge.1 mem
    obtain ⟨s, latest, answer, openedAt⟩ := h.sound w hw
    exact ⟨s, latest, openedAt ▸ recent, answer⟩
  · by_contra recent
    obtain ⟨w, hw, key_eq⟩ := (h.purge later).complete key s latest (by omega)
    exact Queue.window?_eq_none.1 free w hw key_eq

end Windowed

/-! ### The broker -/

namespace Broker

variable {b : Broker} {q : Identity} {m : Outbound} {queue : Queue} {url : String}

/-- A send passes all checks. -/
structure Admits (b : Broker) (q : Identity) (m : Outbound) (queue : Queue) : Prop where
  fault : b.faults.send = 0
  size : m.size ≤ sizeLimit
  there : b.queue? q.url = some queue
  group : queue.fifo = true → m.group ≠ none

/-- A send that does not pass a check fails, and leaves all queues with their windows alone. -/
theorem send_refused (now : Nat) (h : ∀ queue, ¬b.Admits q m queue) :
    (∃ e, (b.send now q m).1 = .error e) ∧ (b.send now q m).2.queues = b.queues := by
  simp only [send]
  split
  · next spent => exact ⟨⟨_, rfl⟩, (spendFault_keeps spent).1.trans rfl⟩
  · next unspent =>
    have fault : b.faults.send = 0 := spendFault_eq_none.1 unspent
    split
    · exact ⟨⟨_, rfl⟩, rfl⟩
    · next size =>
      split
      · exact ⟨⟨_, rfl⟩, rfl⟩
      · next queue there =>
        split
        · exact ⟨⟨_, rfl⟩, rfl⟩
        · next grouped =>
          exact absurd ⟨fault, Nat.le_of_not_lt size, there, fun fifo none_ =>
            grouped ⟨fifo, none_⟩⟩ (h queue)

theorem send_admitted (now : Nat) (h : b.Admits q m queue) :
    (b.send now q m).1 = .ok (queue.push now m b.mint).1 ∧
      (b.send now q m).2.queues = assign q.url (queue.push now m b.mint).2.1 b.queues := by
  obtain ⟨fault, size, there, group⟩ := h
  have unspent : ({ b with calls.send := b.calls.send + 1 } : Broker).spendFault .send = none :=
    spendFault_eq_none.2 fault
  have there' : ({ b with calls.send := b.calls.send + 1 } : Broker).queue? q.url = some queue :=
    there
  have grouped : ¬(queue.fifo = true ∧ m.group = none) := fun both => group both.1 both.2
  simp only [send, unspent, Nat.not_lt.2 size, there', grouped, ↓reduceIte, true_and]
  rfl

theorem queue?_of_queues {b b' : Broker} {queue : Queue} {other : String}
    (h : b'.queues = assign url queue b.queues) :
    b'.queue? other = if other = url then some queue else b.queue? other := by
  rw [queue?, h, lookup_assign]
  rfl

/-- A send call, with what it adds to the messages of its queue. -/
def sending (b : Broker) (now : Nat) (q : Identity) (m : Outbound) : Sending where
  now
  url := q.url
  message := m
  answer := (b.send now q m).1
  stored := ((b.send now q m).2.messages q.url).drop (b.messages q.url).length

/-- A repeated send is answered with the identifier in the window and stores nothing. -/
theorem send_repeated (now : Nat) (h : b.Admits q m queue) {w : Window}
    (found : (queue.deduplicationOf m).bind (queue.purge now).window? = some w) :
    (b.sending now q m).stored = [] ∧ (b.send now q m).1 = .ok w.id ∧
      (∀ url, (b.send now q m).2.messages url = b.messages url) ∧
      ∀ url, (b.send now q m).2.queue? url =
        if url = q.url then some (queue.purge now) else b.queue? url := by
  obtain ⟨answer, queues⟩ := send_admitted now h
  rw [Queue.push_repeated found] at answer queues
  have lookup (url : String) : (b.send now q m).2.queue? url =
      if url = q.url then some (queue.purge now) else b.queue? url := queue?_of_queues queues
  have same (url : String) : (b.send now q m).2.messages url = b.messages url := by
    rw [messages, lookup]
    split
    · next own =>
      rw [own, messages, h.there]
      rfl
    · rfl
  refine ⟨?_, answer, same, lookup⟩
  show ((b.send now q m).2.messages q.url).drop (b.messages q.url).length = []
  rw [same, List.drop_length]

/-- A send that is not repeated appends its message under a new identifier. -/
theorem send_new (now : Nat) (h : b.Admits q m queue)
    (free : (queue.deduplicationOf m).bind (queue.purge now).window? = none) :
    (b.sending now q m).stored = [m.toStored b.mint.drawMessageId.1 now] ∧
      (b.send now q m).1 = .ok b.mint.drawMessageId.1 ∧
      (∀ url, (b.send now q m).2.messages url = if url = q.url then
        b.messages url ++ [m.toStored b.mint.drawMessageId.1 now] else b.messages url) ∧
      ∀ url, (b.send now q m).2.queue? url = if url = q.url then
        some ((queue.purge now).store now m b.mint.drawMessageId.1) else b.queue? url := by
  obtain ⟨answer, queues⟩ := send_admitted now h
  rw [Queue.push_new free] at answer queues
  have lookup (url : String) : (b.send now q m).2.queue? url = if url = q.url then
      some ((queue.purge now).store now m b.mint.drawMessageId.1) else b.queue? url :=
    queue?_of_queues queues
  have grown (url : String) : (b.send now q m).2.messages url = if url = q.url then
      b.messages url ++ [m.toStored b.mint.drawMessageId.1 now] else b.messages url := by
    rw [messages, lookup]
    split
    · next own =>
      rw [own, messages, h.there]
      rfl
    · rfl
  refine ⟨?_, answer, grown, lookup⟩
  show ((b.send now q m).2.messages q.url).drop (b.messages q.url).length = _
  rw [grown, if_pos rfl, List.drop_left]

/-! ### Calls that leave queues and names alone -/

theorem resolve_keeps (b : Broker) (l : Locator) :
    (b.resolve l).2.queues = b.queues ∧ (b.resolve l).2.addresses = b.addresses := by
  simp only [resolve]
  split
  · next spent => exact spendFault_keeps spent
  · split <;> exact ⟨rfl, rfl⟩

theorem beginReceive_keeps (b : Broker) (now : Nat) (o : ReceiveOptions) :
    (b.beginReceive now o).2.queues = b.queues ∧
      (b.beginReceive now o).2.addresses = b.addresses := by
  simp only [beginReceive]
  split
  · next spent =>
    have same := spendFault_keeps spent
    exact same
  · split <;> exact ⟨rfl, rfl⟩

end Broker

/-- A queue keeps its windows in a call, and one that is new has none. -/
inductive KeepsWindows : Option Queue → Option Queue → Prop
  | absent : KeepsWindows none none
  | built {q} (empty : q.windows = []) : KeepsWindows none (some q)
  | kept {q q'} (fifo : q'.fifo = q.fifo) (windows : q'.windows = q.windows) :
      KeepsWindows (some q) (some q')

namespace KeepsWindows

variable {b b' : Broker} {url : String}

theorem refl (q : Option Queue) : KeepsWindows q q := by
  cases q with
  | none => exact .absent
  | some q => exact .kept rfl rfl

theorem of_queues (h : b'.queues = b.queues) : KeepsWindows (b.queue? url) (b'.queue? url) := by
  have same : b'.queue? url = b.queue? url := congrArg (List.lookup url) h
  rw [same]
  exact refl _

theorem setQueue {other : String} {q q' : Queue} (there : b.queue? other = some q)
    (fifo : q'.fifo = q.fifo) (windows : q'.windows = q.windows) :
    KeepsWindows (b.queue? url) ((b.setQueue other q').queue? url) := by
  have lookup : (b.setQueue other q').queue? url =
      if url = other then some q' else b.queue? url := Broker.queue?_of_queues rfl
  rw [lookup]
  split
  · next own =>
    rw [own, there]
    exact .kept fifo windows
  · exact refl _

theorem create (l : Locator) : KeepsWindows (b.queue? url) ((b.create l).2.queue? url) := by
  simp only [Broker.create]
  split
  · exact of_queues rfl
  · next absent =>
    have lookup : (b.setQueue l.address { fifo := l.name.isFifo }).queue? url =
        if url = l.address then some { fifo := l.name.isFifo } else b.queue? url :=
      Broker.queue?_of_queues rfl
    refine Eq.mpr (congrArg _ lookup) ?_
    split
    · next own =>
      rw [Option.not_isSome_iff_eq_none] at absent
      rw [own, absent]
      exact .built rfl
    · exact refl _

theorem check (now : Nat) (q : Identity) (o : ReceiveOptions) :
    KeepsWindows (b.queue? url) ((b.check now q o).2.queue? url) := by
  simp only [Broker.check]
  split
  · exact refl _
  · next queue there =>
    split
    · exact setQueue there rfl rfl
    · split
      · exact setQueue there rfl rfl
      · exact refl _

theorem delete (q : Identity) (receipt : Receipt) :
    KeepsWindows (b.queue? url) ((b.delete q receipt).2.queue? url) := by
  simp only [Broker.delete]
  split
  · next spent =>
    have same := Broker.spendFault_keeps spent
    exact of_queues same.1
  · split
    · exact refl _
    · next queue there =>
      split
      · next queue' removed =>
        unfold Queue.remove? at removed
        split at removed <;> cases removed
        exact setQueue there rfl rfl
      · exact refl _

theorem after {now : Nat} {call : Broker.Call} (other : ∀ q m, call ≠ .send q m) :
    KeepsWindows (b.queue? url) ((b.after now call).queue? url) := by
  cases call with
  | create l => exact create l
  | resolve l => exact of_queues (b.resolve_keeps l).1
  | failNext op count => exact of_queues rfl
  | draw => exact of_queues rfl
  | send q m => exact absurd rfl (other q m)
  | beginReceive o => exact of_queues (b.beginReceive_keeps now o).1
  | check q o => exact check now q o
  | delete q receipt => exact delete q receipt

end KeepsWindows

/-! ### Histories -/

namespace Broker

/-- The states to which calls lead from a broker without queues, with what has happened to messages
on the way, the sends, and the instant of the latest send. No send has an earlier instant than the
one before it. -/
inductive Timed : List Incident → List Sending → Nat → Broker → Prop
  | start : Timed [] [] 0 {}
  | send {log sends clock b} (h : Timed log sends clock b) {now} (later : clock ≤ now) (q m) :
      Timed (log ++ b.incidents now (.send q m)) (sends ++ [b.sending now q m]) now
        (b.after now (.send q m))
  | other {log sends clock b} (h : Timed log sends clock b) (now) {call}
      (other : ∀ q m, call ≠ .send q m) :
      Timed (log ++ b.incidents now call) sends clock (b.after now call)

namespace Timed

variable {log : List Incident} {sends : List Sending} {clock : Nat} {b : Broker} {url : String}

theorem reached (h : Timed log sends clock b) : Reached log b := by
  induction h with
  | start => exact .start
  | send h later q m ih => exact ih.call _ _
  | other h now other ih => exact ih.call now _

/-- What the sends say about the windows of a queue. -/
def Remembered (sends : List Sending) (clock : Nat) (url : String) (queue : Option Queue) : Prop :=
  (queue = none → ∀ s ∈ sends, s.url = url → s.stored = []) ∧
    ∀ q, queue = some q → q.fifo = true → Windowed sends clock url q

theorem Remembered.ignore {now : Nat} {queue : Option Queue} {s : Sending}
    (h : Remembered sends clock url queue) (later : clock ≤ now)
    (silent : s.url = url → s.stored = []) : Remembered (sends ++ [s]) now url queue := by
  have closed (key : String) : s.opens url key = false := by
    by_cases own : s.url = url
    · exact Sending.opens_of_stored_eq_nil (silent own)
    · exact Sending.opens_of_url_ne own
  refine ⟨fun absent s' hs' own => ?_, fun q there fifo => (h.2 q there fifo).ignore later closed⟩
  rcases List.mem_append.1 hs' with hs' | hs'
  · exact h.1 absent s' hs' own
  · rw [List.mem_singleton.1 hs'] at own ⊢
    exact silent own

/-- A send that is stored in a queue leaves the windows of that queue right. -/
theorem windowed_store {now : Nat} {q : Identity} {m : Outbound} {queue : Queue}
    (later : clock ≤ now) (admits : b.Admits q m queue) (fifo : queue.fifo = true)
    (free : (queue.deduplicationOf m).bind (queue.purge now).window? = none)
    (h : Windowed sends clock q.url queue) :
    Windowed (sends ++ [b.sending now q m]) now q.url
      ((queue.purge now).store now m b.mint.drawMessageId.1) := by
  obtain ⟨stored, answer, -, -⟩ := send_new now admits free
  have purged := h.purge later
  have ordered : (queue.purge now).deduplicationOf m = m.deduplication := if_pos fifo
  have ordered' : queue.deduplicationOf m = m.deduplication := if_pos fifo
  have opens (key : String) :
      (b.sending now q m).opens q.url key = true ↔ m.deduplication = some key := by
    simp [Sending.opens, stored, show (b.sending now q m).url = q.url from rfl,
      show (b.sending now q m).message = m from rfl]
  cases dedup : m.deduplication with
  | none =>
    have silent (key : String) : (b.sending now q m).opens q.url key = false := by
      rw [← Bool.not_eq_true, opens, dedup]
      nofun
    refine (purged.ignore (Nat.le_refl _) silent).same ?_
    simp only [Queue.store, ordered, dedup]
  | some key =>
    refine purged.store (s := b.sending now q m) key ?_ (fun key' => ?_) answer ?_
    · rw [ordered', dedup] at free
      exact Queue.window?_eq_none.1 free
    · rw [opens, dedup, Option.some.injEq, eq_comm]
    · simp only [Queue.store, ordered, dedup]
      rfl

theorem remembered_send {now : Nat} {q : Identity} {m : Outbound} (later : clock ≤ now)
    (h : ∀ url, Remembered sends clock url (b.queue? url)) (url : String) :
    Remembered (sends ++ [b.sending now q m]) now url ((b.send now q m).2.queue? url) := by
  by_cases passes : ∃ queue, b.Admits q m queue
  · obtain ⟨queue, admits⟩ := passes
    have own := (h q.url).2 queue admits.there
    cases found : (queue.deduplicationOf m).bind (queue.purge now).window? with
    | some w =>
      obtain ⟨stored, -, -, lookup⟩ := send_repeated now admits found
      rw [lookup]
      split
      · next same =>
        subst same
        have purged : Remembered sends now q.url (some (queue.purge now)) := by
          refine ⟨nofun, fun q' there fifo => ?_⟩
          cases there
          exact (own fifo).purge later
        exact purged.ignore (Nat.le_refl _) fun _ => stored
      · exact (h url).ignore later fun _ => stored
    | none =>
      obtain ⟨-, -, -, lookup⟩ := send_new now admits found
      rw [lookup]
      split
      · next same =>
        subst same
        refine ⟨nofun, fun q' there fifo => ?_⟩
        cases there
        exact windowed_store later admits fifo found (own fifo)
      · next other => exact (h url).ignore later fun same => absurd same.symm other
  · have refused : ∀ queue, ¬b.Admits q m queue := fun queue admits => passes ⟨queue, admits⟩
    obtain ⟨-, queues⟩ := send_refused now refused
    have same (url : String) : (b.send now q m).2.queue? url = b.queue? url :=
      congrArg (List.lookup url) queues
    have stored : (b.sending now q m).stored = [] := by
      show ((b.send now q m).2.messages q.url).drop (b.messages q.url).length = []
      rw [messages, messages, same, List.drop_length]
    rw [same]
    exact (h url).ignore later fun _ => stored

theorem remembered (h : Timed log sends clock b) :
    ∀ url, Remembered sends clock url (b.queue? url) := by
  induction h with
  | start => exact fun url => ⟨fun _ => List.forall_mem_nil _, nofun⟩
  | send h later q m ih => exact fun url => remembered_send later ih url
  | @other log sends clock b h now call other ih =>
    intro url
    have keeps : KeepsWindows (b.queue? url) ((b.after now call).queue? url) := .after other
    have before := ih url
    generalize b.queue? url = queue at keeps before
    generalize (b.after now call).queue? url = queue' at keeps
    cases keeps with
    | absent => exact before
    | built empty =>
      refine ⟨nofun, fun q same fifo => ?_⟩
      cases same
      exact .build (before.1 rfl) empty
    | @kept q₀ q' fifo_eq windows =>
      refine ⟨nofun, fun q same fifo => ?_⟩
      cases same
      exact (before.2 q₀ rfl (fifo_eq ▸ fifo)).same windows

/-- A send that passes all checks is a repetition exactly when the latest stored send with its
identifier is recent. -/
theorem stored_eq_nil_iff (h : Timed log sends clock b) {now : Nat} (later : clock ≤ now)
    {q : Identity} {m : Outbound} {queue : Queue} (admits : b.Admits q m queue)
    (fifo : queue.fifo = true) : (b.sending now q m).stored = [] ↔
      ∃ key s, m.deduplication = some key ∧ latestStored q.url key sends = some s ∧
        now - s.now < windowLength := by
  have windowed := (h.remembered q.url).2 queue admits.there fifo
  have ordered : queue.deduplicationOf m = m.deduplication := if_pos fifo
  constructor
  · intro nothing
    cases found : (queue.deduplicationOf m).bind (queue.purge now).window? with
    | none =>
      obtain ⟨stored, -⟩ := send_new now admits found
      rw [stored] at nothing
      cases nothing
    | some w =>
      obtain ⟨key, dedup, found⟩ := Option.bind_eq_some_iff.1 found
      obtain ⟨s, latest, recent, -⟩ := (windowed.window?_purge later).1 w found
      exact ⟨key, s, ordered ▸ dedup, latest, recent⟩
  · rintro ⟨key, s, dedup, latest, recent⟩
    cases found : (queue.purge now).window? key with
    | none =>
      have past := (windowed.window?_purge later).2 found s latest
      omega
    | some w => exact (send_repeated now admits (by rw [ordered, dedup]; exact found)).1

/-- On a queue that keeps its messages in order, a send that passes all checks is a repetition
exactly when the latest stored send with its deduplication identifier is less than five minutes
old. A repetition stores nothing and is answered like that send; every other send appends its
message under a new identifier. What stores nothing, because it is a repetition or because it does
not pass a check, does not count as a send for those that follow. -/
theorem deduplication (h : Timed log sends clock b) {now : Nat} (later : clock ≤ now)
    (q : Identity) (m : Outbound) :
    (∀ queue, b.Admits q m queue → queue.fifo = true →
      ((b.sending now q m).stored = [] ↔
        ∃ key s, m.deduplication = some key ∧ latestStored q.url key sends = some s ∧
          now - s.now < windowLength) ∧
      (∀ key s, m.deduplication = some key → latestStored q.url key sends = some s →
        now - s.now < windowLength →
        (∃ id, s.answer = .ok id ∧ (b.send now q m).1 = .ok id) ∧
          ∀ url, (b.send now q m).2.messages url = b.messages url) ∧
      ((b.sending now q m).stored ≠ [] →
        ∃ id, (b.send now q m).1 = .ok id ∧ id.text ∉ log.filterMap Incident.text? ∧
          ∀ url, (b.send now q m).2.messages url =
            if url = q.url then b.messages url ++ [m.toStored id now] else b.messages url)) ∧
    ((∀ queue, ¬b.Admits q m queue) → (∃ e, (b.send now q m).1 = .error e) ∧
      (b.sending now q m).stored = [] ∧
      ∀ url, (b.send now q m).2.queue? url = b.queue? url) ∧
    ((b.sending now q m).stored = [] → ∀ url key,
      latestStored url key (sends ++ [b.sending now q m]) = latestStored url key sends) := by
  refine ⟨fun queue admits fifo => ⟨h.stored_eq_nil_iff later admits fifo, ?_, ?_⟩, ?_, ?_⟩
  · intro key s dedup latest recent
    have windowed := (h.remembered q.url).2 queue admits.there fifo
    have ordered : queue.deduplicationOf m = m.deduplication := if_pos fifo
    cases found : (queue.purge now).window? key with
    | none =>
      have past := (windowed.window?_purge later).2 found s latest
      omega
    | some w =>
      obtain ⟨s', latest', -, answer⟩ := (windowed.window?_purge later).1 w found
      obtain rfl : s = s' := Option.some.inj (latest.symm.trans latest')
      have window : (queue.deduplicationOf m).bind (queue.purge now).window? = some w := by
        rw [ordered, dedup]
        exact found
      obtain ⟨-, repeated, same, -⟩ := send_repeated now admits window
      exact ⟨⟨w.id, answer, repeated⟩, same⟩
  · intro something
    cases found : (queue.deduplicationOf m).bind (queue.purge now).window? with
    | some w => exact absurd (send_repeated now admits found).1 something
    | none =>
      obtain ⟨-, answer, grown, -⟩ := send_new now admits found
      exact ⟨_, answer, h.reached.changes.ledger.fresh, grown⟩
  · intro refused
    obtain ⟨failed, queues⟩ := send_refused now refused
    have same (url : String) : (b.send now q m).2.queue? url = b.queue? url :=
      congrArg (List.lookup url) queues
    refine ⟨failed, ?_, same⟩
    show ((b.send now q m).2.messages q.url).drop (b.messages q.url).length = []
    rw [messages, messages, same, List.drop_length]
  · intro nothing url key
    exact latestStored_of_not_opens (Sending.opens_of_stored_eq_nil nothing)

end Timed

end Broker

/-! ### A repetition of a message that is gone -/

namespace Sample

/-- A queue that keeps its messages in order. -/
def drawer : Locator where
  name := ⟨"memos.fifo", by decide⟩

/-- The drawer as it is found. -/
def cabinet : Identity :=
  ⟨drawer.name, drawer.address⟩

/-- A message with a deduplication identifier. -/
def memo : Outbound where
  body := "envelope"
  group := some "notes"
  deduplication := some "once"

/-- The drawer has been created. -/
def furnished : Broker :=
  ({} : Broker).after 0 (.create drawer)

/-- The message has been sent. -/
def filed : Broker :=
  furnished.after 0 (.send cabinet memo)

/-- The message has been delivered. -/
def shown : Broker :=
  filed.after 1 (.check cabinet {})

/-- The message has been deleted. -/
def emptied : Broker :=
  shown.after 2 (.delete cabinet ⟨Mint.text 1⟩)

/-- What the sends have come to. -/
def filings : List Sending :=
  [furnished.sending 0 cabinet memo]

theorem emptied_timed : Broker.Timed
    ([] ++ ({} : Broker).incidents 0 (.create drawer) ++
      furnished.incidents 0 (.send cabinet memo) ++ filed.incidents 1 (.check cabinet {}) ++
      shown.incidents 2 (.delete cabinet ⟨Mint.text 1⟩)) filings 0 emptied := by
  have create (q : Identity) (m : Outbound) : Broker.Call.create drawer ≠ .send q m := nofun
  have check (q : Identity) (m : Outbound) : Broker.Call.check cabinet {} ≠ .send q m := nofun
  have delete (q : Identity) (m : Outbound) :
      Broker.Call.delete cabinet ⟨Mint.text 1⟩ ≠ .send q m := nofun
  exact (((Broker.Timed.start.other 0 create).send (Nat.le_refl 0) cabinet memo).other 1
    check).other 2 delete

end Sample

namespace Broker

/-- The message is gone, and yet its send is repeated until five minutes are over. -/
theorem Timed.deduplication_of_memos :
    Sample.emptied.messages Sample.cabinet.url = [] ∧
    (∃ queue, Sample.emptied.Admits Sample.cabinet Sample.memo queue ∧ queue.fifo = true) ∧
    (∃ id, (Sample.furnished.send 0 Sample.cabinet Sample.memo).1 = .ok id ∧
      (Sample.emptied.send 299999 Sample.cabinet Sample.memo).1 = .ok id) ∧
    (Sample.emptied.sending 300000 Sample.cabinet Sample.memo).stored ≠ [] := by
  have admits : Sample.emptied.Admits Sample.cabinet Sample.memo
      ((Sample.emptied.queue? Sample.cabinet.url).get rfl) :=
    ⟨rfl, by decide, rfl, fun _ => nofun⟩
  have latest : latestStored Sample.cabinet.url "once" Sample.filings =
      some (Sample.furnished.sending 0 Sample.cabinet Sample.memo) := rfl
  obtain ⟨early, -⟩ := Sample.emptied_timed.deduplication (Nat.zero_le 299999)
    Sample.cabinet Sample.memo
  obtain ⟨late, -⟩ := Sample.emptied_timed.deduplication (Nat.zero_le 300000)
    Sample.cabinet Sample.memo
  obtain ⟨-, repeated, -⟩ := early _ admits rfl
  obtain ⟨rule, -⟩ := late _ admits rfl
  refine ⟨rfl, ⟨_, admits, rfl⟩, (repeated "once" _ rfl latest (by decide)).1, fun nothing => ?_⟩
  obtain ⟨key, s, dedup, latest', recent⟩ := rule.1 nothing
  obtain rfl : "once" = key := Option.some.inj dedup
  rw [latest] at latest'
  obtain rfl := Option.some.inj latest'
  exact absurd recent (by decide)

end Broker

end Courier
