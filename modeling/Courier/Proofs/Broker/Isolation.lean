import Courier.Proofs.Broker.Replies
import Courier.Proofs.QueueName

/-!
# Queues are kept apart

The address of a queue is the account that owns it, a slash, and the name of the queue. Accounts are
any texts, and may have slashes themselves; but a name has none, so the last slash of an address
tells the account and the name apart, and two queues have the same address only when they have the
same account and the same name.

Names are looked up in a table, and queues are found by their addresses. The table has exactly the
locators that have been created, each with its address, and at each of these addresses there is a
queue of the kind that the name says. A queue changes in the sends, looks and deletes at its own
address only; creating it again does nothing to it.

## Main definitions

* `Locator.account`: the account that owns a queue.
* `Broker.Call.subject?`: the address of the queue that a call is about.
* `Broker.Treats`: what a call does to the queue at an address.
* `Broker.Created`: a locator has been created in a run, and its creation was answered.
* `Broker.Tidy`: the table and the queues belong together.

## Main results

* `Locator.address_inj`: addresses tell accounts and names apart.
* `Broker.treats`: the queue at an address changes in calls about it only.
* `Broker.tidy_afterAll`: the table and the queues belong together after any run.
* `Broker.queues_kept_apart`: which queues are the same, what is looked up, and what calls leave
  alone.
-/

namespace Courier

/-! ### Addresses -/

/-- The account that owns a queue, the local one unless another is named. -/
def Locator.account (l : Locator) : String :=
  l.owner.getD "local"

theorem QueueName.slash_not_mem (n : QueueName) : '/' ∉ n.text.toList := by
  obtain ⟨-, fifo, form⟩ := ofText_isOk_iff.1 ⟨n, ofText_eq_ok.2 rfl⟩
  intro slash
  rcases form.mem '/' slash with char | char
  · exact absurd char (by unfold IsWordChar; decide)
  · exact absurd char (by decide)

/-- What stands before and behind the last occurrence of a separator is determined by the whole. -/
theorem append_cons_inj_of_last {α : Type} {x : α} {before before' behind behind' : List α}
    (last : x ∉ behind) (last' : x ∉ behind')
    (same : before ++ x :: behind = before' ++ x :: behind') :
    before = before' ∧ behind = behind' := by
  -- If one of the parts in front were longer, it would end in the separator of the other one.
  have meet {mid ys zs : List α} (free : x ∉ ys) (rest : x :: ys = mid ++ x :: zs) :
      mid = [] ∧ ys = zs := by
    cases mid with
    | nil => exact ⟨rfl, (List.cons.inj rest).2⟩
    | cons y mid =>
      have inside : ys = mid ++ x :: zs := (List.cons.inj rest).2
      exact absurd (inside ▸ List.mem_append_right mid List.mem_cons_self) free
  rcases List.append_eq_append_iff.1 same with ⟨mid, longer, rest⟩ | ⟨mid, longer, rest⟩
  · obtain ⟨rfl, rfl⟩ := meet last rest
    exact ⟨(longer.trans (List.append_nil before)).symm, rfl⟩
  · obtain ⟨rfl, rfl⟩ := meet last' rest
    exact ⟨longer.trans (List.append_nil before'), rfl⟩

/-- Addresses tell accounts and names apart. -/
theorem Locator.address_inj {l l' : Locator} :
    l.address = l'.address ↔ l.name = l'.name ∧ l.account = l'.account := by
  have parts (l : Locator) : l.address.toList =
      "memory://".toList ++ (l.account.toList ++ '/' :: l.name.text.toList) := by
    simp [address, account, localOwner]
  have whole (l : Locator) : l.address = "memory://" ++ l.account ++ "/" ++ l.name.text := rfl
  constructor
  · intro same
    have lists := congrArg String.toList same
    rw [parts, parts, List.append_cancel_left_eq] at lists
    obtain ⟨accounts, names⟩ :=
      append_cons_inj_of_last l.name.slash_not_mem l'.name.slash_not_mem lists
    exact ⟨QueueName.mk.injEq .. ▸ String.toList_inj.1 names, String.toList_inj.1 accounts⟩
  · rintro ⟨name, account⟩
    rw [whole, whole, name, account]

namespace Broker

/-! ### What a call does to a queue -/

/-- The address of the queue that a call is about, if it is about what is in one. -/
def Call.subject? : Call → Option String
  | .send q _ | .check q _ | .delete q _ => some q.url
  | .create _ | .resolve _ | .failNext _ _ | .draw | .beginReceive _ => none

/-- What a call does to the queue at an address: it leaves it alone, or builds it, or changes what
is in it. -/
inductive Treats (b : Broker) (url : String) (call : Call) : Option Queue → Prop
  | spared : Treats b url call (b.queue? url)
  | built {l} (absent : b.queue? url = none) (own : call = .create l) (here : l.address = url) :
      Treats b url call (some { fifo := l.name.isFifo })
  | changed {queue queue'} (there : b.queue? url = some queue) (about : call.subject? = some url)
      (fifo : queue'.fifo = queue.fifo) : Treats b url call (some queue')

variable {b b' : Broker} {url : String} {now : Nat} {call : Call} {l : Locator}

theorem queue?_create (b : Broker) (l : Locator) (url : String) : (b.create l).2.queue? url =
    if url = l.address ∧ b.queue? url = none then some { fifo := l.name.isFifo }
    else b.queue? url := by
  cases there : b.queue? l.address with
  | some queue =>
    have same : (b.create l).2.queue? url = b.queue? url := by
      simp only [create, there, Option.isSome_some, ↓reduceIte]
      rfl
    rw [same, if_neg]
    rintro ⟨rfl, absent⟩
    cases there.symm.trans absent
  | none =>
    have grown : (b.create l).2.queue? url =
        if url = l.address then some { fifo := l.name.isFifo } else b.queue? url := by
      simp only [create, there, Option.isSome_none, Bool.false_eq_true, ↓reduceIte]
      exact queue?_of_queues rfl
    rw [grown]
    by_cases own : url = l.address
    · rw [if_pos own, if_pos ⟨own, own ▸ there⟩]
    · rw [if_neg own, if_neg fun both => own both.1]

theorem Treats.of_queues (same : b'.queues = b.queues) : Treats b url call (b'.queue? url) := by
  have lookup : b'.queue? url = b.queue? url := congrArg (List.lookup url) same
  exact lookup ▸ .spared

/-- The queue that a call is about may change, but not its kind. -/
theorem Treats.setQueue {other : String} {queue queue' : Queue}
    (there : b.queue? other = some queue) (about : call.subject? = some other)
    (fifo : queue'.fifo = queue.fifo) :
    Treats b url call ((b.setQueue other queue').queue? url) := by
  have lookup : (b.setQueue other queue').queue? url =
      if url = other then some queue' else b.queue? url := queue?_of_queues rfl
  rw [lookup]
  split
  · next own =>
    subst own
    exact .changed there about fifo
  · exact .spared

/-- A queue is built by its creation, and changes in calls about it only. -/
theorem treats (b : Broker) (now : Nat) (call : Call) (url : String) :
    Treats b url call ((b.after now call).queue? url) := by
  cases call with
  | create l =>
    rw [after, queue?_create]
    split
    · next new => exact .built new.2 rfl new.1.symm
    · exact .spared
  | resolve l => exact .of_queues (b.resolve_keeps l).1
  | failNext op count => exact .of_queues rfl
  | draw => exact .of_queues rfl
  | send q m =>
    rw [after]
    cases b.send_outcome now q m with
    | refused answer incidents lookup =>
      rw [lookup]
      exact .spared
    | repeated there old answer incidents lookup | stored there answer incidents lookup =>
      rw [lookup]
      split
      · next own =>
        subst own
        exact .changed there rfl rfl
      · exact .spared
  | beginReceive o => exact .of_queues (b.beginReceive_keeps now o).1
  | check q o =>
    simp only [after, check]
    split
    · exact .spared
    · next queue there =>
      split
      · exact .setQueue there rfl rfl
      · split
        · exact .setQueue there rfl rfl
        · exact .spared
  | delete q receipt =>
    simp only [after, delete]
    split
    · next spent =>
      have same := spendFault_keeps spent
      exact .of_queues same.1
    · split
      · exact .spared
      · next queue there =>
        split
        · next queue' removed =>
          exact .setQueue there rfl (Queue.remove?_eq_some removed).1
        · exact .spared

/-- What is not about the contents of a queue, and does not create it, does nothing to it. -/
theorem queue?_after_of_elsewhere (about : call.subject? ≠ some url)
    (created : ∀ l, call = .create l → l.address = url → b.queue? url ≠ none) :
    (b.after now call).queue? url = b.queue? url := by
  have treated := b.treats now call url
  generalize (b.after now call).queue? url = result at treated
  cases treated with
  | spared => rfl
  | built absent own here => exact absurd absent (created _ own here)
  | changed there about' fifo => exact absurd about' about

theorem queue?_after_of_subject {other : String} (about : call.subject? = some other)
    (apart : url ≠ other) : (b.after now call).queue? url = b.queue? url := by
  refine queue?_after_of_elsewhere (about ▸ fun same => apart (Option.some.inj same).symm) ?_
  rintro l rfl
  cases about

/-- A queue is left alone by runs that have no sends, looks and deletes at its address, whatever is
created in them; and where there is none, it takes a creation to have one. -/
theorem queue?_afterAll_of_elsewhere (run : List (Nat × Call))
    (about : ∀ c ∈ run, c.2.subject? ≠ some url)
    (created : b.queue? url = none → ∀ t l, (t, .create l) ∈ run → l.address ≠ url) :
    (b.afterAll run).queue? url = b.queue? url := by
  induction run generalizing b with
  | nil => rfl
  | cons c run ih =>
    obtain ⟨now, call⟩ := c
    have kept : (b.after now call).queue? url = b.queue? url :=
      queue?_after_of_elsewhere (about _ List.mem_cons_self) fun l own here absent =>
        created absent now l (own ▸ List.mem_cons_self) here
    have rest := ih (b := b.after now call) (fun c mem => about c (List.mem_cons_of_mem _ mem))
      fun absent t l mem => created (kept ▸ absent) t l (List.mem_cons_of_mem _ mem)
    exact rest.trans kept

/-- A receive call changes only the queue from which it receives, and those that others change while
it waits. -/
theorem queue?_receive {others : Nat → Nat → Broker → Broker} {q : Identity}
    (calm : ∀ now next b, (others now next b).queue? url = b.queue? url) (other : url ≠ q.url)
    (b : Broker) (now : Nat) (o : ReceiveOptions) :
    (b.receive others now q o).2.2.queue? url = b.queue? url := by
  have look {b b' : Broker} {now : Nat} {answer : Except ReceiveFailure (List Received)}
      (looked : b.check now q o = (answer, b')) : b'.queue? url = b.queue? url := by
    have kept : (b.after now (.check q o)).queue? url = b.queue? url :=
      queue?_after_of_subject rfl other
    rwa [after, looked] at kept
  have looks (deadline now : Nat) (b : Broker) :
      (poll others q o deadline now b).2.2.queue? url = b.queue? url := by
    fun_induction poll others q o deadline now b with
    | case1 now b failure b' looked => exact look looked
    | case2 now b batch b' looked => exact look looked
    | case3 now b batch b' looked next again bounds ih =>
      exact ih.trans ((calm now next b').trans (look looked))
  have begun : (b.beginReceive now o).2.queue? url = b.queue? url :=
    congrArg (List.lookup url) (b.beginReceive_keeps now o).1
  simp only [receive]
  split
  · next answer =>
    rwa [answer] at begun
  · next deadline b' answer =>
    rw [answer] at begun
    exact (looks deadline now b').trans begun

/-! ### The table of addresses -/

/-- Only creations change the table in which names are looked up. -/
theorem addresses_after (other : ∀ l, call ≠ .create l) :
    (b.after now call).addresses = b.addresses := by
  cases call with
  | create l => exact absurd rfl (other l)
  | failNext op count | draw => rfl
  | resolve l => exact (b.resolve_keeps l).2
  | send q m =>
    simp only [after, send]
    split
    · next spent => exact (spendFault_keeps spent).2.trans rfl
    · split
      · rfl
      · split
        · rfl
        · split <;> rfl
  | beginReceive o => exact (b.beginReceive_keeps now o).2
  | check q o =>
    simp only [after, check]
    split
    · rfl
    · split
      · rfl
      · split <;> rfl
  | delete q receipt =>
    simp only [after, delete]
    split
    · next spent => exact (spendFault_keeps spent).2.trans rfl
    · split
      · rfl
      · split <;> rfl

/-- A creation enters its locator with the address, whatever stood there before. -/
theorem lookup_create (b : Broker) (l l' : Locator) : (b.create l).2.addresses.lookup l' =
    if l' = l then some l.address else b.addresses.lookup l' :=
  lookup_assign ..

theorem lookup_afterAll (b : Broker) (run : List (Nat × Call)) (l : Locator) :
    ((b.afterAll run).addresses.lookup l).isSome ↔
      (b.addresses.lookup l).isSome ∨ ∃ t, (t, .create l) ∈ run := by
  induction run generalizing b with
  | nil => simp
  | cons c run ih =>
    obtain ⟨now, call⟩ := c
    rw [afterAll_cons, ih]
    by_cases create : ∃ l', call = .create l'
    · obtain ⟨l', rfl⟩ := create
      rw [after, lookup_create]
      by_cases own : l = l'
      · subst own
        simp
      · have other : Call.create l ≠ .create l' := fun same => own (Call.create.inj same)
        simp [own, other]
    · have other (l' : Locator) : call ≠ .create l' := fun same => create ⟨l', same⟩
      rw [addresses_after other]
      simp [(other l).symm]

/-- The table and the queues belong together: what is looked up is the address of the locator, a
queue is there, and queues are of the kind that their names say. -/
structure Tidy (b : Broker) : Prop where
  known : ∀ l url, b.addresses.lookup l = some url →
    url = l.address ∧ ∃ queue, b.queue? url = some queue
  kind : ∀ (l : Locator) queue, b.queue? l.address = some queue → queue.fifo = l.name.isFifo

theorem exists_queue_create (b : Broker) (l : Locator) :
    ∃ queue, (b.create l).2.queue? l.address = some queue := by
  rw [queue?_create]
  split
  · exact ⟨_, rfl⟩
  · next old => exact Option.ne_none_iff_exists'.1 fun absent => old ⟨rfl, absent⟩

theorem Tidy.after (tidy : Tidy b) (now : Nat) (call : Call) : Tidy (b.after now call) where
  known l url entry := by
    have kept (entry : b.addresses.lookup l = some url) :
        url = l.address ∧ ∃ queue, (b.after now call).queue? url = some queue := by
      obtain ⟨own, queue, there⟩ := tidy.known l url entry
      exact ⟨own, exists_queue_after there now call⟩
    by_cases create : ∃ l', call = .create l'
    · obtain ⟨l', rfl⟩ := create
      rw [Broker.after, lookup_create] at entry
      split at entry
      · next own =>
        cases entry
        subst own
        exact ⟨rfl, b.exists_queue_create l⟩
      · exact kept entry
    · rw [addresses_after fun l' same => create ⟨l', same⟩] at entry
      exact kept entry
  kind l queue there := by
    have treated := b.treats now call l.address
    generalize (b.after now call).queue? l.address = result at treated there
    cases treated with
    | spared => exact tidy.kind l queue there
    | built absent own here =>
      -- Whatever its owner is called, a queue at this address has the same name.
      cases there
      rw [(Locator.address_inj.1 here).1]
    | changed there' about fifo =>
      cases there
      exact fifo.trans (tidy.kind l _ there')

/-- The table and the queues belong together after any run. -/
theorem tidy_afterAll (run : List (Nat × Call)) (tidy : Tidy b) : Tidy (b.afterAll run) := by
  induction run generalizing b with
  | nil => exact tidy
  | cons c run ih => exact ih (tidy.after c.1 c.2)

theorem tidy_start : Tidy {} where
  known _ _ entry := nomatch entry
  kind _ _ there := nomatch there

/-! ### Looking up what was created -/

/-- A locator has been created in a run of a broker that had no queues, and the creation was
answered with the identity. -/
def Created (run : List (Nat × Call)) (l : Locator) (q : Identity) : Prop :=
  ∃ t, ⟨t, .create l, .created q⟩ ∈ ({} : Broker).transcript run

/-- Creations are answered with the name and the address, whatever has happened before. -/
theorem create_mem_transcript {t : Nat} {q : Identity} (b : Broker) (run : List (Nat × Call)) :
    ⟨t, .create l, .created q⟩ ∈ b.transcript run ↔
      (t, .create l) ∈ run ∧ q = ⟨l.name, l.address⟩ := by
  induction run generalizing b with
  | nil => simp
  | cons c run ih =>
    obtain ⟨now, call⟩ := c
    have head : (⟨t, .create l, .created q⟩ : Entry) = ⟨now, call, b.reply now call⟩ ↔
        (t, Call.create l) = (now, call) ∧ q = ⟨l.name, l.address⟩ := by
      constructor
      · intro same
        obtain ⟨rfl, rfl, answer⟩ := Entry.mk.inj same
        exact ⟨rfl, Reply.created.inj answer⟩
      · rintro ⟨same, rfl⟩
        cases same
        rfl
    rw [transcript_cons, List.mem_cons, List.mem_cons, ih, head, or_and_right]

theorem created_iff {run : List (Nat × Call)} {q : Identity} :
    Created run l q ↔ (∃ t, (t, .create l) ∈ run) ∧ q = ⟨l.name, l.address⟩ := by
  simp only [Created, create_mem_transcript, exists_and_right]

/-- Unless a failure is asked for, looking up a name gives what stands in the table. -/
theorem resolve_unasked (unasked : b.faults.resolve = 0) (l : Locator) :
    (b.resolve l).1 = match b.addresses.lookup l with
      | some url => .ok ⟨l.name, url⟩
      | none => .error (.queueNotFound l.text) := by
  have unspent : b.spendFault .resolve = none := spendFault_eq_none.2 unasked
  simp only [resolve, unspent]
  cases b.addresses.lookup l <;> rfl

theorem unasked_of_resolve {q : Identity} (found : (b.resolve l).1 = .ok q) :
    b.faults.resolve = 0 := by
  simp only [resolve] at found
  split at found
  · cases found
  · next unspent => exact spendFault_eq_none.1 unspent

/-- What is looked up is what has been created. -/
theorem resolve_afterAll {run : List (Nat × Call)}
    (unasked : (({} : Broker).afterAll run).faults.resolve = 0) (l : Locator) :
    (∀ q, ((({} : Broker).afterAll run).resolve l).1 = .ok q ↔ Created run l q) ∧
      ((∀ q, ¬Created run l q) →
        ((({} : Broker).afterAll run).resolve l).1 = .error (.queueNotFound l.text)) := by
  have entered := lookup_afterAll {} run l
  have known := (tidy_afterAll run tidy_start).known l
  rw [resolve_unasked unasked]
  cases entry : (({} : Broker).afterAll run).addresses.lookup l with
  | some url =>
    obtain ⟨rfl, -⟩ := known url entry
    have created : ∃ t, (t, Call.create l) ∈ run := by simpa [entry] using entered
    simp [created_iff, created, eq_comm]
  | none =>
    have never : ¬∃ t, (t, Call.create l) ∈ run := by simpa [entry] using entered
    simp [created_iff, never]

/-- **Queues are kept apart.** Two creations are answered with the same address exactly when the
names and the accounts are the same, whatever texts the accounts are; who names no owner means the
account `local`.

After any run a locator is found exactly when it has been created itself, and with the identity that
its creation was answered with; it does not help that there is a queue at its address. The queue is
there, and keeps its messages in order exactly when the name says so.

A creation builds an empty queue where there is none, and does nothing to a queue that is there.
Sends, receive calls and deletes at one address do nothing to the queue at another, and neither does
any run of calls about other queues. -/
theorem queues_kept_apart :
    (∀ (b b' : Broker) (l l' : Locator), (b.create l).1.url = (b'.create l').1.url ↔
      l.name = l'.name ∧ l.owner.getD "local" = l'.owner.getD "local") ∧
    (∀ (run : List (Nat × Call)) (l : Locator), let b := ({} : Broker).afterAll run
      (b.faults.resolve = 0 → (∀ q, (b.resolve l).1 = .ok q ↔ Created run l q) ∧
        ((∀ q, ¬Created run l q) → (b.resolve l).1 = .error (.queueNotFound l.text))) ∧
      (∀ q, (b.resolve l).1 = .ok q → Created run l q) ∧
      ∀ q, Created run l q → q.name = l.name ∧
        ∃ queue, b.queue? q.url = some queue ∧ queue.fifo = l.name.isFifo) ∧
    (∀ (b : Broker) (l : Locator) (url : String), (b.create l).2.queue? url =
      if url = l.address ∧ b.queue? url = none then some { fifo := l.name.isFifo }
      else b.queue? url) ∧
    (∀ (b : Broker) (q : Identity) (url : String), url ≠ q.url →
      (∀ now m, (b.send now q m).2.queue? url = b.queue? url) ∧
      (∀ others : Nat → Nat → Broker → Broker,
        (∀ now next b, (others now next b).queue? url = b.queue? url) →
        ∀ now o, (b.receive others now q o).2.2.queue? url = b.queue? url) ∧
      ∀ receipt, (b.delete q receipt).2.queue? url = b.queue? url) ∧
    ∀ (b : Broker) (url : String) (run : List (Nat × Call)),
      (∀ c ∈ run, c.2.subject? ≠ some url) →
      (b.queue? url = none → ∀ t l, (t, .create l) ∈ run → l.address ≠ url) →
      (b.afterAll run).queue? url = b.queue? url := by
  refine ⟨fun _ _ _ _ => Locator.address_inj, fun run l => ⟨fun unasked => ?_, fun q found => ?_,
    fun q created => ?_⟩, queue?_create, fun b q url other => ⟨fun now m => ?_,
    fun others calm => ?_, fun receipt => ?_⟩, fun b url run => queue?_afterAll_of_elsewhere run⟩
  · exact resolve_afterAll unasked l
  · exact ((resolve_afterAll (unasked_of_resolve found) l).1 q).1 found
  · obtain ⟨entered, rfl⟩ := created_iff.1 created
    have tidy := tidy_afterAll run tidy_start
    have entry := (lookup_afterAll {} run l).2 (.inr entered)
    obtain ⟨url, entry⟩ := Option.isSome_iff_exists.1 entry
    obtain ⟨rfl, queue, there⟩ := tidy.known l url entry
    exact ⟨rfl, queue, there, tidy.kind l queue there⟩
  · have sent : (b.after now (.send q m)).queue? url = b.queue? url :=
      queue?_after_of_subject rfl other
    exact sent
  · exact fun now o => queue?_receive calm other b now o
  · have deleted : (b.after 0 (.delete q receipt)).queue? url = b.queue? url :=
      queue?_after_of_subject rfl other
    exact deleted

end Broker

/-! ### One drawer under two names -/

namespace Sample

/-- The drawer, for those who name the local account. -/
def ownDrawer : Locator where
  name := drawer.name
  owner := some "local"

/-- A drawer of an account whose name has a slash. -/
def otherDrawer : Locator where
  name := drawer.name
  owner := some "local/"

/-- The drawer has been created, and a message has been sent to it. -/
def filing : List (Nat × Broker.Call) :=
  [(0, .create drawer), (0, .send cabinet memo)]

end Sample

namespace Broker

/-- The drawer has one address under both names, but is found only by the name under which it was
created. The message and its window stay in it when it is created again, and when others look for
messages elsewhere. -/
theorem queues_kept_apart_of_drawers :
    ((({} : Broker).create Sample.ownDrawer).1.url = Sample.drawer.address ∧
      (({} : Broker).create Sample.otherDrawer).1.url ≠ Sample.drawer.address) ∧
    ((({} : Broker).afterAll Sample.filing).resolve Sample.drawer).1 = .ok Sample.cabinet ∧
    ((({} : Broker).afterAll Sample.filing).resolve Sample.ownDrawer).1 =
      .error (.queueNotFound "local/memos.fifo") ∧
    ∃ queue, Sample.filed.queue? Sample.cabinet.url = some queue ∧ queue.messages.length = 1 ∧
      queue.windows.length = 1 ∧
      (Sample.filed.after 1 (.create Sample.ownDrawer)).queue? Sample.cabinet.url = some queue ∧
      (Sample.filed.receive (fun _ _ b => b) 0 Sample.window {}).2.2.queue? Sample.cabinet.url =
        some queue := by
  obtain ⟨addresses, looked, -, elsewhere, runs⟩ := queues_kept_apart
  have same := (addresses {} {} Sample.ownDrawer Sample.drawer).2 ⟨rfl, rfl⟩
  have other := mt (addresses {} {} Sample.otherDrawer Sample.drawer).1 fun both =>
    absurd both.2 (by decide)
  obtain ⟨found, -⟩ := (looked Sample.filing Sample.drawer).1 rfl
  obtain ⟨-, unknown⟩ := (looked Sample.filing Sample.ownDrawer).1 rfl
  have never (q : Identity) : ¬Created Sample.filing Sample.ownDrawer q := by
    rw [created_iff]
    simp [Sample.filing, show Sample.ownDrawer ≠ Sample.drawer by decide]
  obtain ⟨-, received, -⟩ := elsewhere Sample.filed Sample.window Sample.cabinet.url (by decide)
  have again := runs Sample.filed Sample.cabinet.url [(1, .create Sample.ownDrawer)]
    (by simp [Call.subject?]) nofun
  exact ⟨⟨same, other⟩, (found Sample.cabinet).2 ⟨0, .head _⟩, unknown never, _, rfl, rfl, rfl,
    again, received _ (fun _ _ _ => rfl) 0 {}⟩

end Broker

end Courier
