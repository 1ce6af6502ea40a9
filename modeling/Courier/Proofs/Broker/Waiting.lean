import Courier.Proofs.Broker.Failures
import Courier.Proofs.Broker.Scan
import Mathlib.Data.List.Chain

/-!
# Receive calls that wait for messages

A receive call looks for messages at once and then every ten milliseconds, until it finds some or
its time is over; the last wait is shorter when less time is left. Between two looks others may make
calls of any kind. The looks are listed with the brokers that they find, and it turns out that the
call is answered by its last look and that no other look has done anything.

## Main definitions

* `Broker.looks`: the looks of a receive call.
* `Broker.Waits`: what happens between two looks.
* `Broker.Answers`: what the last look finds.

## Main results

* `Broker.looks_length_le`: how often a receive call looks.
* `Broker.receive_waits`: how a receive call waits and what ends it.
-/

namespace Courier

namespace Queue

variable {queue : Queue} {now : Nat}

theorem taken_eq_nil {max : Nat} (some_ : 1 ≤ max) :
    queue.taken now max = [] ↔ queue.receivable now = [] := by
  rw [taken, List.take_eq_nil_iff]
  exact or_iff_right (by omega)

theorem batchOf_eq_nil {first : Nat} {taken : List (Stored × Nat)} :
    batchOf first taken = [] ↔ taken = [] := by
  rw [batchOf, List.map_eq_nil_iff, List.zipIdx_eq_nil_iff]

end Queue

namespace Broker

variable {others : Nat → Nat → Broker → Broker} {q : Identity} {o : ReceiveOptions}
  {b : Broker} {queue : Queue} {now deadline : Nat}

/-- The instants at which a receive call looks for messages, with the brokers that it finds. -/
def looks (others : Nat → Nat → Broker → Broker) (q : Identity) (o : ReceiveOptions)
    (deadline now : Nat) (b : Broker) : List (Nat × Broker) :=
  match b.check now q o with
  | (.error _, _) => [(now, b)]
  | (.ok batch, b') =>
    match h : nextLook now deadline batch with
    | none => [(now, b)]
    | some next =>
      have := nextLook_le h
      (now, b) :: looks others q o deadline next (others now next b')
termination_by deadline - now

/-- A look finds nothing that can be received and changes nothing. The call sleeps for ten
milliseconds, or until its time is over when this is earlier, while others make calls, and looks
again. -/
structure Waits (others : Nat → Nat → Broker → Broker) (q : Identity) (o : ReceiveOptions)
    (deadline : Nat) (look next : Nat × Broker) : Prop where
  nothing : ∃ queue, look.2.queue? q.url = some queue ∧ queue.receivable look.1 = []
  unchanged : look.2.check look.1 q o = (.ok [], look.2)
  early : look.1 < deadline
  time : next.1 = look.1 + min lookInterval (deadline - look.1)
  between : look.1 < next.1 ∧ next.1 ≤ deadline
  broker : next.2 = others look.1 next.1 look.2

/-- The last look finds something that can be received, or the time is over. What it finds is the
answer, unless messages would be hidden beyond the clock; then it is broken off. -/
structure Answers (q : Identity) (o : ReceiveOptions) (deadline : Nat) (look : Nat × Broker)
    (queue : Queue) (answer : Except ReceiveFailure (List Received)) : Prop where
  there : look.2.queue? q.url = some queue
  done : queue.receivable look.1 ≠ [] ∨ look.1 = deadline
  batch : queue.receivable look.1 = [] ∨ look.1 + o.visibilityTimeout ≤ lastInstant →
    answer = .ok (Queue.batchOf look.2.mint.next (queue.taken look.1 o.maxMessages))
  brokenOff : queue.receivable look.1 ≠ [] → lastInstant < look.1 + o.visibilityTimeout →
    answer = .error .beyondClock
  empty : answer = .ok [] ↔ queue.receivable look.1 = []

/-! ### The looks -/

theorem nextLook_eq_some {batch : List Received} {next : Nat} :
    nextLook now deadline batch = some next ↔
      batch = [] ∧ now < deadline ∧ next = now + min lookInterval (deadline - now) := by
  simp only [nextLook, Option.ite_none_right_eq_some, Option.some.injEq, List.isEmpty_iff,
    and_assoc]
  exact and_congr_right' (and_congr_right' eq_comm)

theorem nextLook_eq_none {batch : List Received} :
    nextLook now deadline batch = none ↔ batch ≠ [] ∨ deadline ≤ now := by
  simp only [nextLook, ite_eq_right_iff, reduceCtorEq, imp_false, not_and, Nat.not_lt,
    List.isEmpty_iff]
  exact imp_iff_not_or

theorem poll_last {answer : Except ReceiveFailure (List Received)} {b' : Broker}
    (looked : b.check now q o = (answer, b'))
    (last : ∀ batch, answer = .ok batch → nextLook now deadline batch = none) :
    poll others q o deadline now b = (answer, now, b') := by
  rw [poll, looked]
  cases answer with
  | error e => rfl
  | ok batch =>
    dsimp only
    split
    · rfl
    · next again => rw [last batch rfl] at again; cases again

theorem poll_next {batch : List Received} {b' : Broker} {next : Nat}
    (looked : b.check now q o = (.ok batch, b'))
    (again : nextLook now deadline batch = some next) :
    poll others q o deadline now b = poll others q o deadline next (others now next b') := by
  rw [poll, looked]
  dsimp only
  split
  · next last => rw [last] at again; cases again
  · next next' again' =>
    obtain rfl := Option.some.inj (again.symm.trans again')
    rfl

theorem looks_head? : (looks others q o deadline now b).head? = some (now, b) := by
  rw [looks]
  split
  · rfl
  · split <;> rfl

/-- A receive call looks once, and once more for every ten milliseconds that have begun. -/
theorem looks_length_le (others : Nat → Nat → Broker → Broker) (q : Identity) (o : ReceiveOptions)
    (deadline now : Nat) (b : Broker) :
    (looks others q o deadline now b).length ≤ (deadline - now + 9) / 10 + 1 := by
  fun_induction looks others q o deadline now b with
  | case1 => simp
  | case2 => simp
  | case3 now b batch b' looked next again bounds ih =>
    have time := (nextLook_eq_some.1 again).2.2
    simp only [List.length_cons, lookInterval] at *
    omega

theorem looks_of_le (late : deadline ≤ now) : looks others q o deadline now b = [(now, b)] := by
  rw [looks]
  split
  · rfl
  · split
    · rfl
    · next again => exact absurd (nextLook_eq_some.1 again).2.1 (Nat.not_lt.2 late)

/-! ### One look -/

theorem check_idle (there : b.queue? q.url = some queue) (idle : queue.receivable now = []) :
    b.check now q o = (.ok [], b) := by
  have none_ : queue.taken now o.maxMessages = [] := by rw [Queue.taken, idle, List.take_nil]
  rw [check_eq_ok there now o (.inl none_), none_, Queue.deliveredOf_nil]
  exact congrArg (Except.ok [], ·) (setQueue_of_queue there)

theorem check_answers (there : b.queue? q.url = some queue) (some_ : 1 ≤ o.maxMessages)
    (done : queue.receivable now ≠ [] ∨ now = deadline) :
    Answers q o deadline (now, b) queue (b.check now q o).1 := by
  have taken : queue.taken now o.maxMessages = [] ↔ queue.receivable now = [] :=
    Queue.taken_eq_nil some_
  have batch (inTime : queue.receivable now = [] ∨ now + o.visibilityTimeout ≤ lastInstant) :
      (b.check now q o).1 =
        .ok (Queue.batchOf b.mint.next (queue.taken now o.maxMessages)) :=
    congrArg Prod.fst (check_eq_ok there now o (inTime.imp_left taken.2))
  have brokenOff (found : queue.receivable now ≠ [])
      (overtime : lastInstant < now + o.visibilityTimeout) :
      (b.check now q o).1 = .error .beyondClock :=
    congrArg Prod.fst (check_eq_error there now o (found ∘ taken.1) overtime)
  refine ⟨there, done, batch, brokenOff, fun empty => ?_, fun idle => ?_⟩
  · by_contra found
    by_cases inTime : now + o.visibilityTimeout ≤ lastInstant
    · have none_ := Except.ok.inj ((batch (.inr inTime)).symm.trans empty)
      exact found (taken.1 (Queue.batchOf_eq_nil.1 none_))
    · have failed := (brokenOff found (Nat.lt_of_not_le inTime)).symm.trans empty
      cases failed
  · rw [check_idle there idle]

/-! ### The whole call -/

/-- The looks of a receive call are those between which it waits, and the last gives the answer. -/
theorem poll_waits (calls : AreCalls others) (there : b.queue? q.url = some queue)
    (some_ : 1 ≤ o.maxMessages) (within : now ≤ deadline) :
    (looks others q o deadline now b).IsChain (Waits others q o deadline) ∧
    ∃ look queue, (looks others q o deadline now b).getLast? = some look ∧
      poll others q o deadline now b =
        ((look.2.check look.1 q o).1, look.1, (look.2.check look.1 q o).2) ∧
      Answers q o deadline look queue (look.2.check look.1 q o).1 := by
  fun_induction looks others q o deadline now b generalizing queue with
  | case1 now b failure b' looked =>
    have found : queue.receivable now ≠ [] := by
      intro idle
      rw [check_idle there idle] at looked
      cases looked
    refine ⟨.singleton _, (now, b), queue, rfl, ?_, check_answers there some_ (.inl found)⟩
    exact looked ▸ poll_last looked nofun
  | case2 now b batch b' looked last =>
    refine ⟨.singleton _, (now, b), queue, rfl, ?_, check_answers there some_ ?_⟩
    · exact looked ▸ poll_last looked fun _ same => Except.ok.inj same ▸ last
    · refine (nextLook_eq_none.1 last).imp (fun found idle => ?_) (Nat.le_antisymm within)
      rw [check_idle there idle] at looked
      exact found (Except.ok.inj (congrArg Prod.fst looked)).symm
  | case3 now b batch b' looked next again bounds ih =>
    obtain ⟨rfl, early, time⟩ := nextLook_eq_some.1 again
    have answers : Answers q o now (now, b) queue (b.check now q o).1 :=
      check_answers there some_ (.inr rfl)
    have idle : queue.receivable now = [] := answers.empty.1 (congrArg Prod.fst looked)
    obtain rfl : b = b' := congrArg Prod.snd ((check_idle there idle).symm.trans looked)
    have waits : Waits others q o deadline (now, b) (next, others now next b) :=
      ⟨⟨queue, there, idle⟩, looked, early, time, bounds, rfl⟩
    obtain ⟨run, -, others_⟩ := calls now next b (Nat.le_of_lt bounds.1)
    obtain ⟨queue', there'⟩ := exists_queue_afterAll there run
    obtain ⟨chain, look, last, latest, answered, answers⟩ := ih (others_ ▸ there') bounds.2
    refine ⟨?_, look, last, ?_, (poll_next looked again).trans answered, answers⟩
    · refine chain.cons fun y first => ?_
      rw [looks_head?] at first
      exact Option.some.inj first ▸ waits
    · rw [List.getLast?_cons, latest]
      rfl

/-- A receive call of a queue that exists, for which no failure was asked, looks for messages at
once. Whatever calls others make meanwhile, it looks once more for every ten milliseconds that have
begun, at most, and never after its time. All looks but the last find nothing that can be received
and change nothing at all; the last one finds something or comes when the time is over, and what it
finds is the answer. Only when the messages that it finds would be hidden beyond the clock, the call
is broken off by this look. Without time to wait it looks once. -/
theorem receive_waits (calls : AreCalls others) (there : b.queue? q.url = some queue)
    (unasked : b.faults.receive = 0) (some_ : 1 ≤ o.maxMessages)
    (inTime : now + o.waitTime ≤ lastInstant) :
    let deadline := now + o.waitTime
    let looks := looks others q o deadline now (b.counted .receive)
    looks.length ≤ (o.waitTime + 9) / 10 + 1 ∧
    (o.waitTime = 0 → looks.length = 1) ∧
    looks.head? = some (now, b.counted .receive) ∧
    looks.IsChain (Waits others q o deadline) ∧
    ∃ look queue, looks.getLast? = some look ∧
      b.receive others now q o =
        ((look.2.check look.1 q o).1, look.1, (look.2.check look.1 q o).2) ∧
      Answers q o deadline look queue (look.2.check look.1 q o).1 := by
  have begun : b.beginReceive now o = (.ok (now + o.waitTime), b.counted .receive) := by
    have until_ : later? now o.waitTime = some (now + o.waitTime) := if_pos inTime
    simp only [beginReceive, spendFault, Faults.get, unasked, until_]
    rfl
  have polled : b.receive others now q o =
      poll others q o (now + o.waitTime) now (b.counted .receive) := by
    rw [receive, begun]
  have length := looks_length_le others q o (now + o.waitTime) now (b.counted .receive)
  rw [Nat.add_sub_cancel_left] at length
  have there' : (b.counted .receive).queue? q.url = some queue := there
  obtain ⟨chain, last⟩ := poll_waits calls there' some_ (Nat.le_add_right now o.waitTime)
  refine ⟨length, fun zero => ?_, looks_head?, chain, polled ▸ last⟩
  rw [looks_of_le (by omega), List.length_singleton]

end Broker

/-! ### Waiting for a letter, and a call that is broken off -/

namespace Sample

/-- The queue has been created, and nothing has been sent. -/
def opened : Broker :=
  ({} : Broker).after 0 (.create counter)

/-- Others send a letter during every wait. -/
def writing (_ next : Nat) (b : Broker) : Broker :=
  b.after next (.send window { body := "letter" })

/-- How somebody receives messages who waits for 25 milliseconds. -/
def patient : ReceiveOptions :=
  { glance with waitTime := 25 }

end Sample

namespace Broker

/-- The call looks four times at most. It is answered at its second look, after ten milliseconds,
with the letter that was sent during the first wait. -/
theorem receive_waits_for_letters :
    (looks Sample.writing Sample.window Sample.patient 25 0
      (Sample.opened.counted .receive)).length ≤ 4 ∧
    ((looks Sample.writing Sample.window Sample.patient 25 0
      (Sample.opened.counted .receive)).getLast?.map (·.1)) = some 10 ∧
    ∃ r b', Sample.opened.receive Sample.writing 0 Sample.window Sample.patient =
      (.ok [r], 10, b') ∧ r.body = "letter" ∧ r.receiveCount = 1 := by
  have calls : AreCalls Sample.writing := fun now next b later =>
    ⟨[(next, .send Sample.window { body := "letter" })], by simpa using later, rfl⟩
  obtain ⟨length, -, -, -, look, queue, last, answered, -⟩ :=
    @receive_waits _ Sample.window Sample.patient Sample.opened _ 0 calls rfl rfl (by decide)
      (by decide)
  have received : Sample.opened.receive Sample.writing 0 Sample.window Sample.patient =
      (.ok [_], 10, _) :=
    (poll_next (b := Sample.opened.counted .receive) rfl rfl).trans
      (poll_last rfl fun batch same => by cases same; rfl)
  obtain ⟨-, rest⟩ := Prod.mk.inj (received.symm.trans answered)
  obtain ⟨time, -⟩ := Prod.mk.inj rest
  have latest := congrArg (Option.map (·.1)) last
  rw [Option.map_some, ← time] at latest
  exact ⟨length, latest, _, _, received, rfl, rfl⟩

/-- A message can be received, and nothing is asked for that the clock cannot measure but the time
for which the message would be hidden. Still the call does not return it, and changes it. -/
theorem receive_broken_off : (∃ log, Reached log Sample.stocked) ∧
    1 ≤ Sample.forever.maxMessages ∧ Sample.stocked.faults.receive = 0 ∧
    0 + Sample.forever.waitTime ≤ lastInstant ∧
    ∃ queue m b', Sample.stocked.queue? Sample.window.url = some queue ∧
      queue.receivable 0 = [(m, 0)] ∧
      Sample.stocked.receive (fun _ _ b => b) 0 Sample.window Sample.forever =
        (.error .beyondClock, 0, b') ∧
      b'.messages Sample.window.url = [{ m with receiveCount := m.receiveCount + 1 }] := by
  refine ⟨⟨_, (Reached.start.call 0 (.create Sample.counter)).call 0
    (.send Sample.window { body := "parcel" })⟩, by decide, rfl, by decide, _, _,
    ((Sample.stocked.counted .receive).check 0 Sample.window Sample.forever).2, rfl, rfl, ?_, rfl⟩
  exact poll_last (b := Sample.stocked.counted .receive) rfl nofun

end Broker

end Courier
