import Courier.Broker.Poll
import Courier.Proofs.Broker.Journal

/-!
# Runs of a broker with the answers of all calls

Several clients may use a broker at once, and some of them wait. What they do comes down to one
list of calls in the order of their instants, a receive call being its beginning and its looks. Such
a run has an answer for every call. While a receive call waits, others make calls, whatever they
are.

## Main definitions

* `Broker.Reply`, `Broker.reply`: the answer of any call.
* `Broker.afterAll`, `Broker.transcript`: the broker after a run, and the run with its answers.
* `Broker.AreCalls`: what happens to a broker between two instants comes from calls.

## Main results

* `Broker.exists_queue_afterAll`: queues are never given up.
-/

namespace Courier

namespace Broker

/-- The answer of a call. -/
inductive Reply where
  | created (q : Identity)
  | resolved (answer : Except QueueError Identity)
  /-- A request for failures is not answered. -/
  | noted
  | drawn (text : String)
  | sent (answer : Except QueueError MessageId)
  | begun (answer : Except ReceiveFailure Nat)
  | looked (answer : Except ReceiveFailure (List Received))
  | deleted (answer : Except QueueError Unit)

/-- The answer of a call at an instant. -/
def reply (b : Broker) (now : Nat) : Call → Reply
  | .create l => .created (b.create l).1
  | .resolve l => .resolved (b.resolve l).1
  | .failNext _ _ => .noted
  | .draw => .drawn b.mint.draw.1
  | .send q m => .sent (b.send now q m).1
  | .beginReceive o => .begun (b.beginReceive now o).1
  | .check q o => .looked (b.check now q o).1
  | .delete q receipt => .deleted (b.delete q receipt).1

/-- The error that is returned, if one is. -/
def Reply.error? : Reply → Option QueueError
  | .resolved (.error e) | .sent (.error e) | .begun (.error (.refused e))
  | .looked (.error (.refused e)) | .deleted (.error e) => some e
  | _ => none

/-- The operation that begins with a call, if failures of it can be asked for. -/
def Call.operation? : Call → Option Operation
  | .resolve _ => some .resolve
  | .send _ _ => some .send
  | .beginReceive _ => some .receive
  | .delete _ _ => some .delete
  | .create _ | .failNext _ _ | .draw | .check _ _ => none

/-! ### Runs -/

/-- A call at an instant, with its answer. -/
structure Entry where
  time : Nat
  call : Call
  reply : Reply

/-- The call of an entry, at its instant. -/
def Entry.timed (x : Entry) : Nat × Call :=
  (x.time, x.call)

/-- The broker after calls at given instants. -/
def afterAll (b : Broker) : List (Nat × Call) → Broker
  | [] => b
  | (now, call) :: run => (b.after now call).afterAll run

/-- Calls at given instants with their answers. -/
def transcript (b : Broker) : List (Nat × Call) → List Entry
  | [] => []
  | (now, call) :: run => ⟨now, call, b.reply now call⟩ :: (b.after now call).transcript run

@[simp] theorem afterAll_nil (b : Broker) : b.afterAll [] = b := rfl

@[simp] theorem afterAll_cons (b : Broker) (now : Nat) (call : Call) (run : List (Nat × Call)) :
    b.afterAll ((now, call) :: run) = (b.after now call).afterAll run := rfl

@[simp] theorem transcript_nil (b : Broker) : b.transcript [] = [] := rfl

@[simp] theorem transcript_cons (b : Broker) (now : Nat) (call : Call) (run : List (Nat × Call)) :
    b.transcript ((now, call) :: run) =
      ⟨now, call, b.reply now call⟩ :: (b.after now call).transcript run := rfl

theorem afterAll_append (b : Broker) (run run' : List (Nat × Call)) :
    b.afterAll (run ++ run') = (b.afterAll run).afterAll run' := by
  induction run generalizing b with
  | nil => rfl
  | cons c run ih => exact ih (b.after c.1 c.2)

theorem transcript_append (b : Broker) (run run' : List (Nat × Call)) :
    b.transcript (run ++ run') = b.transcript run ++ (b.afterAll run).transcript run' := by
  induction run generalizing b with
  | nil => rfl
  | cons c run ih => exact congrArg (List.cons _) (ih (b.after c.1 c.2))

/-! ### What others do while a call waits -/

/-- What `others` do to a broker between two instants comes from calls at instants in between. -/
def AreCalls (others : Nat → Nat → Broker → Broker) : Prop :=
  ∀ now next b, now ≤ next → ∃ run : List (Nat × Call), (∀ c ∈ run, now ≤ c.1 ∧ c.1 ≤ next) ∧
    others now next b = b.afterAll run

theorem exists_queue_after {b : Broker} {url : String} {queue : Queue}
    (there : b.queue? url = some queue) (now : Nat) (call : Call) :
    ∃ queue', (b.after now call).queue? url = some queue' := by
  by_cases send : ∃ q m, call = .send q m
  · obtain ⟨q, m, rfl⟩ := send
    simp only [after]
    cases b.send_outcome now q m with
    | refused answer incidents lookup => exact ⟨queue, lookup url ▸ there⟩
    | repeated found old answer incidents lookup | stored found answer incidents lookup =>
      rw [lookup]
      split
      · exact ⟨_, rfl⟩
      · exact ⟨queue, there⟩
  · have keeps : KeepsWindows (b.queue? url) ((b.after now call).queue? url) :=
      .after fun q m same => send ⟨q, m, same⟩
    rw [there] at keeps
    generalize (b.after now call).queue? url = queue' at keeps
    cases keeps with
    | kept fifo windows => exact ⟨_, rfl⟩

/-- Queues are never given up. -/
theorem exists_queue_afterAll {b : Broker} {url : String} {queue : Queue}
    (there : b.queue? url = some queue) (run : List (Nat × Call)) :
    ∃ queue', (b.afterAll run).queue? url = some queue' := by
  induction run generalizing b queue with
  | nil => exact ⟨queue, there⟩
  | cons c run ih =>
    obtain ⟨queue', there'⟩ := exists_queue_after there c.1 c.2
    exact ih there'

end Broker

end Courier
