import Courier.Proofs.Broker.Replies

/-!
# Calls that fail

A call that is answered with an error changes nothing in the queues and in the table of names. It is
counted, unless it looks up a name, and a failure that was asked for is taken from the budget of its
operation. The budgets of the four operations are independent, and nothing else reads them. So
calls that fail on request can be left out of a run, with the requests, and nobody notices.

A receive call that waits is its beginning, which may fail on request, and its looks. It fails at
its beginning or at its first look, and never after it has waited.

## Main definitions

* `Operation.failure`: the error of a failure that was asked for.
* `Broker.Fails`: what a failed call does to a broker.
* `Entry.isInjected`, `Entry.isRequest`: the entries of a run that can be left out.
* `Broker.Alike`: brokers that differ in budgets and counts only.

## Main results

* `Broker.transcript_unspent`: a run without the calls that fail on request.
* `Broker.failures_leave_no_trace`: atomicity of the operations, the calls that fail on request, and
  runs without them.
-/

namespace Courier

/-- The error of a failure that was asked for. -/
def Operation.failure (op : Operation) : QueueError :=
  .connectionFailed s!"injected {op.word} failure"

/-- The answer of a call that begins an operation and fails. -/
def Operation.refused (op : Operation) (e : QueueError) : Broker.Reply :=
  match op with
  | .resolve => .resolved (.error e)
  | .receive => .begun (.error (.refused e))
  | .send => .sent (.error e)
  | .delete => .deleted (.error e)

@[simp] theorem Operation.error?_refused (op : Operation) (e : QueueError) :
    (op.refused e).error? = some e := by
  cases op <;> rfl

/-- Counts a call of an operation. Looking up a name is not counted. -/
def Calls.count (c : Calls) : Operation → Calls
  | .resolve => c
  | .receive => { c with receive := c.receive + 1 }
  | .send => { c with send := c.send + 1 }
  | .delete => { c with delete := c.delete + 1 }

/-- What a call leaves of the budget `n` of an operation. A failure that there is none of cannot be
taken. -/
def Broker.Call.budget (call : Broker.Call) (op : Operation) (n : Nat) : Nat :=
  match call with
  | .failNext op' count => if op' = op then count else n
  | call => if call.operation? = some op then n - 1 else n

theorem Broker.Call.budget_of_operation {call : Broker.Call} {op : Operation}
    (of : call.operation? = some op) (n : Nat) : call.budget op n = n - 1 := by
  cases call <;> cases of <;> rfl

theorem Broker.Call.budget_of_other {call : Broker.Call} {op : Operation}
    (other : call.operation? ≠ some op) (unasked : ∀ m, call ≠ .failNext op m) (n : Nat) :
    call.budget op n = n := by
  cases call with
  | failNext op' m => exact if_neg fun own => unasked m (by rw [own])
  | _ => simp [budget, other]

namespace Faults

@[simp] theorem get_set_self (f : Faults) (op : Operation) (n : Nat) : (f.set op n).get op = n := by
  cases op <;> rfl

theorem get_set_of_ne (f : Faults) {op op' : Operation} (h : op' ≠ op) (n : Nat) :
    (f.set op n).get op' = f.get op' := by
  cases op <;> cases op' <;> first | rfl | exact absurd rfl h

@[simp] theorem set_get (f : Faults) (op : Operation) : f.set op (f.get op) = f := by
  cases op <;> rfl

/-- The budgets without those of some operations. -/
def without (f : Faults) (which : Operation → Bool) : Faults where
  resolve := if which .resolve then 0 else f.resolve
  receive := if which .receive then 0 else f.receive
  send := if which .send then 0 else f.send
  delete := if which .delete then 0 else f.delete

theorem get_without (f : Faults) (which : Operation → Bool) (op : Operation) :
    (f.without which).get op = if which op then 0 else f.get op := by
  cases op <;> rfl

/-- The budgets after a call. -/
def after (f : Faults) (call : Broker.Call) : Faults :=
  match call with
  | .failNext op count => f.set op count
  | call =>
    match call.operation? with
    | some op => f.set op (f.get op - 1)
    | none => f

theorem get_after (f : Faults) (call : Broker.Call) (op : Operation) :
    (f.after call).get op = call.budget op (f.get op) := by
  cases call with
  | failNext op' n =>
    by_cases own : op' = op
    · subst own
      simp [after, Broker.Call.budget]
    · rw [Broker.Call.budget, if_neg own]
      exact f.get_set_of_ne (Ne.symm own) n
  | create | draw | check => rfl
  | resolve | send | beginReceive | delete => cases op <;> rfl

end Faults

namespace Broker

/-- The broker when a call of an operation has been counted. -/
def counted (b : Broker) (op : Operation) : Broker :=
  { b with calls := b.calls.count op }

/-- The broker with other counts and budgets. -/
def framed (b : Broker) (c : Calls) (f : Faults) : Broker :=
  { b with calls := c, faults := f }

/-- Two brokers have the same queues with their messages and windows and the same table of names,
and give the same identifiers next. -/
structure SameStorage (b b' : Broker) : Prop where
  queues : b'.queues = b.queues
  addresses : b'.addresses = b.addresses
  mint : b'.mint = b.mint

theorem SameStorage.symm {b b' : Broker} (h : SameStorage b b') : SameStorage b' b :=
  ⟨h.queues.symm, h.addresses.symm, h.mint.symm⟩

theorem SameStorage.trans {b b' b'' : Broker} (h : SameStorage b b') (h' : SameStorage b' b'') :
    SameStorage b b'' :=
  ⟨h'.queues.trans h.queues, h'.addresses.trans h.addresses, h'.mint.trans h.mint⟩

/-- A failed call leaves the storage alone. It is counted, and a failure that was asked for is taken
from the budget of the operation; there was one to take exactly when the error is that failure. -/
structure Fails (op : Operation) (e : QueueError) (b b' : Broker) : Prop where
  storage : SameStorage b b'
  calls : b'.calls = b.calls.count op
  injected : e = op.failure ↔ 0 < b.faults.get op
  spent : e = op.failure → b.faults.get op = b'.faults.get op + 1 ∧
    b'.faults = b.faults.set op (b'.faults.get op)
  unspent : e ≠ op.failure → b'.faults = b.faults

variable {b b' : Broker} {now : Nat} {op : Operation} {call : Call} {e : QueueError}

/-! ### One call -/

/-- As long as the budget is not used up, a call takes from it and does nothing else. -/
theorem call_of_fault (now : Nat) (of : call.operation? = some op) {n : Nat}
    (budget : b.faults.get op = n + 1) :
    b.reply now call = op.refused op.failure ∧
      b.after now call = (b.counted op).failNext op n := by
  cases call <;> cases of <;> simp only [Faults.get] at budget <;>
    simp only [reply, after, resolve, send, beginReceive, delete, spendFault, Faults.get,
      budget] <;> exact ⟨rfl, rfl⟩

theorem call_of_error (of : call.operation? = some op) (budget : b.faults.get op = 0)
    (failed : (b.reply now call).error? = some e) :
    e ≠ op.failure ∧ b.after now call = b.counted op := by
  revert failed
  cases call <;> cases of <;> simp only [Faults.get] at budget
  case resolve l =>
    simp only [reply, after, resolve, spendFault, Faults.get, budget]
    split <;> rintro ⟨⟩
    exact ⟨by rintro ⟨⟩, rfl⟩
  case send q m =>
    simp only [reply, after, send, spendFault, Faults.get, budget]
    split
    · rintro ⟨⟩
      exact ⟨by rintro ⟨⟩, rfl⟩
    · split
      · rintro ⟨⟩
        exact ⟨by rintro ⟨⟩, rfl⟩
      · split <;> rintro ⟨⟩
        exact ⟨by rintro ⟨⟩, rfl⟩
  case beginReceive o =>
    simp only [reply, beginReceive, spendFault, Faults.get, budget]
    split <;> rintro ⟨⟩
  case delete q receipt =>
    simp only [reply, after, delete, spendFault, Faults.get, budget]
    split
    · rintro ⟨⟩
      exact ⟨by rintro ⟨⟩, rfl⟩
    · split <;> rintro ⟨⟩
      exact ⟨by rintro ⟨⟩, rfl⟩

theorem Fails.counted (budget : b.faults.get op = 0) (own : e ≠ op.failure) :
    Fails op e b (b.counted op) where
  storage := ⟨rfl, rfl, rfl⟩
  calls := rfl
  injected := by simp [own, budget]
  spent injected := absurd injected own
  unspent _ := rfl

theorem fails_of_error (of : call.operation? = some op)
    (failed : (b.reply now call).error? = some e) : Fails op e b (b.after now call) := by
  cases budget : b.faults.get op with
  | zero =>
    obtain ⟨own, after⟩ := call_of_error of budget failed
    exact after ▸ .counted budget own
  | succ n =>
    obtain ⟨answer, after⟩ := call_of_fault now of budget
    obtain rfl : op.failure = e := by simpa [answer] using failed
    rw [after]
    exact {
      storage := ⟨rfl, rfl, rfl⟩
      calls := rfl
      injected := by simp [budget]
      spent := fun _ => ⟨by simp [failNext, budget], by simp [failNext, counted]⟩
      unspent := fun own => absurd rfl own }

/-- A call fails on request as long as there is a budget. -/
theorem error_eq_failure_iff (of : call.operation? = some op) :
    (b.reply now call).error? = some op.failure ↔ 0 < b.faults.get op := by
  cases budget : b.faults.get op with
  | zero => exact iff_of_false (fun failed => (call_of_error of budget failed).1 rfl) (by simp)
  | succ n =>
    refine iff_of_true ?_ (Nat.succ_pos n)
    rw [(call_of_fault now of budget).1, Operation.error?_refused]

/-- The part of a call that other budgets and counts do not change: its answer, and what it does. -/
theorem call_framed_of_zero (now : Nat) (of : call.operation? = some op)
    (budget : b.faults.get op = 0)
    (c : Calls) {f : Faults} (same : f.get op = 0) :
    (b.framed c f).reply now call = b.reply now call ∧
      (b.framed c f).after now call = (b.after now call).framed (c.count op) f := by
  cases call <;> cases of <;> simp only [Faults.get] at budget same
  case resolve l =>
    simp only [reply, after, resolve, spendFault, Faults.get, framed, budget, same]
    split <;> exact ⟨rfl, rfl⟩
  case send q m =>
    simp only [reply, after, send, spendFault, Faults.get, framed, budget, same, queue?]
    split
    · exact ⟨rfl, rfl⟩
    · split
      · exact ⟨rfl, rfl⟩
      · split <;> exact ⟨rfl, rfl⟩
  case beginReceive o =>
    simp only [reply, after, beginReceive, spendFault, Faults.get, framed, budget, same]
    split <;> exact ⟨rfl, rfl⟩
  case delete q receipt =>
    simp only [reply, after, delete, spendFault, Faults.get, framed, budget, same, queue?]
    split
    · exact ⟨rfl, rfl⟩
    · split <;> exact ⟨rfl, rfl⟩

/-- A call reads the budget of its own operation only, and takes from no other. Nothing reads the
counts. -/
theorem call_framed (c : Calls) {f : Faults}
    (same : ∀ op, call.operation? = some op → f.get op = b.faults.get op) :
    (b.framed c f).reply now call = b.reply now call ∧
      ∃ c', (b.framed c f).after now call = (b.after now call).framed c' (f.after call) := by
  cases of : call.operation? with
  | none =>
    cases call with
    | create l => exact ⟨rfl, c, rfl⟩
    | failNext op count => exact ⟨rfl, c, rfl⟩
    | draw => exact ⟨rfl, c, rfl⟩
    | check q o =>
      simp only [reply, after, check, framed, queue?]
      split
      · exact ⟨rfl, c, rfl⟩
      · split
        · exact ⟨rfl, c, rfl⟩
        · split <;> exact ⟨rfl, c, rfl⟩
    | _ => cases of
  | some op =>
    have same := same op of
    have spent : f.after call = f.set op (f.get op - 1) := by
      cases call <;> cases of <;> rfl
    rw [spent]
    cases budget : b.faults.get op with
    | zero =>
      rw [budget] at same
      obtain ⟨answer, after⟩ := call_framed_of_zero now of budget c same
      have kept : f.set op (f.get op - 1) = f := by
        conv_rhs => rw [← f.set_get op, same]
        rw [same]
      exact ⟨answer, _, after.trans (by rw [kept])⟩
    | succ n =>
      rw [budget] at same
      obtain ⟨answer, after⟩ := call_of_fault now of budget
      obtain ⟨answer', after'⟩ := call_of_fault (b := b.framed c f) now of same
      refine ⟨answer'.trans answer.symm, c.count op, ?_⟩
      rw [after', after, same]
      rfl

/-- A call that begins an operation takes from the budget of that operation, and a request sets one;
nothing else changes budgets. -/
theorem faults_after (b : Broker) (now : Nat) (call : Call) :
    (b.after now call).faults = b.faults.after call := by
  obtain ⟨-, c, after⟩ := @call_framed b now call b.calls b.faults fun _ _ => rfl
  exact congrArg Broker.faults after

/-! ### Runs without the calls that fail on request -/

/-- The operation whose failures an entry asks for, or that fails on request there. -/
def Entry.injection? (x : Entry) : Option Operation :=
  match x.call with
  | .failNext op _ => some op
  | call => call.operation?.filter fun op => x.reply.error? = some op.failure

/-- The entries of a run but the requests for failures of some operations and the calls that fail
on request. -/
def sparing (which : Operation → Bool) (b : Broker) (run : List (Nat × Call)) : List Entry :=
  (b.transcript run).filter fun x => !x.injection?.any which

/-- The broker when no failures of some operations are asked for. -/
def without (b : Broker) (which : Operation → Bool) : Broker :=
  { b with faults := b.faults.without which }

/-- The brokers have the same storage. The second has no budgets for the operations in question, and
the same ones for all others. The counts may differ. -/
structure Alike (which : Operation → Bool) (b b' : Broker) : Prop where
  storage : SameStorage b b'
  budgets : ∀ op, b'.faults.get op = if which op then 0 else b.faults.get op

theorem injection?_eq_some {answer : Reply} : Entry.injection? ⟨now, call, answer⟩ = some op ↔
    (∃ n, call = .failNext op n) ∨
      call.operation? = some op ∧ answer.error? = some op.failure := by
  cases call <;> simp [Entry.injection?, Call.operation?, Option.filter_eq_some_iff]

namespace Alike

variable {which : Operation → Bool}

theorem without (b : Broker) (which : Operation → Bool) : Alike which b (b.without which) where
  storage := ⟨rfl, rfl, rfl⟩
  budgets := b.faults.get_without which

theorem asked (b : Broker) (op : Operation) (n : Nat) :
    Alike (· = op) (b.failNext op n) (b.failNext op 0) where
  storage := ⟨rfl, rfl, rfl⟩
  budgets op' := by
    by_cases own : op' = op
    · subst own
      simp [failNext]
    · simp [failNext, Faults.get_set_of_ne _ own, own]

theorem eq_framed (h : Alike which b b') : b' = b.framed b'.calls b'.faults := by
  obtain ⟨⟨queues, addresses, mint⟩, -⟩ := h
  cases b
  cases b'
  cases queues
  cases addresses
  cases mint
  rfl

theorem kept (h : Alike which b b') (spared : ¬(Entry.injection? ⟨now, call, b.reply now call⟩).any
    which = true) : b'.reply now call = b.reply now call ∧
      Alike which (b.after now call) (b'.after now call) := by
  have same : ∀ op, call.operation? = some op → b'.faults.get op = b.faults.get op := by
    intro op of
    rw [h.budgets op]
    split
    · next mem =>
      by_contra positive
      have injected : (b.reply now call).error? = some op.failure :=
        (error_eq_failure_iff of).2 (by omega)
      refine spared ((Option.any_eq_true _ _).2 ⟨op, ?_, mem⟩)
      exact injection?_eq_some.2 (.inr ⟨of, injected⟩)
    · rfl
  obtain ⟨answer, c, after⟩ := @call_framed b now call b'.calls b'.faults same
  rw [← h.eq_framed] at answer after
  refine ⟨answer, after ▸ ⟨rfl, rfl, rfl⟩, fun op => ?_⟩
  rw [faults_after, faults_after, Faults.get_after, Faults.get_after, h.budgets op]
  split
  · next mem =>
    cases call with
    | failNext op' n =>
      refine if_neg fun own => ?_
      subst own
      exact spared mem
    | _ => simp [Call.budget]
  · rfl

theorem dropped (h : Alike which b b')
    (injection : (Entry.injection? ⟨now, call, b.reply now call⟩).any which = true) :
    Alike which (b.after now call) b' := by
  obtain ⟨op, found, mem⟩ := (Option.any_eq_true _ _).1 injection
  have undone : SameStorage (b.after now call) b := by
    rcases injection?_eq_some.1 found with ⟨n, rfl⟩ | ⟨of, injected⟩
    · exact ⟨rfl, rfl, rfl⟩
    · exact (fails_of_error of injected).storage.symm
  have others : ∀ op', op' ≠ op → ∀ n, call.budget op' n = n := by
    intro op' apart n
    rcases injection?_eq_some.1 found with ⟨n, rfl⟩ | ⟨of, -⟩
    · exact if_neg apart.symm
    · refine Call.budget_of_other (fun other => apart ?_) ?_ n
      · exact Option.some.inj (other.symm.trans of)
      · rintro m rfl
        cases of
  refine ⟨undone.trans h.storage, fun op' => ?_⟩
  rw [faults_after, Faults.get_after, h.budgets op']
  split
  · rfl
  · next out => exact (others op' (fun same => out (same ▸ mem)) _).symm

/-- A run without the requests for failures of some operations, and without the calls that fail on
request, has the same answers and leads to the same storage. -/
theorem run (h : Alike which b b') (calls : List (Nat × Call)) :
    b'.transcript ((b.sparing which calls).map Entry.timed) = b.sparing which calls ∧
      Alike which (b.afterAll calls) (b'.afterAll ((b.sparing which calls).map Entry.timed)) := by
  induction calls generalizing b b' with
  | nil => exact ⟨rfl, h⟩
  | cons c calls ih =>
    obtain ⟨now, call⟩ := c
    by_cases injection : (Entry.injection? ⟨now, call, b.reply now call⟩).any which = true
    · have rest : b.sparing which ((now, call) :: calls) =
          (b.after now call).sparing which calls := by
        simp [sparing, injection]
      rw [rest]
      exact ih (h.dropped injection)
    · have rest : b.sparing which ((now, call) :: calls) =
          ⟨now, call, b.reply now call⟩ :: (b.after now call).sparing which calls := by
        simp [sparing, injection]
      obtain ⟨answer, after⟩ := h.kept injection
      obtain ⟨answers, alike⟩ := ih after
      rw [rest, List.map_cons]
      refine ⟨?_, alike⟩
      rw [Entry.timed, transcript_cons, answer, answers]

end Alike

theorem map_timed_transcript (b : Broker) (run : List (Nat × Call)) :
    (b.transcript run).map Entry.timed = run := by
  induction run generalizing b with
  | nil => rfl
  | cons c run ih => exact congrArg (List.cons c) (ih _)

theorem Alike.future (h : Alike (fun _ => false) b b') (run : List (Nat × Call)) :
    b'.transcript run = b.transcript run ∧ SameStorage (b.afterAll run) (b'.afterAll run) := by
  have all : b.sparing (fun _ => false) run = b.transcript run :=
    List.filter_eq_self.2 fun x _ => by cases x.injection? <;> rfl
  obtain ⟨answers, alike⟩ := h.run run
  rw [all, map_timed_transcript] at answers alike
  exact ⟨answers, alike.storage⟩

/-- With the next request it does not matter any more whether the former one was made. -/
theorem Alike.resumed (h : Alike (· = op) b b') {rest : List (Nat × Call)}
    (asks : ∀ c ∈ rest.head?, ∃ m, c.2 = .failNext op m) :
    b'.transcript rest = b.transcript rest ∧ SameStorage (b.afterAll rest) (b'.afterAll rest) := by
  cases rest with
  | nil => exact ⟨rfl, h.storage⟩
  | cons c rest =>
    obtain ⟨now, call⟩ := c
    obtain ⟨m, rfl⟩ := asks _ rfl
    have same : Alike (fun _ => false) (b.failNext op m) (b'.failNext op m) := by
      refine ⟨⟨h.storage.queues, h.storage.addresses, h.storage.mint⟩, fun op' => ?_⟩
      by_cases own : op' = op
      · subst own
        simp [failNext]
      · have kept := h.budgets op'
        simp only [own, decide_false] at kept
        simpa [failNext, Faults.get_set_of_ne _ own] using kept
    obtain ⟨answers, storage⟩ := same.future rest
    exact ⟨congrArg (List.cons _) answers, storage⟩

/-- Until the next request, the calls of an operation use up its budget one after the other. -/
theorem injected_iff (b : Broker) (op : Operation) (segment : List (Nat × Call))
    (unasked : ∀ c ∈ segment, ∀ n, c.2 ≠ .failNext op n) (i : Nat) (x : Entry)
    (nth : ((b.transcript segment).filter (·.call.operation? = some op))[i]? = some x) :
    x.reply.error? = some op.failure ↔ i < b.faults.get op := by
  induction segment generalizing b i with
  | nil => cases nth
  | cons c segment ih =>
    obtain ⟨now, call⟩ := c
    have unasked_ := (List.forall_mem_cons.1 unasked).2
    by_cases of : call.operation? = some op
    · have left : (b.after now call).faults.get op = b.faults.get op - 1 := by
        rw [faults_after, Faults.get_after, Call.budget_of_operation of]
      rw [transcript_cons, List.filter_cons_of_pos (by simpa using of)] at nth
      cases i with
      | zero =>
        obtain rfl := Option.some.inj nth
        exact error_eq_failure_iff of
      | succ i =>
        rw [ih _ unasked_ i nth, left]
        omega
    · have left : (b.after now call).faults.get op = b.faults.get op := by
        rw [faults_after, Faults.get_after, Call.budget_of_other of]
        exact fun n => unasked _ List.mem_cons_self n
      rw [transcript_cons, List.filter_cons_of_neg (by simpa using of)] at nth
      rw [ih _ unasked_ i nth, left]

/-! ### Receive calls -/

/-- A receive call of a queue that exists is not refused after its beginning. -/
theorem poll_not_refused {others : Nat → Nat → Broker → Broker} (calls : AreCalls others)
    {q : Identity} {queue : Queue} (there : b.queue? q.url = some queue) (o : ReceiveOptions)
    (deadline now : Nat) : (poll others q o deadline now b).1 ≠ .error (.refused e) := by
  fun_induction poll others q o deadline now b generalizing queue with
  | case1 now b failure b' looked =>
    rintro ⟨⟩
    have refused := congrArg Prod.fst looked
    simp only [check, there] at refused
    split at refused
    · cases refused
    · split at refused <;> cases refused
  | case2 now b batch b' looked => rintro ⟨⟩
  | case3 now b batch b' looked next again bounds ih =>
    obtain ⟨queue', there'⟩ := exists_queue_after there now (.check q o)
    obtain ⟨run, -, others_⟩ := calls now next b' (Nat.le_of_lt bounds.1)
    rw [after, looked] at there'
    obtain ⟨_, there''⟩ := exists_queue_afterAll there' run
    exact ih (others_ ▸ there'')

/-- A receive call that begins well has not been asked to fail. -/
theorem beginReceive_ok {o : ReceiveOptions} {deadline : Nat}
    (begun : b.beginReceive now o = (.ok deadline, b')) :
    b.faults.get .receive = 0 ∧ b' = b.counted .receive := by
  cases budget : b.faults.get .receive with
  | succ n =>
    have of : (Call.beginReceive o).operation? = some .receive := rfl
    have answer := (call_of_fault now of budget).1
    rw [reply, begun] at answer
    cases answer
  | zero =>
    have budget_ : b.faults.receive = 0 := budget
    simp only [beginReceive, spendFault, Faults.get, budget_] at begun
    split at begun <;> cases begun
    exact ⟨rfl, rfl⟩

/-- A receive call fails at once or not at all. -/
theorem receive_fails {others : Nat → Nat → Broker → Broker} (calls : AreCalls others)
    {q : Identity} {o : ReceiveOptions} {t : Nat}
    (failed : b.receive others now q o = (.error (.refused e), t, b')) :
    t = now ∧ Fails .receive e b b' := by
  rw [receive] at failed
  split at failed
  · next failure b₁ begun =>
    cases failed
    have error : (b.reply now (.beginReceive o)).error? = some e := by
      simp [reply, begun, Reply.error?]
    have fails := fails_of_error rfl error
    rw [after, begun] at fails
    exact ⟨rfl, fails⟩
  · next deadline b₁ begun =>
    obtain ⟨budget, rfl⟩ := beginReceive_ok begun
    cases there : (b.counted .receive).queue? q.url with
    | some queue => exact absurd (congrArg Prod.fst failed) (poll_not_refused calls there o _ _)
    | none =>
      have looked : (b.counted .receive).check now q o =
          (.error (.refused (notFound q)), b.counted .receive) := by
        simp only [check, there]
      rw [poll, looked] at failed
      cases failed
      exact ⟨rfl, .counted budget (by rintro ⟨⟩)⟩

/-! ### Atomicity -/

/-- A call that fails leaves all queues with their messages and windows and the table of names as
they are; it is counted, and it takes one failure from the budget of its operation exactly when it
fails on request. A receive call fails at the instant at which it begins, whatever others do.

From a request for `n` failures until the next one, the first `n` calls of the operation fail on
request, and no others. Had no failure been asked for, and had these calls not been made, all other
calls would have the same answers at the same instants, and the queues would be the same in the
end. This is so for the requests of any operations together in any run. -/
theorem failures_leave_no_trace (b : Broker) :
    ((∀ l e b', b.resolve l = (.error e, b') → Fails .resolve e b b') ∧
      (∀ now q m e b', b.send now q m = (.error e, b') → Fails .send e b b') ∧
      (∀ q receipt e b', b.delete q receipt = (.error e, b') → Fails .delete e b b') ∧
      ∀ others, AreCalls others → ∀ now q o e t b',
        b.receive others now q o = (.error (.refused e), t, b') →
          t = now ∧ Fails .receive e b b') ∧
    (∀ op n segment, (∀ c ∈ segment, ∀ m, c.2 ≠ .failNext op m) →
      (∀ i x, (((b.failNext op n).transcript segment).filter
          (·.call.operation? = some op))[i]? = some x →
        (x.reply.error? = some op.failure ↔ i < n)) ∧
      ∀ rest, (∀ c ∈ rest.head?, ∃ m, c.2 = .failNext op m) →
        let kept := (b.failNext op n).sparing (· = op) segment
        (b.failNext op 0).transcript (kept.map Entry.timed ++ rest) =
            kept ++ ((b.failNext op n).afterAll segment).transcript rest ∧
          SameStorage ((b.failNext op n).afterAll (segment ++ rest))
            ((b.failNext op 0).afterAll (kept.map Entry.timed ++ rest))) ∧
    ∀ which run,
      let kept := b.sparing which run
      (b.without which).transcript (kept.map Entry.timed) = kept ∧
        SameStorage (b.afterAll run) ((b.without which).afterAll (kept.map Entry.timed)) := by
  refine ⟨⟨?_, ?_, ?_, fun others calls now q o e t b' => receive_fails calls⟩, ?_, ?_⟩
  · intro l e b' failed
    have error : (b.reply 0 (.resolve l)).error? = some e := by simp [reply, failed, Reply.error?]
    have fails := fails_of_error rfl error
    simpa [after, failed] using fails
  · intro now q m e b' failed
    have error : (b.reply now (.send q m)).error? = some e := by simp [reply, failed, Reply.error?]
    have fails := fails_of_error rfl error
    simpa [after, failed] using fails
  · intro q receipt e b' failed
    have error : (b.reply 0 (.delete q receipt)).error? = some e := by
      simp [reply, failed, Reply.error?]
    have fails := fails_of_error rfl error
    simpa [after, failed] using fails
  · intro op n segment unasked
    refine ⟨fun i x nth => ?_, fun rest asks => ?_⟩
    · rw [injected_iff _ op segment unasked i x nth]
      simp [failNext]
    · obtain ⟨answers, alike⟩ := (Alike.asked b op n).run segment
      obtain ⟨answers', storage⟩ := alike.resumed asks
      intro kept
      rw [transcript_append, afterAll_append, afterAll_append, answers, answers']
      exact ⟨rfl, storage⟩
  · intro which run
    obtain ⟨answers, alike⟩ := (Alike.without b which).run run
    exact ⟨answers, alike.storage⟩

end Broker

/-! ### A letter that is sent twice -/

namespace Sample

/-- A letter is sent, and sent again. -/
def letters : List (Nat × Broker.Call) :=
  [(1, .send window { body := "letter" }), (2, .send window { body := "letter" })]

end Sample

namespace Broker

/-- When the first of the two sends fails on request, the queue is as if there had been only the
second, which succeeds. -/
theorem failures_leave_no_trace_of_letters :
    ((Sample.stocked.failNext .send 1).transcript Sample.letters).map (·.reply.error?) =
      [some Operation.send.failure, none] ∧
    SameStorage ((Sample.stocked.failNext .send 1).afterAll Sample.letters)
      ((Sample.stocked.failNext .send 0).after 2 (.send Sample.window { body := "letter" })) := by
  obtain ⟨-, injected, -⟩ := Sample.stocked.failures_leave_no_trace
  obtain ⟨first, erased⟩ := injected .send 1 Sample.letters (by simp [Sample.letters])
  refine ⟨?_, (erased [] (by simp)).2⟩
  have one := (first 0 _ rfl).2 Nat.one_pos
  exact congrArg (· :: [none]) one

end Broker

end Courier
