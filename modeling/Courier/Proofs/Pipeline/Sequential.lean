import Courier.Proofs.Pipeline.Cancellation
import Courier.Proofs.Pipeline.Loop

/-!
# Consumers with one worker

A consumer with one worker works like the sequential loop, whatever its buffers hold. An idle worker
prefers the decoded buffer, so it dispatches the envelope that it has put there before it takes
another message, and there is never more than one. What the loop would show from a state on is
therefore determined: first the worker goes on with what it has in its hand, then the envelope in
the decoded buffer is dispatched, and then the messages of the raw buffer, those in the hand of the
poller and those that are received later have their turns.

## Main definitions

* `Pipeline.Single`: the run has one worker, which has at most one envelope before it.
* `Pipeline.remaining`: what the loop would show from a state on.

## Main results

* `Pipeline.Moves.remaining_eq`: a step shows what comes first of that.
* `Pipeline.Acts.remaining_eq`: so a run shows what the loop shows.
* `Pipeline.Acts.sequential`: with one worker, messages are worked on as in the sequential loop.
-/

namespace Courier

/-- What the worker is told with a step. -/
def Action.answers : Action → List Answer
  | .drawn _ id => [.drawn id]
  | .sent _ r => [.sent r]
  | .deleted _ r => [.deleted r]
  | _ => []

/-- Whether an event is observed of the work on a delivery, and not of the poller and the
buffers. -/
def Event.isWork : Event → Bool
  | .received _ | .receiveFailed _ | .buffered _ | .dropped _ | .stopped => false
  | _ => true

/-- What is observed of the work on deliveries. -/
def workOf (events : List Event) : List Event :=
  events.filter Event.isWork

@[simp] theorem workOf_append (events events' : List Event) :
    workOf (events ++ events') = workOf events ++ workOf events' :=
  List.filter_append ..

namespace Worker

/-- What is observed of a worker that goes on with what it has in its hand, and then of what comes
`next`. -/
def remaining (call : Envelope → Except DispatchError Activity) (next : List Answer → List Event) :
    Worker → List Answer → List Event
  | .idle => next
  | .decoding m => Sequential.turn call next m
  | .offering e | .dispatching e => Sequential.dispatch call e next
  | .handling e a => Sequential.handle e next a
  | .acknowledging e => Sequential.conclude e next .ok
  | .deleting e => Sequential.delete e next
  | .stopped => fun _ => []

variable {c : Consumer} {w : Nat} {e : Envelope} {a : Action} {s s' : Worker}
  {events : List Event}

/-- With a step a worker shows what comes first of it. -/
theorem Advance.remaining_eq (h : Advance c false w e a s events s')
    (next : List Answer → List Event) (answers : List Answer) :
    s.remaining (c.dispatch false) next (a.answers ++ answers) =
      workOf events ++ s'.remaining (c.dispatch false) next answers := by
  cases h with
  | start registered started =>
    have called := Consumer.dispatch_eq_ok.2 ⟨_, registered, started⟩
    simp only [remaining, Sequential.dispatch, called]
    rfl
  | _ => rfl

/-- When a worker is done with its envelope, the delivery is settled and the next one comes. -/
theorem Release.remaining_eq (h : Release c false w e a s events)
    (next : List Answer → List Event) (answers : List Answer) :
    s.remaining (c.dispatch false) next (a.answers ++ answers) =
      workOf (events ++ [.settled e]) ++ next answers := by
  cases h with
  | unregistered missing =>
    have refused : c.dispatch false e = .error (.unregisteredType e.typeName) :=
      Consumer.dispatch_eq_error.2 (.inl ⟨missing, rfl⟩)
    simp only [remaining, Sequential.dispatch, refused]
    rfl
  | unreadable registered refusal =>
    have refused := Consumer.dispatch_eq_error.2 (.inr ⟨_, _, registered, refusal, rfl⟩)
    simp only [remaining, Sequential.dispatch, refused]
    rfl
  | fail reason | panic reason | answered r => rfl
  | interruptStart shutdown | interruptHandler a shutdown | interruptAcknowledging shutdown
  | interruptDeleting shutdown => cases shutdown

end Worker

namespace Pipeline

/-- The messages that are received with some steps. -/
def receivedWith (as : List Action) : List Received :=
  as.flatMap Action.batch

/-- What handlers and delete calls are told with some steps. -/
def answersOf (as : List Action) : List Answer :=
  as.flatMap Action.answers

/-- The run has one worker, in the given state. The worker is idle if there is an envelope in the
decoded buffer, and there is at most one. -/
structure Single (p : Pipeline) (state : Worker) : Prop where
  workers : p.workers = [state]
  few : p.decoded.length ≤ 1
  free : state.isBusy = true → p.decoded = []

/-- What the sequential loop would show from a state of the run on, if `ms` are received later. -/
def remaining (c : Consumer) (p : Pipeline) (state : Worker) (ms : List Received) :
    List Answer → List Event :=
  state.remaining (c.dispatch false)
    (p.decoded.foldr (fun e next => Sequential.dispatch (c.dispatch false) e next)
      (Sequential.run (c.dispatch false) (p.raw ++ p.poller.held ++ ms)))

/-- Nothing is left to do in a run. -/
structure IsResting (p : Pipeline) : Prop where
  hand : p.poller.held = []
  raw : p.raw = []
  decoded : p.decoded = []
  workers : ∀ s ∈ p.workers, s = .idle

variable {c : Consumer} {u : Unsettled} {p : Pipeline} {a : Action} {x : Transition}
  {state : Worker}

/-- The only worker is in its state. -/
theorem Single.eq_of_getElem? (h : p.Single state) {w : Nat} {s : Worker}
    (at_ : p.workers[w]? = some s) : s = state ∧ w = 0 := by
  rw [h.workers, List.getElem?_singleton] at at_
  split at at_
  · next first => exact ⟨(Option.some.inj at_).symm, first⟩
  · cases at_

theorem Single.setWorker (h : p.Single state) {s : Worker} (busy : state.isBusy = true) :
    (p.setWorker 0 s).Single s where
  workers := by rw [setWorker_workers, h.workers]; rfl
  few := h.few
  free _ := h.free busy

/-- A step of the poller shows nothing, and the messages before the loop stay the same. -/
theorem Single.poll {p' : Pipeline} {ms' : List Received} {events : List Event}
    (single : p.Single state) (workers : p'.workers = p.workers) (decoded : p'.decoded = p.decoded)
    (before : ∀ ms, p'.raw ++ p'.poller.held ++ ms = p.raw ++ p.poller.held ++ (ms' ++ ms))
    (silent : workOf events = []) : ∃ state', p'.Single state' ∧ ∀ ms answers,
      p.remaining c state (ms' ++ ms) answers =
        workOf events ++ p'.remaining c state' ms answers := by
  refine ⟨state, ⟨workers ▸ single.workers, decoded ▸ single.few, decoded ▸ single.free⟩, ?_⟩
  intro ms answers
  rw [silent, List.nil_append, remaining, remaining, decoded, before]

/-- A step shows what comes first of what the loop would show. -/
theorem Moves.remaining_eq (h : Moves c u p a x) (single : p.Single state)
    (running : x.pipeline.cancelled = false) : ∃ state', x.pipeline.Single state' ∧
      ∀ ms answers, p.remaining c state (a.batch ++ ms) (a.answers ++ answers) =
        workOf x.events ++ x.pipeline.remaining c state' ms answers := by
  have calm := h.running_before running
  cases h with
  | cancel => cases running
  | callReceive at_ | receiveFailed at_ | receiveNothing at_ | receive at_ | resume at_ =>
    exact single.poll rfl rfl (fun ms => by simp [at_, Poller.held, Action.batch]) rfl
  | push at_ room =>
    refine single.poll rfl rfl (fun ms => ?_) rfl
    rw [held_delivering, at_]
    simp [Poller.held, Action.batch]
  | stopPoller _ shutdown | stopWorker _ shutdown =>
    rw [calm] at shutdown
    cases shutdown
  | finish complete => simp [canFinish, calm] at complete
  | @takeDecoded w e rest idle first _ =>
    obtain ⟨rfl, rfl⟩ := single.eq_of_getElem? idle
    have last : rest = [] := by
      have few := single.few
      rw [first, List.length_cons] at few
      exact List.length_eq_zero_iff.1 (by omega)
    refine ⟨.dispatching e, ⟨?_, ?_, fun _ => last⟩, fun ms answers => ?_⟩
    · rw [setWorker_workers, single.workers]
      rfl
    · exact last ▸ Nat.zero_le 1
    · simp only [remaining, first]
      rfl
  | @takeRaw w m rest idle none_ first _ =>
    obtain ⟨rfl, rfl⟩ := single.eq_of_getElem? idle
    refine ⟨.decoding m, ⟨?_, single.few, fun _ => none_⟩, fun ms answers => ?_⟩
    · rw [setWorker_workers, single.workers]
      rfl
    · simp only [remaining, first, none_, setWorker_decoded]
      rfl
  | decode at_ read =>
    obtain ⟨rfl, rfl⟩ := single.eq_of_getElem? at_
    refine ⟨_, single.setWorker rfl, fun ms answers => ?_⟩
    simp only [remaining, Worker.remaining, Sequential.turn, read]
    rfl
  | reject at_ unread =>
    obtain ⟨rfl, rfl⟩ := single.eq_of_getElem? at_
    refine ⟨_, single.setWorker rfl, fun ms answers => ?_⟩
    simp only [remaining, Worker.remaining, Sequential.turn, unread]
    rfl
  | enqueue at_ room =>
    obtain ⟨rfl, rfl⟩ := single.eq_of_getElem? at_
    have none_ := single.free rfl
    refine ⟨.idle, ⟨?_, ?_, by rintro ⟨⟩⟩, fun ms answers => ?_⟩
    · rw [setWorker_workers, single.workers]
      rfl
    · simp [none_]
    · simp only [remaining, none_, setWorker_decoded]
      rfl
  | keep at_ full =>
    obtain ⟨rfl, rfl⟩ := single.eq_of_getElem? at_
    exact ⟨_, single.setWorker rfl, fun ms answers => rfl⟩
  | advance at_ step =>
    obtain ⟨rfl, rfl⟩ := single.eq_of_getElem? at_
    rw [calm] at step
    refine ⟨_, single.setWorker step.busy, fun ms answers => ?_⟩
    rw [Action.batch_of_worker step.worker?]
    exact step.remaining_eq _ answers
  | release at_ step =>
    obtain ⟨rfl, rfl⟩ := single.eq_of_getElem? at_
    rw [calm] at step
    refine ⟨_, single.setWorker step.busy, fun ms answers => ?_⟩
    rw [Action.batch_of_worker step.worker?]
    exact step.remaining_eq _ answers

theorem single_initial (one : c.settings.workers = 1) : (initial c).Single .idle where
  workers := by rw [initial, one]; rfl
  few := Nat.zero_le 1
  free _ := rfl

namespace Acts

variable {as : List Action} {events : List Event}

/-- What has been observed of a run comes first of what the loop would show. -/
theorem remaining_eq (h : Acts c as events p) (one : c.settings.workers = 1)
    (running : p.cancelled = false) : ∃ state, p.Single state ∧ ∀ ms answers,
      Sequential.run (c.dispatch false) (receivedWith as ++ ms) (answersOf as ++ answers) =
        workOf events ++ p.remaining c state ms answers := by
  induction h with
  | initial => exact ⟨.idle, single_initial one, fun ms answers => rfl⟩
  | @step as events p u a x h hx ih =>
    have moves := moves_of_step hx
    obtain ⟨state, single, shown⟩ := ih (moves.running_before running)
    obtain ⟨state', single', step⟩ := moves.remaining_eq single running
    refine ⟨state', single', fun ms answers => ?_⟩
    have received : receivedWith (as ++ [a]) = receivedWith as ++ a.batch := by
      simp [receivedWith]
    have told : answersOf (as ++ [a]) = answersOf as ++ a.answers := by
      simp [answersOf]
    rw [received, told, List.append_assoc, List.append_assoc, shown, step, workOf_append,
      List.append_assoc]

theorem eq_of_isResting (h : Acts c as events p) (one : c.settings.workers = 1)
    (running : p.cancelled = false) (rests : p.IsResting) :
    workOf events = Sequential.run (c.dispatch false) (receivedWith as) (answersOf as) := by
  obtain ⟨state, single, shown⟩ := h.remaining_eq one running
  have idle : state = .idle := rests.workers state (by simp [single.workers])
  have whole := shown [] []
  simp only [remaining, idle, rests.hand, rests.raw, rests.decoded, List.append_nil] at whole
  exact (whole.trans (List.append_nil _)).symm

/-- With one worker, messages are worked on as in the sequential loop, whatever the capacities of
the buffers, the answers of the backend, the handlers and the order of the steps. What is observed
of decoding, handlers, delete calls and settlements comes first of what the loop shows with the
messages that are received and the answers that are given, whatever of both follows. So messages are
worked on one by one, in the order in which they are received. When nothing is left to do, it is all
that the loop shows. Another run with the same messages and the same answers, of a consumer that
differs in its buffers, shows the same as far as both have come. -/
theorem sequential (h : Acts c as events p) (one : c.settings.workers = 1)
    (running : p.cancelled = false) :
    (∀ ms answers, workOf events <+: Sequential.run (c.dispatch false) (receivedWith as ++ ms)
      (answersOf as ++ answers)) ∧
    Sequential.OneByOne (receivedWith as) (workOf events) ∧
    (p.IsResting →
      workOf events = Sequential.run (c.dispatch false) (receivedWith as) (answersOf as)) ∧
    ∀ c' as' events' p', Acts c' as' events' p' → c'.settings.workers = 1 →
      p'.cancelled = false → c'.registry = c.registry → receivedWith as' = receivedWith as →
      answersOf as' = answersOf as →
        (workOf events <+: workOf events' ∨ workOf events' <+: workOf events) ∧
        (p.IsResting → p'.IsResting → workOf events = workOf events') := by
  have leads {c' : Consumer} {as' : List Action} {events' : List Event} {p' : Pipeline}
      (h' : Acts c' as' events' p') (one' : c'.settings.workers = 1)
      (running' : p'.cancelled = false) (ms : List Received) (answers : List Answer) :
      workOf events' <+: Sequential.run (c'.dispatch false) (receivedWith as' ++ ms)
        (answersOf as' ++ answers) := by
    obtain ⟨state, -, shown⟩ := h'.remaining_eq one' running'
    exact ⟨_, (shown ms answers).symm⟩
  have first := leads h one running [] []
  rw [List.append_nil, List.append_nil] at first
  refine ⟨leads h one running, ((Sequential.inTurns_run _ _ _).soFar first).oneByOne,
    h.eq_of_isResting one running, ?_⟩
  intro c' as' events' p' h' one' running' registry received answers
  have dispatch : c'.dispatch = c.dispatch := by
    unfold Consumer.dispatch
    rw [registry]
  have second := leads h' one' running' [] []
  rw [List.append_nil, List.append_nil, dispatch, received, answers] at second
  have comparable := List.prefix_or_prefix_of_prefix first second
  refine ⟨comparable, fun rests rests' => ?_⟩
  rw [h.eq_of_isResting one running rests, h'.eq_of_isResting one' running' rests', dispatch,
    received, answers]

end Acts

theorem observed_iff_acts {events : List Event} :
    Observed c events p ↔ ∃ as, Acts c as events p := by
  constructor
  · intro h
    induction h with
    | initial => exact ⟨[], .initial⟩
    | step h hx ih =>
      obtain ⟨as, acts⟩ := ih
      exact ⟨_, acts.step hx⟩
  · rintro ⟨as, acts⟩
    induction acts with
    | initial => exact .initial
    | step h hx ih => exact ih.step hx

/-- Makes the given steps, if they are possible, while no other run uses the table. -/
def perform (c : Consumer) : Unsettled → List Event → Pipeline → List Action →
    Option (List Event × Pipeline)
  | _, events, p, [] => some (events, p)
  | u, events, p, a :: as =>
    (p.step c u a).bind fun x => perform c x.unsettled (events ++ x.events) x.pipeline as

theorem Acts.perform {as as' : List Action} {events : List Event} {last : List Event × Pipeline}
    (h : Acts c as events p) (hr : perform c u events p as' = some last) :
    Acts c (as ++ as') last.1 last.2 := by
  induction as' generalizing as events p u with
  | nil =>
    cases hr
    rwa [List.append_nil]
  | cons a as' ih =>
    obtain ⟨x, hx, hr⟩ := Option.bind_eq_some_iff.1 hr
    simpa using ih (h.step hx) hr

end Pipeline

/-! ### Wide and narrow buffers -/

namespace Sample

/-- A host with room for one message in each of its buffers. -/
def booth : Consumer :=
  { host with settings := { workers := 1, rawCapacity := 1, decodedCapacity := 1 } }

/-- The steps with which a greeting is accepted. -/
def service : List Action :=
  [.takeRaw 0, .decode 0, .offer 0, .takeDecoded 0, .start 0, .proceed 0, .callDelete 0,
    .deleted 0 (.ok ())]

/-- Both greetings are put into the raw buffer at once. -/
def atOnce : List Action :=
  [.callReceive, .received (.ok [greeting, repeated]), .push, .push] ++ service ++ service

/-- The second greeting is put there when the first one has been accepted. -/
def oneAfterTheOther : List Action :=
  [.callReceive, .received (.ok [greeting, repeated]), .push] ++ service ++ [.push] ++ service

/-- Where the first run comes to. -/
def hosted : List Event × Pipeline :=
  (Pipeline.perform host ∅ [] (.initial host) atOnce).get rfl

/-- Where the second run comes to. -/
def boothed : List Event × Pipeline :=
  (Pipeline.perform booth ∅ [] (.initial booth) oneAfterTheOther).get rfl

theorem hosted_acts : Pipeline.Acts host atOnce hosted.1 hosted.2 :=
  Pipeline.Acts.initial.perform (Option.some_get _).symm

theorem boothed_acts : Pipeline.Acts booth oneAfterTheOther boothed.1 boothed.2 :=
  Pipeline.Acts.initial.perform (Option.some_get _).symm

end Sample

namespace Pipeline

/-- Both runs show the same, one greeting after the other. -/
theorem Acts.sequential_of_greetings :
    Sequential.OneByOne [Sample.greeting, Sample.repeated] (workOf Sample.hosted.1) ∧
      workOf Sample.hosted.1 = workOf Sample.boothed.1 ∧ (workOf Sample.hosted.1).length = 12 := by
  obtain ⟨-, oneByOne, -, same⟩ := Acts.sequential Sample.hosted_acts rfl rfl
  obtain ⟨-, equal⟩ := same _ _ _ _ Sample.boothed_acts rfl rfl rfl rfl rfl
  have rests : Sample.hosted.2.IsResting := ⟨rfl, rfl, rfl, List.forall_mem_singleton.2 rfl⟩
  have rests' : Sample.boothed.2.IsResting := ⟨rfl, rfl, rfl, List.forall_mem_singleton.2 rfl⟩
  exact ⟨oneByOne, equal rests rests', rfl⟩

end Pipeline

end Courier
