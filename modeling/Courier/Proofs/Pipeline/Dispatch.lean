import Courier.Proofs.Pipeline.Backpressure

/-!
# Dispatches that fail

A dispatch can fail in four ways: no handler is registered for the type of the message, the payload
cannot be read, the handler ends with an error, or it panics. Whichever it is, and whatever the
handler has done before, the worker is idle afterwards, the record of this very delivery has been
settled, and nothing else has changed. The backend was not asked for anything.

## Main definitions

* `Consumer.dispatch`: what the dispatch of an envelope begins with.
* `Consumer.Fails`: the ways in which a dispatch fails.
* `Exchange`, `Event.exchange?`: what a run and its backend tell each other.
* `Pipeline.Passes`: the steps of a run while no other run uses the table.
* `Pipeline.FailsAlike`: whichever way a dispatch fails in, it leads to the same state.
* `Pipeline.FailsAt`: a worker has failed with a dispatch.

## Main results

* `Consumer.Fails.passes`: where a dispatch leads that fails.
* `Pipeline.Tracked.failsAt`: what a step does with which a dispatch fails.
-/

namespace Courier

/-! ### How a dispatch begins -/

/-- What the dispatch of an envelope begins with: the handler of its type is called, unless there is
none or the payload cannot be read. -/
def Consumer.dispatch (c : Consumer) (cancelled : Bool) (e : Envelope) :
    Except DispatchError Activity :=
  match c.registry.find? e.typeName with
  | none => .error (.unregisteredType e.typeName)
  | some b => (b.start (.ofEnvelope e cancelled) e).mapError .decode

section

variable {c : Consumer} {cancelled : Bool} {e : Envelope} {a : Activity} {error : DispatchError}

theorem Consumer.dispatch_eq_ok : c.dispatch cancelled e = .ok a ↔
    ∃ b, c.registry.find? e.typeName = some b ∧ b.start (.ofEnvelope e cancelled) e = .ok a := by
  unfold dispatch
  cases registered : c.registry.find? e.typeName with
  | none => simp
  | some b =>
    cases started : b.start (.ofEnvelope e cancelled) e <;> simp [started, Except.mapError]

theorem Consumer.dispatch_eq_error : c.dispatch cancelled e = .error error ↔
    c.registry.find? e.typeName = none ∧ error = .unregisteredType e.typeName ∨
      ∃ b refusal, c.registry.find? e.typeName = some b ∧
        b.start (.ofEnvelope e cancelled) e = .error refusal ∧ error = .decode refusal := by
  unfold dispatch
  cases registered : c.registry.find? e.typeName with
  | none => simp [eq_comm]
  | some b =>
    cases started : b.start (.ofEnvelope e cancelled) e <;>
      simp [started, Except.mapError, eq_comm]

/-- The ways in which a dispatch fails, and the error that it fails with. What a handler has done
before it fails is arbitrary. -/
inductive Consumer.Fails (c : Consumer) (cancelled : Bool) (e : Envelope) : DispatchError → Prop
  /-- No handler is registered for the type, or the payload cannot be read. -/
  | refused {fault} (refusal : c.dispatch cancelled e = .error fault) : Fails c cancelled e fault
  | failed {first deeds reason} (called : c.dispatch cancelled e = .ok first)
      (leads : first.Leads e deeds (.finish (.failed reason))) :
      Fails c cancelled e (.handler reason)
  | panicked {first deeds reason} (called : c.dispatch cancelled e = .ok first)
      (leads : first.Leads e deeds (.finish (.panicked reason))) :
      Fails c cancelled e (.panicked reason)

end

/-! ### What a run and its backend tell each other -/

/-- What a run is told or asks about the messages of its queue. A message is given by its
identifier and the receipt of its delivery. -/
inductive Exchange where
  | received (messages : List (MessageId × Receipt))
  | receiveFailed (error : QueueError)
  | deleteCalled (receipt : Receipt)
  | deleted (receipt : Receipt) (answer : Except QueueError Unit)

/-- The message and its delivery. -/
def Received.record (m : Received) : MessageId × Receipt :=
  (m.id, m.receipt)

/-- What an event says about the exchange with the backend. -/
def Event.exchange? : Event → Option Exchange
  | .received ms => some (.received (ms.map Received.record))
  | .receiveFailed error => some (.receiveFailed error)
  | .deleteCalled e => some (.deleteCalled e.receipt)
  | .deleted e answer => some (.deleted e.receipt answer)
  | _ => none

theorem Event.batch_of_exchange {ev : Event} (h : ev.exchange? = none) : ev.batch = [] := by
  cases ev with
  | received => cases h
  | _ => rfl

theorem Action.batch_of_worker {a : Action} {w : Nat} (h : a.worker? = some w) : a.batch = [] := by
  cases a with
  | received => cases h
  | _ => rfl

/-- What a handler does on its way is not about the messages of the queue. -/
theorem Activity.Leads.exchange_eq_none {e : Envelope} {a a' : Activity} {deeds : List Event}
    (h : Leads e a deeds a') : ∀ ev ∈ deeds, ev.exchange? = none := by
  induction h with
  | refl => exact List.forall_mem_nil _
  | sleep h ih | draw id h ih => exact ih
  | note h ih | send r h ih =>
    intro ev mem
    rcases List.mem_append.1 mem with mem | mem
    · exact ih ev mem
    · rw [List.mem_singleton.1 mem]
      rfl

/-! ### Where a dispatch leads that fails -/

namespace Pipeline

/-- Steps lead from one state of a run to another, while no other run uses the table. -/
inductive Passes (c : Consumer) (u : Unsettled) (p : Pipeline) :
    List Event → Unsettled → Pipeline → Prop
  | refl : Passes c u p [] u p
  | step {events u' p' a x} (h : Passes c u p events u' p') (hx : p'.step c u' a = some x) :
      Passes c u p (events ++ x.events) x.unsettled x.pipeline

variable {c : Consumer} {u u' u'' : Unsettled} {p p' p'' : Pipeline} {w : Nat} {e : Envelope}
  {a : Action} {x : Transition}

theorem Passes.one (hx : p.step c u a = some x) : Passes c u p x.events x.unsettled x.pipeline :=
  Passes.refl.step hx

theorem Passes.trans {events events' : List Event} (h : Passes c u p events u' p')
    (h' : Passes c u' p' events' u'' p'') : Passes c u p (events ++ events') u'' p'' := by
  induction h' with
  | refl => simpa using h
  | step h' hx ih => simpa using ih.step hx

theorem setWorker_eq_self {s : Worker} (at_ : p.workers[w]? = some s) : p.setWorker w s = p := by
  obtain ⟨bound, rfl⟩ := List.getElem?_eq_some_iff.1 at_
  simp [setWorker]

@[simp] theorem setWorker_setWorker (p : Pipeline) (w : Nat) (s s' : Worker) :
    (p.setWorker w s).setWorker w s' = p.setWorker w s' := by
  simp [setWorker]

theorem step_start_refused (at_ : p.workers[w]? = some (.dispatching e)) {error : DispatchError}
    (refused : c.dispatch p.cancelled e = .error error) :
    p.step c u (.start w) = some (release u p w e [.failed e error]) := by
  rcases Consumer.dispatch_eq_error.1 refused with ⟨missing, rfl⟩ | ⟨b, e', registered, unread, rfl⟩
  · exact step_iff.2 (.release at_ (.unregistered missing))
  · exact step_iff.2 (.release at_ (.unreadable registered unread))

theorem step_start_called (at_ : p.workers[w]? = some (.dispatching e)) {activity : Activity}
    (called : c.dispatch p.cancelled e = .ok activity) :
    p.step c u (.start w) = some ⟨u, p.setWorker w (.handling e activity), [.started e]⟩ := by
  obtain ⟨b, registered, started⟩ := Consumer.dispatch_eq_ok.1 called
  exact step_iff.2 (.advance at_ (.start registered started))

/-- A handler goes its way. -/
theorem Passes.of_leads {activity activity' : Activity} {deeds : List Event}
    (leads : activity.Leads e deeds activity')
    (at_ : p.workers[w]? = some (.handling e activity)) :
    Passes c u p deeds u (p.setWorker w (.handling e activity')) := by
  have there (a : Activity) : (p.setWorker w (.handling e a)).workers[w]? = some (.handling e a) :=
    getElem?_setWorker at_ _
  induction leads with
  | refl =>
    rw [setWorker_eq_self at_]
    exact .refl
  | sleep h ih => simpa using ih.step (step_iff.2 (.advance (there _) (.sleep _ _)))
  | note h ih => simpa using ih.step (step_iff.2 (.advance (there _) (.note _ _)))
  | draw id h ih => simpa using ih.step (step_iff.2 (.advance (there _) (.draw id _)))
  | send r h ih => simpa using ih.step (step_iff.2 (.advance (there _) (.send _ _ r _)))

end Pipeline

namespace Consumer.Fails

open Pipeline

variable {c : Consumer} {u : Unsettled} {p : Pipeline} {w : Nat} {e : Envelope}
  {error : DispatchError}

/-- A handler that is called and comes to an end that is not a success. -/
private theorem passes_of_called (at_ : p.workers[w]? = some (.dispatching e)) {a : Activity}
    {deeds : List Event} {o : Outcome} (called : c.dispatch p.cancelled e = .ok a)
    (leads : a.Leads e deeds (.finish o))
    (step : Worker.Release c p.cancelled w e (.proceed w) (.handling e (.finish o))
      [.returned e o, .failed e error]) : ∃ events,
    Passes c u p (events ++ [.failed e error, .settled e]) (u.settleEnvelope e)
      (p.setWorker w .idle) ∧ ∀ ev ∈ events, ev.exchange? = none := by
  have started := Passes.one (step_start_called (u := u) at_ called)
  have there := getElem?_setWorker at_ (.handling e a)
  have led := started.trans (.of_leads leads there)
  have ended := getElem?_setWorker there (.handling e (.finish o))
  have concluded := led.step (step_iff.2 (.release ended step))
  refine ⟨.started e :: deeds ++ [.returned e o], by simpa [release] using concluded, ?_⟩
  intro ev mem
  rcases List.mem_append.1 mem with mem | mem
  · rcases List.mem_cons.1 mem with rfl | mem
    · rfl
    · exact leads.exchange_eq_none ev mem
  · rw [List.mem_singleton.1 mem]
    rfl

/-- A dispatch that fails leads, by steps of its worker alone, to one and the same state. -/
theorem passes (h : c.Fails p.cancelled e error) (u : Unsettled)
    (at_ : p.workers[w]? = some (.dispatching e)) : ∃ events,
      Passes c u p (events ++ [.failed e error, .settled e]) (u.settleEnvelope e)
        (p.setWorker w .idle) ∧ ∀ ev ∈ events, ev.exchange? = none := by
  cases h with
  | refused refused => exact ⟨[], .one (step_start_refused at_ refused), List.forall_mem_nil _⟩
  | failed called leads => exact passes_of_called at_ called leads (.fail _)
  | panicked called leads => exact passes_of_called at_ called leads (.panic _)

end Consumer.Fails

namespace Pipeline

/-- Whichever way a dispatch fails in, its worker comes to the same state with the same table,
nothing having been asked of the backend, and can take its next job. -/
def FailsAlike (c : Consumer) (u : Unsettled) (p : Pipeline) : Prop :=
  ∀ (w : Nat) (e : Envelope) (error : DispatchError),
    p.workers[w]? = some (.dispatching e) → c.Fails p.cancelled e error →
      ∃ events, Passes c u p (events ++ [.failed e error, .settled e]) (u.settleEnvelope e)
        (p.setWorker w .idle) ∧ ∀ ev ∈ events, ev.exchange? = none

theorem failsAlike (c : Consumer) (u : Unsettled) (p : Pipeline) : FailsAlike c u p :=
  fun _ _ _ at_ failing => failing.passes u at_

/-! ### The step with which a dispatch fails -/

variable {c : Consumer} {u : Unsettled} {p : Pipeline} {w : Nat} {e : Envelope} {a : Action}
  {x : Transition}

/-- With the step with which a dispatch fails, its worker lets go of the envelope, and nothing is
asked of the backend. -/
theorem Moves.of_failed (h : Moves c u p a x) {error : DispatchError}
    (mem : .failed e error ∈ x.events) : ∃ (w : Nat) (s : Worker) (events : List Event),
      p.workers[w]? = some s ∧ s.Release c p.cancelled w e a events ∧ .failed e error ∈ events ∧
      x = Pipeline.release u p w e events ∧ ∀ ev ∈ x.events, ev.exchange? = none := by
  cases h with
  | @advance w e' a s events s' at_ step =>
    cases step with
    | _ => simp at mem
  | @release w e' a s events at_ step =>
    have failed : .failed e error ∈ events := by
      rcases List.mem_append.1 mem with mem | mem
      · exact mem
      · cases List.mem_singleton.1 mem
    obtain ⟨rfl, silent⟩ : e' = e ∧ ∀ ev ∈ events, ev.exchange? = none := by
      cases step with
      | unregistered | unreadable | fail | panic =>
        obtain ⟨rfl, -⟩ : e = e' ∧ error = _ := by simpa using failed
        exact ⟨rfl, by simp [Event.exchange?]⟩
      | _ => simp at failed
    refine ⟨w, s, events, at_, step, failed, rfl, fun ev mem => ?_⟩
    rcases List.mem_append.1 mem with mem | mem
    · exact silent ev mem
    · rw [List.mem_singleton.1 mem]
      rfl
  | stopPoller running shutdown =>
    have mem : .failed e error ∈ p.poller.farewell := mem
    cases at_ : p.poller with
    | _ => simp [at_, Poller.farewell] at mem
  | finish complete =>
    have mem : Event.failed e error ∈ .dropped p.raw :: p.decoded.map .settled ++ [.stopped] := mem
    simp at mem
  | _ => simp at mem

/-- A worker that fails with its delivery does so in one of the ways in which dispatches fail. -/
theorem fails_of_release {s : Worker} {events : List Event} {d : Delivery} {error : DispatchError}
    (step : s.Release c p.cancelled w e a events) (failed : .failed e error ∈ events)
    (hd : s.Carries c d) : ∃ cancelled, c.Fails cancelled e error := by
  cases step with
  | unregistered missing =>
    cases List.mem_singleton.1 failed
    exact ⟨p.cancelled, .refused (Consumer.dispatch_eq_error.2 (.inl ⟨missing, rfl⟩))⟩
  | unreadable registered refused =>
    cases List.mem_singleton.1 failed
    have refusal := Consumer.dispatch_eq_error.2 (.inr ⟨_, _, registered, refused, rfl⟩)
    exact ⟨p.cancelled, .refused refusal⟩
  | fail reason =>
    obtain rfl : error = .handler reason := by simpa using failed
    obtain ⟨b, cancelled, first, deeds, registered, started, leads, -⟩ := hd.called
    exact ⟨cancelled, .failed (Consumer.dispatch_eq_ok.2 ⟨b, registered, started⟩) leads⟩
  | panic reason =>
    obtain rfl : error = .panicked reason := by simpa using failed
    obtain ⟨b, cancelled, first, deeds, registered, started, leads, -⟩ := hd.called
    exact ⟨cancelled, .panicked (Consumer.dispatch_eq_ok.2 ⟨b, registered, started⟩) leads⟩
  | _ => cases List.mem_singleton.1 failed

/-- The worker `w` can take the next envelope or message. -/
structure TakesNext (c : Consumer) (u : Unsettled) (p : Pipeline) (w : Nat) : Prop where
  decoded : ∀ e rest, p.decoded = e :: rest → p.step c u (.takeDecoded w) =
    some ⟨u, { p with decoded := rest }.setWorker w (.dispatching e), []⟩
  raw : ∀ m rest, p.decoded = [] → p.raw = m :: rest → p.step c u (.takeRaw w) =
    some ⟨u, { p with raw := rest }.setWorker w (.decoding m), []⟩

/-- An idle worker can, as long as the run is not asked to end. -/
theorem takesNext (idle : p.workers[w]? = some .idle) (running : p.cancelled = false) :
    TakesNext c u p w where
  decoded _ _ first := step_iff.2 (.takeDecoded idle first running)
  raw _ _ none_ first := step_iff.2 (.takeRaw idle none_ first running)

/-- With the step to `x` the worker `w` of a run has failed with the dispatch of an envelope. -/
structure FailsAt (c : Consumer) (u : Unsettled) (t : Track) (p : Pipeline) (w : Nat)
    (e : Envelope) (error : DispatchError) (x : Transition) : Prop where
  own : ∃ d, t.workers[w]? = some (some d) ∧ Envelope.ofReceived d.message = .ok e
  fails : ∃ cancelled, c.Fails cancelled e error
  pipeline : x.pipeline = p.setWorker w .idle
  /-- The record of this very delivery is settled, that of another one is kept. -/
  records : ∀ r, r ∈ x.unsettled.records ↔ r ∈ u.records ∧ r ≠ e.record
  silent : ∀ ev ∈ x.events, ev.exchange? = none
  next : p.cancelled = false → TakesNext c x.unsettled x.pipeline w

theorem Tracked.failsAt {t : Track} (h : Tracked c t p) (distinct : u.Distinct)
    (hx : p.step c u a = some x) {error : DispatchError} (mem : .failed e error ∈ x.events) :
    ∃ w, FailsAt c u t p w e error x := by
  obtain ⟨w, s, events, at_, step, failed, rfl, silent⟩ := (moves_of_step hx).of_failed mem
  obtain ⟨d, hw, hd⟩ := h.matches.carried at_ step.busy
  exact ⟨w, {
    own := ⟨d, hw, (hd.isOpen step.envelope_eq).accepted⟩
    fails := fails_of_release step failed hd
    pipeline := rfl
    records := fun r => Unsettled.mem_settle distinct
    silent
    next := takesNext (getElem?_setWorker at_ .idle) }⟩

end Pipeline

/-- A delivery whose dispatch has failed was never to be deleted. -/
theorem Delivery.Course.not_deleted {c : Consumer} {d : Delivery} (h : d.Course c) {e : Envelope}
    {error : DispatchError} (failed : .failed e error ∈ d.events) :
    ∀ e', .deleteCalled e' ∉ d.events := by
  intro e' called
  obtain ⟨own, rest, handled, after⟩ := h.handled_of_deleteCalled called
  obtain ⟨b, cancelled, first, deeds, -, -, leads, events_eq⟩ := handled.called
  have notDeed : .failed e error ∉ deeds := fun deed =>
    absurd (leads.phase_eq _ deed) (by simp [Event.phase])
  have late : .failed e error ∈ Event.returned own .ok :: .deleteCalled own :: rest := by
    simpa [events_eq, notDeed] using failed
  cases after <;> simp at late

end Courier
