import Courier.Pipeline.Basic

/-!
# The transitions of a pipeline

What `Pipeline.step` does is listed here once, as one constructor for each kind of step with the
conditions under which it is possible. An invariant of a run is then a case analysis over the
constructors, and no later proof opens the step function.

The steps of a worker that holds an envelope are listed apart. Either the worker goes on with its
envelope (`Worker.Advance`), or it lets go of it, and the delivery is no longer tracked
(`Worker.Release`).

## Main definitions

* `Worker.Advance`, `Worker.Release`: the steps of a worker with an envelope.
* `Pipeline.Moves`: the steps of a pipeline.

## Main results

* `Pipeline.step_iff`: the step function does exactly the listed steps.
* `Pipeline.Moves.dispatching_of_started`: which step calls a handler.
-/

namespace Courier

/-- The messages that the poller has not put into the raw buffer yet. -/
def Poller.held : Poller → List Received
  | .delivering rest => rest
  | _ => []

/-- What is observed when the poller stops. -/
def Poller.farewell : Poller → List Event
  | .delivering rest => [.dropped rest]
  | _ => []

theorem Pipeline.stepWorker_stopped (c : Consumer) (u : Unsettled) (p : Pipeline) (w : Nat)
    (a : Action) : stepWorker c u p w a .stopped = none := by
  simp only [stepWorker]

namespace Worker

variable (c : Consumer) (cancelled : Bool) (w : Nat) (e : Envelope)

/-- A step after which the worker `w` still holds its envelope. -/
inductive Advance : Action → Worker → List Event → Worker → Prop
  | start {b a} (registered : c.registry.find? e.typeName = some b)
      (started : b.start (.ofEnvelope e cancelled) e = .ok a) :
      Advance (.start w) (.dispatching e) [.started e] (.handling e a)
  | sleep (ms next) : Advance (.proceed w) (.handling e (.sleep ms next)) [] (.handling e next)
  | note (entry next) :
      Advance (.proceed w) (.handling e (.note entry next)) [.noted e entry] (.handling e next)
  | draw (id next) :
      Advance (.drawn w id) (.handling e (.draw next)) [] (.handling e (next id))
  | send (q m r next) :
      Advance (.sent w r) (.handling e (.send q m next)) [.sent e q m r] (.handling e (next r))
  | succeed :
      Advance (.proceed w) (.handling e (.finish .ok)) [.returned e .ok] (.acknowledging e)
  | callDelete : Advance (.callDelete w) (.acknowledging e) [.deleteCalled e] (.deleting e)

/-- A step with which the worker `w` lets go of its envelope, and what is observed before the
delivery is settled. -/
inductive Release : Action → Worker → List Event → Prop
  | unregistered (missing : c.registry.find? e.typeName = none) :
      Release (.start w) (.dispatching e) [.failed e (.unregisteredType e.typeName)]
  | unreadable {b error} (registered : c.registry.find? e.typeName = some b)
      (refused : b.start (.ofEnvelope e cancelled) e = .error error) :
      Release (.start w) (.dispatching e) [.failed e (.decode error)]
  | fail (reason) :
      Release (.proceed w) (.handling e (.finish (.failed reason)))
        [.returned e (.failed reason), .failed e (.handler reason)]
  | panic (reason) :
      Release (.proceed w) (.handling e (.finish (.panicked reason)))
        [.returned e (.panicked reason), .failed e (.panicked reason)]
  | answered (r) : Release (.deleted w r) (.deleting e) [.deleted e r]
  | interruptStart {b} (shutdown : cancelled = true)
      (registered : c.registry.find? e.typeName = some b) :
      Release (.interrupt w) (.dispatching e) [.interrupted e .handling]
  | interruptHandler (a) (shutdown : cancelled = true) :
      Release (.interrupt w) (.handling e a) [.interrupted e .handling]
  | interruptAcknowledging (shutdown : cancelled = true) :
      Release (.interrupt w) (.acknowledging e) [.interrupted e .acknowledging]
  | interruptDeleting (shutdown : cancelled = true) :
      Release (.interrupt w) (.deleting e) [.interrupted e .acknowledging]

variable {c cancelled w e}

theorem Advance.worker? {a : Action} {s s' : Worker} {events : List Event}
    (h : Advance c cancelled w e a s events s') : a.worker? = some w := by
  cases h <;> rfl

theorem Release.worker? {a : Action} {s : Worker} {events : List Event}
    (h : Release c cancelled w e a s events) : a.worker? = some w := by
  cases h <;> rfl

end Worker

namespace Pipeline

@[simp] theorem setWorker_workers (p : Pipeline) (w : Nat) (s : Worker) :
    (p.setWorker w s).workers = p.workers.set w s := rfl

@[simp] theorem setWorker_poller (p : Pipeline) (w : Nat) (s : Worker) :
    (p.setWorker w s).poller = p.poller := rfl

@[simp] theorem setWorker_raw (p : Pipeline) (w : Nat) (s : Worker) :
    (p.setWorker w s).raw = p.raw := rfl

@[simp] theorem setWorker_decoded (p : Pipeline) (w : Nat) (s : Worker) :
    (p.setWorker w s).decoded = p.decoded := rfl

@[simp] theorem setWorker_cancelled (p : Pipeline) (w : Nat) (s : Worker) :
    (p.setWorker w s).cancelled = p.cancelled := rfl

theorem getElem?_setWorker {p : Pipeline} {w : Nat} {s : Worker} (at_ : p.workers[w]? = some s)
    (s' : Worker) : (p.setWorker w s').workers[w]? = some s' := by
  have bound : w < p.workers.length := (List.getElem?_eq_some_iff.1 at_).1
  simp [bound]

theorem held_delivering (rest : List Received) : (delivering rest).held = rest := by
  cases rest <;> rfl

variable (c : Consumer) (u : Unsettled) (p : Pipeline)

/-- The possible steps of a pipeline, each with what it leaves behind. -/
inductive Moves : Action → Transition → Prop
  | cancel : Moves .cancel ⟨u, { p with cancelled := true }, []⟩
  | callReceive (at_ : p.poller = .ready) :
      Moves .callReceive ⟨u, { p with poller := .receiving }, []⟩
  | receiveFailed {error} (at_ : p.poller = .receiving) :
      Moves (.received (.error error)) ⟨u, { p with poller := .ready }, [.receiveFailed error]⟩
  | receiveNothing (at_ : p.poller = .receiving) :
      Moves (.received (.ok [])) ⟨u, { p with poller := .pausing }, [.received []]⟩
  | receive {m ms} (at_ : p.poller = .receiving) :
      Moves (.received (.ok (m :: ms)))
        ⟨u, { p with poller := .delivering (m :: ms) }, [.received (m :: ms)]⟩
  | resume (at_ : p.poller = .pausing) : Moves .resume ⟨u, { p with poller := .ready }, []⟩
  | push {m rest} (at_ : p.poller = .delivering (m :: rest))
      (room : p.raw.length < c.settings.rawCapacity) :
      Moves .push ⟨u, { p with poller := delivering rest, raw := p.raw ++ [m] }, [.buffered m]⟩
  | stopPoller (running : p.poller ≠ .stopped) (shutdown : p.cancelled = true) :
      Moves .stopPoller ⟨u, { p with poller := .stopped }, p.poller.farewell⟩
  | takeDecoded {w e rest} (idle : p.workers[w]? = some .idle) (first : p.decoded = e :: rest)
      (running : p.cancelled = false) :
      Moves (.takeDecoded w) ⟨u, { p with decoded := rest }.setWorker w (.dispatching e), []⟩
  | takeRaw {w m rest} (idle : p.workers[w]? = some .idle) (none_ : p.decoded = [])
      (first : p.raw = m :: rest) (running : p.cancelled = false) :
      Moves (.takeRaw w) ⟨u, { p with raw := rest }.setWorker w (.decoding m), []⟩
  | stopWorker {w} (idle : p.workers[w]? = some .idle) (shutdown : p.cancelled = true) :
      Moves (.stopWorker w) ⟨u, p.setWorker w .stopped, []⟩
  | decode {w m e} (at_ : p.workers[w]? = some (.decoding m))
      (read : Envelope.ofReceived m = .ok e) :
      Moves (.decode w) ⟨u.insert e.id e.receipt, p.setWorker w (.offering e), [.decoded e]⟩
  | reject {w m error} (at_ : p.workers[w]? = some (.decoding m))
      (unread : Envelope.ofReceived m = .error error) :
      Moves (.decode w) ⟨u, p.setWorker w .idle, [.malformed m error]⟩
  | enqueue {w e} (at_ : p.workers[w]? = some (.offering e))
      (room : p.decoded.length < c.settings.decodedCapacity) :
      Moves (.offer w) ⟨u, { p with decoded := p.decoded ++ [e] }.setWorker w .idle, []⟩
  | keep {w e} (at_ : p.workers[w]? = some (.offering e))
      (full : c.settings.decodedCapacity ≤ p.decoded.length) :
      Moves (.offer w) ⟨u, p.setWorker w (.dispatching e), []⟩
  | advance {w e a s events s'} (at_ : p.workers[w]? = some s)
      (step : s.Advance c p.cancelled w e a events s') :
      Moves a ⟨u, p.setWorker w s', events⟩
  | release {w e a s events} (at_ : p.workers[w]? = some s)
      (step : s.Release c p.cancelled w e a events) :
      Moves a (release u p w e events)
  | finish (complete : p.canFinish = true) : Moves .finish (finish u p)

variable {c u p}

private theorem moves_of_idle {w : Nat} {a : Action} {t : Transition} (ha : a.worker? = some w)
    (at_ : p.workers[w]? = some .idle) (h : stepWorker c u p w a .idle = some t) :
    Moves c u p a t := by
  simp only [stepWorker] at h
  split at h
  · next first =>
    obtain rfl : _ = w := Option.some.inj ha
    split at h
    · cases h
    · next running =>
      cases h
      exact .takeDecoded at_ first (by simpa using running)
  · next none_ first =>
    obtain rfl : _ = w := Option.some.inj ha
    split at h
    · cases h
    · next running =>
      cases h
      exact .takeRaw at_ none_ first (by simpa using running)
  · obtain rfl : _ = w := Option.some.inj ha
    split at h
    · next shutdown =>
      cases h
      exact .stopWorker at_ shutdown
    · cases h
  · cases h

private theorem moves_of_decoding {w : Nat} {a : Action} {m : Received} {t : Transition}
    (ha : a.worker? = some w) (at_ : p.workers[w]? = some (.decoding m))
    (h : stepWorker c u p w a (.decoding m) = some t) : Moves c u p a t := by
  simp only [stepWorker] at h
  split at h
  · next read =>
    obtain rfl : _ = w := Option.some.inj ha
    cases h
    exact .decode at_ read
  · next unread =>
    obtain rfl : _ = w := Option.some.inj ha
    cases h
    exact .reject at_ unread
  · cases h

private theorem moves_of_offering {w : Nat} {a : Action} {e : Envelope} {t : Transition}
    (ha : a.worker? = some w) (at_ : p.workers[w]? = some (.offering e))
    (h : stepWorker c u p w a (.offering e) = some t) : Moves c u p a t := by
  simp only [stepWorker] at h
  split at h
  · obtain rfl : _ = w := Option.some.inj ha
    split at h
    · next room =>
      cases h
      exact .enqueue at_ room
    · next full =>
      cases h
      exact .keep at_ (Nat.le_of_not_lt full)
  · cases h

private theorem moves_of_dispatching {w : Nat} {a : Action} {e : Envelope} {t : Transition}
    (ha : a.worker? = some w) (at_ : p.workers[w]? = some (.dispatching e))
    (h : stepWorker c u p w a (.dispatching e) = some t) : Moves c u p a t := by
  simp only [stepWorker] at h
  split at h
  · next missing =>
    obtain rfl : _ = w := Option.some.inj ha
    cases h
    exact .release at_ (.unregistered missing)
  · next registered =>
    obtain rfl : _ = w := Option.some.inj ha
    split at h
    · next started =>
      cases h
      exact .advance at_ (.start registered started)
    · next refused =>
      cases h
      exact .release at_ (.unreadable registered refused)
  · next registered =>
    obtain rfl : _ = w := Option.some.inj ha
    split at h
    · next shutdown =>
      cases h
      exact .release at_ (.interruptStart shutdown registered)
    · cases h
  · cases h

private theorem moves_of_conclude {w : Nat} {e : Envelope} {o : Outcome}
    (at_ : p.workers[w]? = some (.handling e (.finish o))) :
    Moves c u p (.proceed w) (conclude u p w e o) := by
  cases o with
  | ok => exact .advance at_ .succeed
  | failed reason => exact .release at_ (.fail reason)
  | panicked reason => exact .release at_ (.panic reason)

private theorem moves_of_handling {w : Nat} {a : Action} {e : Envelope} {activity : Activity}
    {t : Transition} (ha : a.worker? = some w)
    (at_ : p.workers[w]? = some (.handling e activity))
    (h : stepWorker c u p w a (.handling e activity) = some t) : Moves c u p a t := by
  simp only [stepWorker] at h
  split at h
  · obtain rfl : _ = w := Option.some.inj ha
    cases h
    exact moves_of_conclude at_
  · obtain rfl : _ = w := Option.some.inj ha
    cases h
    exact .advance at_ (.sleep _ _)
  · obtain rfl : _ = w := Option.some.inj ha
    cases h
    exact .advance at_ (.note _ _)
  · obtain rfl : _ = w := Option.some.inj ha
    cases h
    exact .advance at_ (.draw _ _)
  · obtain rfl : _ = w := Option.some.inj ha
    cases h
    exact .advance at_ (.send _ _ _ _)
  · obtain rfl : _ = w := Option.some.inj ha
    split at h
    · next shutdown =>
      cases h
      exact .release at_ (.interruptHandler _ shutdown)
    · cases h
  · cases h

private theorem moves_of_acknowledging {w : Nat} {a : Action} {e : Envelope} {t : Transition}
    (ha : a.worker? = some w) (at_ : p.workers[w]? = some (.acknowledging e))
    (h : stepWorker c u p w a (.acknowledging e) = some t) : Moves c u p a t := by
  simp only [stepWorker] at h
  split at h
  · obtain rfl : _ = w := Option.some.inj ha
    cases h
    exact .advance at_ .callDelete
  · obtain rfl : _ = w := Option.some.inj ha
    split at h
    · next shutdown =>
      cases h
      exact .release at_ (.interruptAcknowledging shutdown)
    · cases h
  · cases h

private theorem moves_of_deleting {w : Nat} {a : Action} {e : Envelope} {t : Transition}
    (ha : a.worker? = some w) (at_ : p.workers[w]? = some (.deleting e))
    (h : stepWorker c u p w a (.deleting e) = some t) : Moves c u p a t := by
  simp only [stepWorker] at h
  split at h
  · obtain rfl : _ = w := Option.some.inj ha
    cases h
    exact .release at_ (.answered _)
  · obtain rfl : _ = w := Option.some.inj ha
    split at h
    · next shutdown =>
      cases h
      exact .release at_ (.interruptDeleting shutdown)
    · cases h
  · cases h

private theorem moves_of_stepWorker {w : Nat} {a : Action} {s : Worker} {t : Transition}
    (ha : a.worker? = some w) (at_ : p.workers[w]? = some s)
    (h : stepWorker c u p w a s = some t) : Moves c u p a t := by
  cases s with
  | idle => exact moves_of_idle ha at_ h
  | decoding m => exact moves_of_decoding ha at_ h
  | offering e => exact moves_of_offering ha at_ h
  | dispatching e => exact moves_of_dispatching ha at_ h
  | handling e activity => exact moves_of_handling ha at_ h
  | acknowledging e => exact moves_of_acknowledging ha at_ h
  | deleting e => exact moves_of_deleting ha at_ h
  | stopped =>
    rw [stepWorker_stopped] at h
    cases h

private theorem moves_of_stepPoller {a : Action} {t : Transition}
    (h : stepPoller c u p a = some t) : Moves c u p a t := by
  unfold stepPoller at h
  split at h
  · next at_ =>
    cases h
    exact .callReceive at_
  · next at_ =>
    cases h
    exact .receiveFailed at_
  · next at_ =>
    cases h
    exact .receiveNothing at_
  · next ms nonempty at_ =>
    cases h
    obtain ⟨m, ms, rfl⟩ := List.exists_cons_of_ne_nil nonempty
    exact .receive at_
  · next at_ =>
    cases h
    exact .resume at_
  · next at_ =>
    split at h
    · next room =>
      cases h
      exact .push at_ room
    · cases h
  · cases h
  · next rest at_ =>
    split at h
    · next shutdown =>
      cases h
      have farewell : p.poller.farewell = [.dropped rest] := by rw [at_]; rfl
      rw [← farewell]
      exact .stopPoller (by rw [at_]; nofun) shutdown
    · cases h
  · next running notDelivering =>
    split at h
    · next shutdown =>
      cases h
      have farewell : p.poller.farewell = [] := by
        unfold Poller.farewell
        split
        · next at_ => exact absurd at_ (notDelivering _)
        · rfl
      rw [← farewell]
      exact .stopPoller running shutdown
    · cases h
  · cases h

/-- Whatever a pipeline does is one of the listed steps. -/
theorem moves_of_step {a : Action} {t : Transition} (h : p.step c u a = some t) :
    Moves c u p a t := by
  unfold step at h
  split at h
  · next w ha =>
    obtain ⟨s, at_, h⟩ := Option.bind_eq_some_iff.1 h
    exact moves_of_stepWorker ha at_ h
  · split at h
    · cases h
      exact .cancel
    · split at h
      · next complete =>
        cases h
        exact .finish complete
      · cases h
    · exact moves_of_stepPoller h

private theorem step_of_worker {w : Nat} {a : Action} {s : Worker} (ha : a.worker? = some w)
    (at_ : p.workers[w]? = some s) : p.step c u a = stepWorker c u p w a s := by
  simp only [step, ha, at_, Option.bind_some]

private theorem step_of_advance {w : Nat} {e : Envelope} {a : Action} {s s' : Worker}
    {events : List Event} (at_ : p.workers[w]? = some s)
    (h : s.Advance c p.cancelled w e a events s') :
    p.step c u a = some ⟨u, p.setWorker w s', events⟩ := by
  rw [step_of_worker h.worker? at_]
  cases h with
  | start registered started => simp only [stepWorker, registered, started]
  | _ => rfl

private theorem step_of_release {w : Nat} {e : Envelope} {a : Action} {s : Worker}
    {events : List Event} (at_ : p.workers[w]? = some s)
    (h : s.Release c p.cancelled w e a events) :
    p.step c u a = some (release u p w e events) := by
  rw [step_of_worker h.worker? at_]
  cases h with
  | unregistered missing => simp only [stepWorker, missing]
  | unreadable registered refused => simp only [stepWorker, registered, refused]
  | interruptStart shutdown registered => simp only [stepWorker, registered, shutdown, ↓reduceIte]
  | interruptHandler a shutdown => simp only [stepWorker, shutdown, ↓reduceIte]
  | interruptAcknowledging shutdown => simp only [stepWorker, shutdown, ↓reduceIte]
  | interruptDeleting shutdown => simp only [stepWorker, shutdown, ↓reduceIte]
  | _ => rfl

private theorem step_stopPoller (running : p.poller ≠ .stopped) (shutdown : p.cancelled = true) :
    p.step c u .stopPoller = some ⟨u, { p with poller := .stopped }, p.poller.farewell⟩ := by
  have h : p.step c u .stopPoller = stepPoller c u p .stopPoller := rfl
  rw [h]
  cases at_ : p.poller with
  | stopped => exact absurd at_ running
  | _ => simp only [stepPoller, at_, shutdown, ↓reduceIte, Poller.farewell]

/-- The steps of a pipeline are exactly the listed ones. -/
theorem step_iff {a : Action} {t : Transition} : p.step c u a = some t ↔ Moves c u p a t := by
  refine ⟨moves_of_step, fun h => ?_⟩
  cases h with
  | cancel => rfl
  | callReceive at_ => simp only [step, Action.worker?, stepPoller, at_]
  | receiveFailed at_ => simp only [step, Action.worker?, stepPoller, at_]
  | receiveNothing at_ => simp only [step, Action.worker?, stepPoller, at_]
  | receive at_ => simp only [step, Action.worker?, stepPoller, at_]
  | resume at_ => simp only [step, Action.worker?, stepPoller, at_]
  | push at_ room => simp only [step, Action.worker?, stepPoller, at_, room, ↓reduceIte]
  | stopPoller running shutdown => exact step_stopPoller running shutdown
  | takeDecoded idle first running =>
    rw [step_of_worker rfl idle]
    simp only [stepWorker, first, running, Bool.false_eq_true, ↓reduceIte]
  | takeRaw idle none_ first running =>
    rw [step_of_worker rfl idle]
    simp only [stepWorker, none_, first, running, Bool.false_eq_true, ↓reduceIte]
  | stopWorker idle shutdown =>
    rw [step_of_worker rfl idle]
    simp only [stepWorker, shutdown, ↓reduceIte]
  | decode at_ read =>
    rw [step_of_worker rfl at_]
    simp only [stepWorker, read]
  | reject at_ unread =>
    rw [step_of_worker rfl at_]
    simp only [stepWorker, unread]
  | enqueue at_ room =>
    rw [step_of_worker rfl at_]
    simp only [stepWorker, room, ↓reduceIte]
  | keep at_ full =>
    rw [step_of_worker rfl at_]
    simp only [stepWorker, Nat.not_lt.2 full, ↓reduceIte]
  | advance at_ step => exact step_of_advance at_ step
  | release at_ step => exact step_of_release at_ step
  | finish complete => simp only [step, Action.worker?, complete, ↓reduceIte]

/-- Only a worker with an envelope that waits for its handler calls the handler, and nothing else is
observed of that step. -/
theorem Moves.dispatching_of_started {a : Action} {x : Transition} {e : Envelope}
    (h : Moves c u p a x) (mem : .started e ∈ x.events) :
    ∃ w : Nat, p.workers[w]? = some (.dispatching e) ∧ x.events = [.started e] := by
  cases h with
  | @advance w e' a s events s' at_ step =>
    cases step with
    | start registered started =>
      obtain rfl : e = e' := by simpa using mem
      exact ⟨w, at_, rfl⟩
    | _ => simp at mem
  | @release w e' a s events at_ step =>
    have mem : .started e ∈ events ++ [.settled e'] := mem
    cases step with
    | _ => simp at mem
  | stopPoller running shutdown =>
    have mem : .started e ∈ p.poller.farewell := mem
    cases at_ : p.poller with
    | _ => simp [at_, Poller.farewell] at mem
  | finish complete =>
    have mem : Event.started e ∈ .dropped p.raw :: p.decoded.map .settled ++ [.stopped] := mem
    simp at mem
  | _ => simp at mem

/-! ### What the steps leave as it is -/

variable {a : Action} {x : Transition}

theorem Moves.length_workers (h : Moves c u p a x) :
    x.pipeline.workers.length = p.workers.length := by
  cases h with
  | takeDecoded | takeRaw | stopWorker | decode | reject | enqueue | keep | advance | release =>
    exact List.length_set
  | _ => rfl

/-- Only one step asks the run to end. -/
theorem Moves.cancelled_eq (h : Moves c u p a x) (calm : a ≠ .cancel) :
    x.pipeline.cancelled = p.cancelled := by
  cases h with
  | cancel => exact absurd rfl calm
  | _ => rfl

theorem Moves.cancelled (h : Moves c u p a x) (shutdown : p.cancelled = true) :
    x.pipeline.cancelled = true := by
  by_cases calm : a = .cancel
  · subst calm
    cases h with
    | cancel => rfl
    | advance at_ step | release at_ step => cases step
  · exact (h.cancelled_eq calm).trans shutdown

/-- A run that has not been asked to end after a step was not before. -/
theorem Moves.running_before (h : Moves c u p a x) (running : x.pipeline.cancelled = false) :
    p.cancelled = false := by
  refine Bool.eq_false_iff.2 fun shutdown => ?_
  exact Bool.false_ne_true (running.symm.trans (h.cancelled shutdown))

end Pipeline

end Courier
