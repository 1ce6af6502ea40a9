import Courier.Proofs.Broker.Isolation
import Courier.Proofs.Pipeline.Sequential
import Courier.Proofs.Publisher.Calls
import Courier.Worker.Program

/-!
# The start of the worker

The worker checks its settings section by section and looks up its queues before it does anything
else: first the publisher, then the consumer, then the address of the health endpoint. Each section
is checked before its queue is looked up, and the first failure ends the worker. So far it has asked
the backend for queues only, and its consumer has not made a step.

Settings that have passed the checks of a whole worker pass those of its parts. What can still fail
is what others decide: a queue is not found, or the address of the endpoint cannot be had. The
queues of an in-memory backend that is made for the settings are always found, whatever their names
and owners are.

## Main definitions

* `Service.Outcome`: how the start of a service ends, with the calls that it has made.
* `Service.FailsFirst`, `Service.FindsQueues`: how a run fails, over any backend and over the
  in-memory one.
* `Service.ChecksAlike`: the check of the settings is that for a run.

## Main results

* `Service.start_outcome`: the start of a service has one of the outcomes.
* `WorkerSettings.resolve_broker`: the queues of the in-memory backend are found.
* `Service.fails_before_it_acts`: the worker fails before it acts, and only for what others decide
  if its settings have been checked.
-/

namespace Courier

/-! ### The steps of the start -/

theorem Consumer.connect_eq {σ : Type} (k : Backend σ) (r : Registry)
    (settings : ConsumerSettings) : connect k r settings =
      k.connect settings.validate settings.locator (⟨settings, r, ·⟩) := rfl

namespace Service

variable {σ : Type}

/-- How the start of a service over a backend in the state `s` ends: the calls that it makes, the
state of the backend after them, and the service or the error. -/
inductive Outcome (k : Backend σ) (bind : SocketAddress → Option String) (now : Timestamp)
    (w : WorkerSettings) (s : σ) : List Backend.Call → σ → Except WorkerError Service → Prop
  | publisherInvalid {e} (invalid : w.publisher.validate = .error e) :
      Outcome k bind now w s [] s (.error (.queueSetup "publisher" (.configuration e)))
  | publisherLost {e s₁} (valid : w.publisher.validate = .ok ())
      (lost : (k.resolve w.publisher.locator).run s = (.error e, s₁)) :
      Outcome k bind now w s [.resolve w.publisher.locator] s₁ (.error (.queueSetup "publisher" e))
  | consumerInvalid {e q s₁} (valid : w.publisher.validate = .ok ())
      (found : (k.resolve w.publisher.locator).run s = (.ok q, s₁))
      (invalid : w.consumer.validate = .error e) :
      Outcome k bind now w s [.resolve w.publisher.locator] s₁
        (.error (.queueSetup "consumer" (.configuration e)))
  | consumerLost {e q s₁ s₂} (valid : w.publisher.validate = .ok ())
      (found : (k.resolve w.publisher.locator).run s = (.ok q, s₁))
      (valid' : w.consumer.validate = .ok ())
      (lost : (k.resolve w.consumer.locator).run s₁ = (.error e, s₂)) :
      Outcome k bind now w s [.resolve w.publisher.locator, .resolve w.consumer.locator] s₂
        (.error (.queueSetup "consumer" e))
  | unlistened {e q q' s₁ s₂} (valid : w.publisher.validate = .ok ())
      (found : (k.resolve w.publisher.locator).run s = (.ok q, s₁))
      (valid' : w.consumer.validate = .ok ())
      (found' : (k.resolve w.consumer.locator).run s₁ = (.ok q', s₂))
      (refused : listen bind w = .error e) :
      Outcome k bind now w s [.resolve w.publisher.locator, .resolve w.consumer.locator] s₂
        (.error e)
  | started {q q' a s₁ s₂} (valid : w.publisher.validate = .ok ())
      (found : (k.resolve w.publisher.locator).run s = (.ok q, s₁))
      (valid' : w.consumer.validate = .ok ())
      (found' : (k.resolve w.consumer.locator).run s₁ = (.ok q', s₂))
      (listens : listen bind w = .ok a) :
      Outcome k bind now w s [.resolve w.publisher.locator, .resolve w.consumer.locator] s₂
        (.ok ⟨⟨w.publisher, q⟩, ⟨w.consumer, Lifecycle.registry now ⟨w.publisher, q⟩, q'⟩, a⟩)

section

variable {k : Backend σ} {bind : SocketAddress → Option String} {now : Timestamp}
  {w : WorkerSettings} {s s₁ s₂ : σ} {p : Publisher} {c : Consumer} {e : QueueError}
  {calls calls' : List Backend.Call}

theorem run_start_of_publisher (failed : (Publisher.connect k w.publisher).run s = (.error e, s₁)) :
    (start k bind now w).run s = ((.error (.queueSetup "publisher" e), []), s₁) := by
  rw [start, Backend.run_bind_of_run failed]
  rfl

/-- Without a consumer the start is over. -/
theorem run_start_of_consumer (connected : (Publisher.connect k w.publisher).run s = (.ok p, s₁))
    (failed : (Consumer.connect k (Lifecycle.registry now p) w.consumer).run s₁ = (.error e, s₂)) :
    (start k bind now w).run s =
      ((.error (.queueSetup "consumer" e), [p.readyEntry]), s₂) := by
  rw [start, Backend.run_bind_of_run connected]
  exact Backend.run_bind_of_run failed

/-- With a publisher and a consumer, the start ends with the address of the endpoint. -/
theorem run_start_of_connected (bind : SocketAddress → Option String)
    (connected : (Publisher.connect k w.publisher).run s = (.ok p, s₁))
    (connected' : (Consumer.connect k (Lifecycle.registry now p) w.consumer).run s₁ = (.ok c, s₂)) :
    ((start k bind now w).run s).1.1 = (listen bind w).map (⟨p, c, ·⟩) ∧
      ((start k bind now w).run s).2 = s₂ := by
  rw [start, Backend.run_bind_of_run connected]
  simp only
  rw [Backend.run_bind_of_run connected']
  cases listen bind w <;> exact ⟨rfl, rfl⟩

/-- The start of a service does not notice that its calls are written down. -/
theorem mirrors_start (k : Backend σ) (bind : SocketAddress → Option String) (now : Timestamp)
    (w : WorkerSettings) : Backend.Mirrors (start k.recorded bind now w) (start k bind now w) := by
  refine .bind (Backend.mirrors_connect k _ _ w.publisher.validate) fun connected => ?_
  cases connected with
  | error e => exact .pure _
  | ok p =>
    refine .bind (Backend.mirrors_connect k _ _ w.consumer.validate) fun connected => ?_
    cases connected with
    | error e => exact .pure _
    | ok c =>
      dsimp only
      cases listen bind w <;> exact .pure _

/-- The start of a service has one of the outcomes. -/
theorem start_outcome (k : Backend σ) (bind : SocketAddress → Option String) (now : Timestamp)
    (w : WorkerSettings) (s : σ) : let x := (start k.recorded bind now w).run ([], s)
    Outcome k bind now w s x.2.1 x.2.2 x.1.1 := by
  have connects := congrArg (StateT.run · ([], s)) (Publisher.connect_eq k.recorded w.publisher)
  cases valid : w.publisher.validate with
  | error e =>
    rw [valid, Backend.run_connect_error] at connects
    rw [run_start_of_publisher connects]
    exact .publisherInvalid valid
  | ok =>
    rw [valid, Backend.run_connect_ok, Backend.recorded_resolve] at connects
    rcases found : (k.resolve w.publisher.locator).run s with ⟨e | q, s₁⟩
    · rw [found] at connects
      rw [run_start_of_publisher connects]
      exact .publisherLost valid found
    · rw [found] at connects
      have connects' := congrArg (StateT.run · ([.resolve w.publisher.locator], s₁))
        (Consumer.connect_eq k.recorded (Lifecycle.registry now ⟨w.publisher, q⟩) w.consumer)
      cases valid' : w.consumer.validate with
      | error e =>
        rw [valid', Backend.run_connect_error] at connects'
        rw [run_start_of_consumer connects connects']
        exact .consumerInvalid valid found valid'
      | ok =>
        rw [valid', Backend.run_connect_ok, Backend.recorded_resolve] at connects'
        rcases found' : (k.resolve w.consumer.locator).run s₁ with ⟨e | q', s₂⟩
        · rw [found'] at connects'
          rw [run_start_of_consumer connects connects']
          exact .consumerLost valid found valid' found'
        · rw [found'] at connects'
          obtain ⟨answer, state⟩ := run_start_of_connected bind connects connects'
          intro x
          rw [show x.1.1 = _ from answer, show x.2 = _ from state]
          cases listens : listen bind w with
          | error e => exact .unlistened valid found valid' found' listens
          | ok a => exact .started valid found valid' found' listens

/-- The start has that outcome also when its calls are not written down. -/
theorem exists_start_outcome (k : Backend σ) (bind : SocketAddress → Option String)
    (now : Timestamp) (w : WorkerSettings) (s : σ) : let x := (start k bind now w).run s
    ∃ calls, Outcome k bind now w s calls x.2 x.1.1 := by
  rw [mirrors_start k bind now w [] s]
  exact ⟨_, start_outcome k bind now w s⟩

/-- The start of a service has one outcome only. -/
theorem Outcome.unique {r r' : Except WorkerError Service} (h : Outcome k bind now w s calls s₁ r)
    (h' : Outcome k bind now w s calls' s₂ r') : calls = calls' ∧ r = r' := by
  -- Two different outcomes do not agree on the result of some check or call.
  cases h <;> cases h' <;> grind

theorem Outcome.resolves {r : Except WorkerError Service} (h : Outcome k bind now w s calls s₁ r) :
    ∀ c ∈ calls, ∃ l, c = .resolve l := by
  cases h <;> simp

/-- The address of the endpoint is wrong or cannot be had. -/
theorem listen_eq_error {e : WorkerError} (h : listen bind w = .error e) :
    (∃ source, w.health.address = .error source ∧ e = .settings source) ∨
      ∃ a reason, w.health.address = .ok a ∧ bind a = some reason ∧
        e = .bindFailed a.write reason := by
  cases address : w.health.address with
  | error source =>
    rw [listen, address] at h
    cases h
    exact .inl ⟨source, rfl, rfl⟩
  | ok a =>
    cases refusal : bind a with
    | none =>
      simp only [listen, address, Except.mapError, Bind.bind, Except.bind, refusal] at h
      cases h
    | some reason =>
      simp only [listen, address, Except.mapError, Bind.bind, Except.bind, refusal] at h
      cases h
      exact .inr ⟨a, reason, rfl, refusal, rfl⟩

end

/-! ### Runs of the worker -/

section

variable {k : Backend σ} {bind : SocketAddress → Option String} {now : Timestamp}
  {w : WorkerSettings} {s : σ} {calls : List Backend.Call} {as : List Action}
  {events : List Event} {r : Except WorkerError Unit}

/-- A run begins with a start. If that fails, the run is over; and if not, the run does not fail
but for its endpoint. -/
theorem Runs.outcome (h : Runs k bind now w s calls as events r) :
    (∃ s' e, Outcome k bind now w s calls s' (.error e) ∧ as = [] ∧ events = [] ∧ r = .error e) ∨
      ∃ calls' s' service, Outcome k bind now w s calls' s' (.ok service) ∧
        (r = .ok () ∨ ∃ reason, r = .error (.serverFailed reason)) := by
  have outcome := start_outcome k bind now w s
  cases h with
  | refused failed =>
    rw [failed] at outcome
    exact .inl ⟨_, _, outcome, rfl, rfl, rfl⟩
  | served later started acts stopped ends =>
    rw [started] at outcome
    exact .inr ⟨_, _, _, outcome, ends⟩

theorem Runs.of_failed {calls' : List Backend.Call} {s' : σ} {e : WorkerError}
    (h : Runs k bind now w s calls as events r)
    (failed : Outcome k bind now w s calls' s' (.error e)) : calls = calls' ∧ r = .error e := by
  obtain ⟨s₁, e', failed', -, -, rfl⟩ | ⟨calls₁, s₁, service, started, -⟩ := h.outcome
  · obtain ⟨same, same'⟩ := failed'.unique failed
    exact ⟨same, congrArg _ (Except.error.inj same')⟩
  · cases (started.unique failed).2

end

end Service

/-! ### Settings that have been checked -/

/-- Another name for its errors does not change what succeeds. -/
theorem mapError_eq_ok {ε ε' α : Type} {x : Except ε α} {f : ε → ε'} {a : α} :
    x.mapError f = .ok a ↔ x = .ok a := by
  cases x <;> simp [Except.mapError]

namespace WorkerSettings

variable {w : WorkerSettings}

theorem parts_of_validate (h : w.validate = .ok ()) : w.consumer.validate = .ok () ∧
    w.publisher.validate = .ok () ∧ ∃ a, w.health.address = .ok a := by
  obtain ⟨_, consumer, h⟩ := of_bind_eq_ok h
  obtain ⟨_, publisher, h⟩ := of_bind_eq_ok h
  obtain ⟨a, address, -⟩ := of_bind_eq_ok h
  exact ⟨mapError_eq_ok.1 consumer, mapError_eq_ok.1 publisher, a, address⟩

theorem load_eq_ok_iff {files : Settings.Files} {env : Settings.Environment}
    {path : Option String} : load files env path = .ok w ↔
      (layered files env path).bind ofTree = .ok w ∧ w.validate = .ok () := by
  constructor
  · intro loaded
    obtain ⟨w', read, checked⟩ := of_bind_eq_ok loaded
    obtain ⟨_, valid, same⟩ := of_bind_eq_ok checked
    cases same
    exact ⟨mapError_eq_ok.1 read, valid⟩
  · rintro ⟨read, valid⟩
    rw [load, read]
    show (w.validate >>= fun _ => .ok w) = _
    rw [valid]
    rfl

end WorkerSettings

namespace Launch

variable {args : List String} {env : Settings.Environment} {files : Settings.Files}
  {style : LogStyle} {w : WorkerSettings} {log : List Log.Entry}

/-- When the settings are only checked, the process ends well exactly if they are loaded. -/
theorem ends_well_iff {line : CommandLine} (read : CommandLine.read args env = .ok line)
    (checks : line.checkConfig = true) :
    (∃ style log, prepare args env files = .ended style 0 log) ↔
      ∃ w, WorkerSettings.load files env line.config = .ok w := by
  simp only [prepare, read]
  cases loaded : WorkerSettings.load files env line.config with
  | error e => exact ⟨by rintro ⟨style, log, ⟨⟩⟩, nofun⟩
  | ok w => exact ⟨fun _ => ⟨w, rfl⟩, fun _ => ⟨_, _, if_pos checks⟩⟩

theorem validate_of_ready (ready : prepare args env files = .ready style w log) :
    w.validate = .ok () := by
  cases read : CommandLine.read args env with
  | error reason =>
    simp only [prepare, read] at ready
    cases ready
  | ok line =>
    cases loaded : WorkerSettings.load files env line.config with
    | error e =>
      simp only [prepare, read, loaded] at ready
      cases ready
    | ok w' =>
      simp only [prepare, read, loaded] at ready
      cases checks : line.checkConfig with
      | true =>
        rw [if_pos checks] at ready
        cases ready
      | false =>
        rw [if_neg (ne_true_of_eq_false checks)] at ready
        cases ready
        exact (WorkerSettings.load_eq_ok_iff.1 loaded).2

end Launch

/-! ### The in-memory backend -/

namespace WorkerSettings

variable {w : WorkerSettings}

/-- The queues of consumer and publisher are found in the in-memory backend that is made for them,
which is not changed by that, and they are there. -/
theorem resolve_broker {l : Locator} (own : l = w.publisher.locator ∨ l = w.consumer.locator) :
    w.broker.resolve l = (.ok ⟨l.name, l.address⟩, w.broker) ∧
      ∃ queue, w.broker.queue? l.address = some queue := by
  have entry : w.broker.addresses.lookup l = some l.address := by
    rw [broker, Broker.lookup_create]
    split
    · next same => rw [same]
    · next other =>
      obtain rfl := own.resolve_left other
      rw [Broker.lookup_create, if_pos rfl]
  have unspent : w.broker.spendFault .resolve = none := rfl
  have tidy : Broker.Tidy w.broker := (Broker.tidy_start.after 0 (.create _)).after 0 (.create _)
  refine ⟨?_, (tidy.known l _ entry).2⟩
  simp only [Broker.resolve, unspent, entry]

end WorkerSettings

theorem Broker.resolve_eq (b : Broker) (l : Locator) :
    ∃ faults, (b.resolve l).2 = { b with faults } := by
  simp only [resolve]
  split
  · next spent =>
    obtain ⟨n, -, -, rfl⟩ := spendFault_eq_some spent
    exact ⟨_, rfl⟩
  · split <;> exact ⟨b.faults, rfl⟩

namespace Service

/-- The start of a service changes nothing in the in-memory backend but the failures that are asked
for. -/
theorem Outcome.broker_eq {t : Nat} {bind : SocketAddress → Option String} {now : Timestamp}
    {w : WorkerSettings} {b b' : Broker} {calls : List Backend.Call}
    {r : Except WorkerError Service} (h : Outcome (Broker.backend t) bind now w b calls b' r) :
    ∃ faults, b' = { b with faults } := by
  have look {b b' : Broker} {l : Locator} {answer : Except QueueError Identity}
      (looked : ((Broker.backend t).resolve l).run b = (answer, b')) :
      ∃ faults, b' = { b with faults } := by
    obtain ⟨faults, same⟩ := b.resolve_eq l
    exact ⟨faults, (congrArg Prod.snd looked).symm.trans same⟩
  cases h with
  | publisherInvalid invalid => exact ⟨b.faults, rfl⟩
  | publisherLost valid found | consumerInvalid valid found => exact look found
  | consumerLost valid found valid' found' | unlistened valid found valid' found'
  | started valid found valid' found' =>
    obtain ⟨faults, rfl⟩ := look found
    obtain ⟨faults', rfl⟩ := look found'
    exact ⟨faults', rfl⟩

/-- The backend does not find the queue of a part of the worker, the consumer being asked for after
the publisher. -/
inductive Lost {σ : Type} (k : Backend σ) (w : WorkerSettings) (s : σ) : String → QueueError → Prop
  | publisher {e s₁} (lost : (k.resolve w.publisher.locator).run s = (.error e, s₁)) :
      Lost k w s "publisher" e
  | consumer {q e s₁ s₂} (found : (k.resolve w.publisher.locator).run s = (.ok q, s₁))
      (lost : (k.resolve w.consumer.locator).run s₁ = (.error e, s₂)) : Lost k w s "consumer" e

/-- After its settings have been checked, the start only fails for a queue that the backend does not
find, or for the address of the endpoint. -/
theorem Outcome.of_checked {σ : Type} {k : Backend σ} {bind : SocketAddress → Option String}
    {now : Timestamp} {w : WorkerSettings} {s s' : σ} {calls : List Backend.Call} {e : WorkerError}
    (checked : w.validate = .ok ()) (h : Outcome k bind now w s calls s' (.error e)) :
    (∃ component source, e = .queueSetup component source ∧ Lost k w s component source) ∨
      ∃ a reason, w.health.address = .ok a ∧ bind a = some reason ∧
        e = .bindFailed a.write reason := by
  obtain ⟨consumer, publisher, a, address⟩ := WorkerSettings.parts_of_validate checked
  cases h with
  | publisherInvalid invalid => cases publisher.symm.trans invalid
  | publisherLost valid lost => exact .inl ⟨_, _, rfl, .publisher lost⟩
  | consumerInvalid valid found invalid => cases consumer.symm.trans invalid
  | consumerLost valid found valid' lost => exact .inl ⟨_, _, rfl, .consumer found lost⟩
  | unlistened valid found valid' found' refused =>
    rcases listen_eq_error refused with ⟨source, wrong, -⟩ | taken
    · cases address.symm.trans wrong
    · exact .inr taken

theorem not_lost_broker {t : Nat} {w : WorkerSettings} {component : String} {source : QueueError} :
    ¬Lost (Broker.backend t) w w.broker component source := by
  have found {l : Locator} (own : l = w.publisher.locator ∨ l = w.consumer.locator) :
      ((Broker.backend t).resolve l).run w.broker = (.ok ⟨l.name, l.address⟩, w.broker) :=
    (WorkerSettings.resolve_broker own).1
  intro lost
  cases lost with
  | publisher lost => cases (found (.inl rfl)).symm.trans lost
  | consumer found' lost =>
    cases (found (.inl rfl)).symm.trans found'
    cases (found (.inr rfl)).symm.trans lost

/-- Over that backend, and with settings that have been checked, the start only fails for the
address of the endpoint. -/
theorem Outcome.over_broker {t : Nat} {bind : SocketAddress → Option String} {now : Timestamp}
    {w : WorkerSettings} {b : Broker} {calls : List Backend.Call} {e : WorkerError}
    (checked : w.validate = .ok ())
    (h : Outcome (Broker.backend t) bind now w w.broker calls b (.error e)) :
    ∃ a reason, w.health.address = .ok a ∧ bind a = some reason ∧
      e = .bindFailed a.write reason := by
  obtain ⟨component, source, -, lost⟩ | taken := h.of_checked checked
  · exact absurd lost not_lost_broker
  · exact taken

/-- How a run of the worker over a backend in the state `s` fails. One that fails, but not for its
endpoint, has asked the backend for queues only; its consumer has not made a step, so nothing has
been received or deleted and no handler has run.

The settings of the publisher are checked before any call, and its queue is looked up next; then
come the settings and the queue of the consumer. The first failure is the error of the run, so that
a failure of the publisher is reported whatever there is to say of the consumer. -/
structure FailsFirst {σ : Type} (k : Backend σ) (bind : SocketAddress → Option String)
    (now : Timestamp) (w : WorkerSettings) (s : σ) : Prop where
  idle : ∀ calls as events e, Runs k bind now w s calls as events (.error e) →
    (∀ reason, e ≠ .serverFailed reason) →
      as = [] ∧ events = [] ∧ ∀ c ∈ calls, ∃ l, c = .resolve l
  /-- The start does to the backend what it does when its calls are not written down. -/
  unnoticed : (start k bind now w).run s =
    (((start k.recorded bind now w).run ([], s)).1,
      ((start k.recorded bind now w).run ([], s)).2.2)
  publisher_invalid : ∀ calls as events r, Runs k bind now w s calls as events r →
    ∀ e, w.publisher.validate = .error e →
      calls = [] ∧ r = .error (.queueSetup "publisher" (.configuration e))
  publisher_lost : ∀ calls as events r, Runs k bind now w s calls as events r →
    w.publisher.validate = .ok () →
    ∀ e s₁, (k.resolve w.publisher.locator).run s = (.error e, s₁) →
      calls = [.resolve w.publisher.locator] ∧ r = .error (.queueSetup "publisher" e)
  consumer_invalid : ∀ calls as events r, Runs k bind now w s calls as events r →
    w.publisher.validate = .ok () →
    ∀ q s₁, (k.resolve w.publisher.locator).run s = (.ok q, s₁) →
    ∀ e, w.consumer.validate = .error e → calls = [.resolve w.publisher.locator] ∧
      r = .error (.queueSetup "consumer" (.configuration e))
  consumer_lost : ∀ calls as events r, Runs k bind now w s calls as events r →
    w.publisher.validate = .ok () →
    ∀ q s₁, (k.resolve w.publisher.locator).run s = (.ok q, s₁) → w.consumer.validate = .ok () →
    ∀ e s₂, (k.resolve w.consumer.locator).run s₁ = (.error e, s₂) →
      calls = [.resolve w.publisher.locator, .resolve w.consumer.locator] ∧
        r = .error (.queueSetup "consumer" e)
  /-- If the settings have been checked, no check of the run refuses them, and a queue that cannot
  be set up is one that the backend has not found. -/
  checked : w.validate = .ok () → ∀ calls as events e,
    Runs k bind now w s calls as events (.error e) →
      (∀ source, e ≠ .settings source) ∧
        ∀ component source, e = .queueSetup component source → Lost k w s component source

theorem failsFirst {σ : Type} (k : Backend σ) (bind : SocketAddress → Option String)
    (now : Timestamp) (w : WorkerSettings) (s : σ) : FailsFirst k bind now w s where
  idle calls as events e run unserved := by
    obtain ⟨s', e', failed, still, silent, -⟩ | ⟨_, _, _, -, ends | ⟨reason, ends⟩⟩ := run.outcome
    · exact ⟨still, silent, failed.resolves⟩
    · cases ends
    · exact absurd (Except.error.inj ends) (unserved reason)
  unnoticed := mirrors_start k bind now w [] s
  publisher_invalid _ _ _ _ run _ invalid := run.of_failed (.publisherInvalid invalid)
  publisher_lost _ _ _ _ run valid _ _ lost := run.of_failed (.publisherLost valid lost)
  consumer_invalid _ _ _ _ run valid _ _ found _ invalid :=
    run.of_failed (.consumerInvalid valid found invalid)
  consumer_lost _ _ _ _ run valid _ _ found valid' _ _ lost :=
    run.of_failed (.consumerLost valid found valid' lost)
  checked checked calls as events e run := by
    obtain ⟨s', e', failed, -, -, same⟩ | ⟨_, _, _, -, ends | ⟨reason, ends⟩⟩ := run.outcome
    · obtain rfl := Except.error.inj same
      obtain ⟨component, source, rfl, lost⟩ | ⟨a, reason, -, -, rfl⟩ := failed.of_checked checked
      · refine ⟨nofun, ?_⟩
        rintro _ _ ⟨⟩
        exact lost
      · exact ⟨nofun, nofun⟩
    · cases ends
    · cases ends
      exact ⟨nofun, nofun⟩

/-- The check of a process for its settings is that for its run. A process that is to check its
settings ends well exactly if they can be read and pass the checks, and the settings of a process
that runs have passed them. -/
structure ChecksAlike (args : List String) (env : Settings.Environment) (files : Settings.Files) :
    Prop where
  ends_well : ∀ line, CommandLine.read args env = .ok line → line.checkConfig = true →
    ((∃ style log, Launch.prepare args env files = .ended style 0 log) ↔
      ∃ w, (WorkerSettings.layered files env line.config).bind WorkerSettings.ofTree = .ok w ∧
        w.validate = .ok ())
  ready : ∀ style w log, Launch.prepare args env files = .ready style w log → w.validate = .ok ()

/-- How a run over the in-memory backend fails. The queues of the backend that is made for the
settings are found, whatever their names and owners are. So the start over it only fails when the
address of the endpoint cannot be had, and a run only for that or because the endpoint fails. -/
structure FindsQueues (w : WorkerSettings) : Prop where
  found : ∀ l, l = w.publisher.locator ∨ l = w.consumer.locator →
    w.broker.resolve l = (.ok ⟨l.name, l.address⟩, w.broker) ∧
      ∃ queue, w.broker.queue? l.address = some queue
  /-- The start changes nothing in any backend but the failures that are asked for. -/
  unchanged : ∀ t bind now (b : Broker), ∃ faults,
    ((start (Broker.backend t) bind now w).run b).2 = { b with faults }
  start_fails : w.validate = .ok () → ∀ t bind now e,
    ((start (Broker.backend t) bind now w).run w.broker).1.1 = .error e →
      ∃ a reason, w.health.address = .ok a ∧ bind a = some reason ∧
        e = .bindFailed a.write reason
  run_fails : w.validate = .ok () → ∀ t bind now e calls as events,
    Runs (Broker.backend t) bind now w w.broker calls as events (.error e) →
      (∃ a reason, e = .bindFailed a reason) ∨ ∃ reason, e = .serverFailed reason

theorem findsQueues (w : WorkerSettings) : FindsQueues w where
  found _ own := WorkerSettings.resolve_broker own
  unchanged t bind now b := by
    obtain ⟨calls, outcome⟩ := exists_start_outcome (Broker.backend t) bind now w b
    exact outcome.broker_eq
  start_fails checked t bind now e failed := by
    obtain ⟨calls, outcome⟩ := exists_start_outcome (Broker.backend t) bind now w w.broker
    rw [failed] at outcome
    exact outcome.over_broker checked
  run_fails checked t bind now e calls as events run := by
    obtain ⟨s', e', failed, -, -, same⟩ | ⟨_, _, _, -, ends | ⟨reason, ends⟩⟩ := run.outcome
    · obtain rfl := Except.error.inj same
      obtain ⟨a, reason, -, -, rfl⟩ := failed.over_broker checked
      exact .inl ⟨_, reason, rfl⟩
    · cases ends
    · exact .inr ⟨reason, Except.error.inj ends⟩

/-- **The worker fails before it acts.** Over any backend a run that fails, but not for its
endpoint, has looked up queues and done nothing else, and its error is that of the first part that
is wrong, the publisher coming before the consumer. The settings of a run have passed the check that
a process makes which only checks them, and what is refused after that is what the backend does not
find. The in-memory backend finds both queues. -/
theorem fails_before_it_acts :
    (∀ {σ : Type} (k : Backend σ) bind now w s, FailsFirst k bind now w s) ∧
    (∀ args env files, ChecksAlike args env files) ∧ ∀ w, FindsQueues w := by
  refine ⟨failsFirst, fun args env files => ⟨fun line read checks => ?_, ?_⟩, findsQueues⟩
  · simp only [← WorkerSettings.load_eq_ok_iff]
    exact Launch.ends_well_iff read checks
  · exact fun style w log ready => Launch.validate_of_ready ready

end Service

/-! ### An address that is taken, and two sections that are wrong -/

namespace Sample

/-- Settings that can be used. -/
def outpost : WorkerSettings where
  backend := .inMemory

/-- The publisher has no group, and the consumer has no workers. -/
def muddle : WorkerSettings where
  backend := .inMemory
  consumer := { workers := 0 }
  publisher := { group := "" }

end Sample

namespace Service

/-- When the address is taken, the run fails for it and has not made a step. Of two wrong sections
the one of the publisher is reported, and nothing is looked up. -/
theorem fails_before_it_acts_of_outpost :
    (Sample.outpost.validate = .ok () ∧ ∃ calls as events a reason,
      Runs (Broker.backend 0) (bindRefusal true) .epoch Sample.outpost Sample.outpost.broker
        calls as events (.error (.bindFailed a reason)) ∧
      as = [] ∧ ∀ c ∈ calls, ∃ l, c = .resolve l) ∧
    ∃ calls as events e,
      Runs (Broker.backend 0) (bindRefusal true) .epoch Sample.muddle Sample.muddle.broker
        calls as events (.error e) ∧
      calls = [] ∧ e = .queueSetup "publisher"
        (.configuration ⟨"message_group_id must be 1-128 characters"⟩) := by
  have checked : Sample.outpost.validate = .ok () := by decide +kernel
  have taken : Runs (Broker.backend 0) (bindRefusal true) .epoch Sample.outpost
      Sample.outpost.broker _ [] [] (.error (.bindFailed _ _)) := .refused rfl
  have wrong : Runs (Broker.backend 0) (bindRefusal true) .epoch Sample.muddle
      Sample.muddle.broker _ [] [] (.error (.queueSetup _ _)) := .refused rfl
  obtain ⟨first, -, -⟩ := fails_before_it_acts
  obtain ⟨still, -, looked⟩ := (first _ _ _ _ _).idle _ _ _ _ taken nofun
  obtain ⟨unasked, ends⟩ := (first _ _ _ _ _).publisher_invalid _ _ _ _ wrong _ rfl
  exact ⟨⟨checked, _, _, _, _, _, taken, still, looked⟩,
    _, _, _, _, wrong, unasked, Except.error.inj ends⟩

end Service

end Courier
