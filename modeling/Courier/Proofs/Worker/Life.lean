import Courier.Proofs.Simulation
import Courier.Proofs.Worker.Startup

/-!
# Lives of the process

A process that runs its service leaves behind what a run of the worker shows. When the start fails,
the process ends with the exit code of the error, which is the last entry of its log. Otherwise the
consumer works until a signal comes, and the log has what is observed of it until it has stopped.

The consumer is simulated, and a simulation gives up after a number of steps. It does not have to
when the consumer has fewer workers than a fifth of that.

## Main definitions

* `Transcript.Tells`: a transcript tells of a run of the worker.

## Main results

* `Service.runs_of_stop`: a consumer that is simulated until it is cancelled takes part in a run.
* `Launch.transcript_tells`: the life of a process tells of a run over the backend of its settings.
-/

namespace Courier

namespace Service

variable {σ : Type} {k : Backend σ} {bind : SocketAddress → Option String} {now : Timestamp}
  {w : WorkerSettings} {s s' : σ} {service : Service} {log : List Log.Entry}
  {calls : List Backend.Call}

theorem settings_of_started
    (started : (start k.recorded bind now w).run ([], s) = ((.ok service, log), calls, s')) :
    service.consumer.settings = w.consumer := by
  have outcome := start_outcome k bind now w s
  rw [started] at outcome
  cases outcome with
  | started => rfl

/-- A consumer that is simulated until it is cancelled takes part in a run of the worker. -/
theorem runs_of_stop
    (started : (start k.recorded bind now w).run ([], s) = ((.ok service, log), calls, s'))
    (few : 5 * w.consumer.workers + 2 ≤ Simulation.patience) {u : Unsettled} {run : Run}
    {sim : Simulation} (watches : sim.Watches service.consumer u run) : ∃ as,
      Runs k bind now w s calls as ((sim.stop 0 0).observed.reverse.map (·.event)) (.ok ()) := by
  rw [← settings_of_started started] at few
  obtain ⟨as, p, acts, stopped⟩ := watches.acts_of_stop few
  have run := Runs.served (r := .ok ()) [] started acts stopped (.inl rfl)
  exact ⟨as, by simpa using run⟩

/-- So does a consumer that is cancelled after some milliseconds, whatever the broker holds. -/
theorem runs_of_longRun
    (started : (start k.recorded bind now w).run ([], s) = ((.ok service, log), calls, s'))
    (few : 5 * w.consumer.workers + 2 ≤ Simulation.patience) (b : Broker) (ms : Nat) : ∃ as,
      Runs k bind now w s calls as
        ((Simulation.longRun b service.consumer ms).observed.reverse.map (·.event)) (.ok ()) := by
  obtain ⟨u, run, watches⟩ :=
    (Simulation.watches_start b service.consumer).advance Simulation.patience ms
  exact runs_of_stop started few watches

end Service

/-- A transcript tells of a run of the worker over a backend, for a process that has written `log`
before it starts its service. -/
inductive Transcript.Tells {σ : Type} (k : Backend σ) (s : σ) (now : Timestamp)
    (w : WorkerSettings) (signal : Signal) (style : LogStyle) (log : List Log.Entry) :
    Transcript → Prop
  /-- The start says `more` and fails. -/
  | failed {e more calls s'}
      (failed : (Service.start k (Service.bindRefusal false) now w).run s = ((.error e, more), s'))
      (run : Service.Runs k (Service.bindRefusal false) now w s calls [] [] (.error e)) :
      Tells k s now w signal style log
        { exitCode := e.exitCode, style, log := log ++ more ++ [Launch.failedEntry e] }
  /-- The start says `more`, and the consumer of the service works until the signal comes. -/
  | served {service more calls as events s'}
      (started :
        (Service.start k (Service.bindRefusal false) now w).run s = ((.ok service, more), s'))
      (run : Service.Runs k (Service.bindRefusal false) now w s calls as events (.ok ())) :
      Tells k s now w signal style log
        { exitCode := 0
          style
          log := log ++ more ++ [service.consumer.startedEntry, signal.entry] ++
            events.filterMap (fun ev => (Pipeline.report service.consumer ev).map (·.1)) ++
            [Service.completeEntry] }

namespace Launch

variable {now : Timestamp} {signal : Signal} {env : Settings.Environment} {style : LogStyle}
  {w : WorkerSettings} {log : List Log.Entry}

/-- What is left behind when the start has this answer. -/
theorem tells_of_start {σ : Type} (k : Backend σ) (s : σ) (b : Broker)
    (few : 5 * w.consumer.workers + 2 ≤ Simulation.patience)
    (answer : startService now w =
      (((Service.start k (Service.bindRefusal false) now w).run s).1, b)) :
    Transcript.Tells k s now w signal style log
      (transcript now signal env (.ready style w log)) := by
  have mirrors := Service.mirrors_start k (Service.bindRefusal false) now w [] s
  rcases recorded : (Service.start k.recorded (Service.bindRefusal false) now w).run ([], s) with
    ⟨⟨e | service, more⟩, calls, s'⟩
  · rw [recorded] at mirrors
    rw [mirrors] at answer
    simp only [transcript, answer]
    exact .failed mirrors (.refused recorded)
  · rw [recorded] at mirrors
    rw [mirrors] at answer
    obtain ⟨as, run⟩ :=
      Service.runs_of_stop recorded few (Simulation.watches_start b service.consumer)
    have same : (Simulation.briefRun b service.consumer).logOf service.consumer =
        ((Simulation.briefRun b service.consumer).observed.reverse.map (·.event)).filterMap
          (fun ev => (Pipeline.report service.consumer ev).map (·.1)) := by
      rw [List.filterMap_map]
      rfl
    simp only [transcript, answer, same]
    exact .served mirrors run

/-- The life of a process that is to run tells of a run of the worker over the backend of its
settings: the in-memory one with the queues of the worker, or the service of the queues, which
cannot be reached. -/
theorem transcript_tells (few : 5 * w.consumer.workers + 2 ≤ Simulation.patience) :
    (w.backend = .inMemory →
      Transcript.Tells (Broker.backend 0) w.broker now w signal style log
        (transcript now signal env (.ready style w log))) ∧
    (w.backend = .sqs →
      Transcript.Tells (Sqs.backend unreachable) () now w signal style log
        (transcript now signal env (.ready style w log))) := by
  constructor
  · intro inMemory
    refine tells_of_start _ _ (startService now w).2 few ?_
    simp only [startService, inMemory]
    rfl
  · intro sqs
    refine tells_of_start _ _ {} few ?_
    rw [startService, sqs]
    rfl

end Launch

end Courier
