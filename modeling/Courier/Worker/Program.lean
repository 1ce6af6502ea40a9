import Courier.Log.Filter
import Courier.Pipeline.Report
import Courier.Simulation
import Courier.Sqs.Client
import Courier.Worker.CommandLine
import Courier.Worker.Loading
import Courier.Worker.Service

/-!
# The worker as a process

The process reads its arguments, loads the settings, and then writes a log. If the settings are
only checked it ends there. Otherwise it starts the service on the backend of the settings and
runs it until a signal comes.

What the process does before the service runs, and what its log says about that, is a function of
the arguments, the environment and the files.

## Main definitions

* `Launch`, `Launch.prepare`: what the process does before the service runs.
* `Simulation.briefRun`, `Simulation.longRun`: what its consumer does.
* `Transcript`, `Launch.transcript`: a whole life of the process.
-/

namespace Courier

open Settings (Environment Files)

/-- A signal that ends the worker. -/
inductive Signal where
  | interrupt
  | terminate
  deriving DecidableEq, Repr

/-- The entry about a signal. -/
def Signal.entry (s : Signal) : Log.Entry :=
  Service.entry .info <| match s with
    | .interrupt => "Received SIGINT (Ctrl+C), initiating graceful shutdown"
    | .terminate => "Received SIGTERM, initiating graceful shutdown"

/-- How the log is written: its layout, and what of it. -/
structure LogStyle where
  format : LogFormat
  filter : Log.Filter

namespace LogStyle

/-- The filter of the log where none is set. -/
def fallbackFilter : String :=
  "lifecycle_worker=info,lifecycle_queue=info"

/-- The variable of the environment with a filter, which counts if it is right. -/
def filterVariable : String :=
  "RUST_LOG"

/-- The style for an environment and settings. -/
def choose (env : Environment) (format : LogFormat) (filter : Option String) : LogStyle where
  format
  filter := ((env.lookup filterVariable).bind Log.Filter.read?).getD
    (.readable (filter.getD fallbackFilter))

end LogStyle

/-- What the process does before the service runs. -/
inductive Launch where
  /-- The arguments ask for no run. -/
  | stopped (reason : CommandLine.Stop)
  /-- The process ends after a look at the settings. -/
  | ended (style : LogStyle) (exitCode : Nat) (log : List Log.Entry)
  /-- The service is to run. -/
  | ready (style : LogStyle) (settings : WorkerSettings) (log : List Log.Entry)

namespace Launch

/-- The entry about settings that cannot be used. -/
def invalidEntry (e : SettingsError) : Log.Entry :=
  Service.entry .error "Worker configuration is invalid; aborting" [("error", .text e.message)]

/-- The entry about the service that starts. -/
def startingEntry (w : WorkerSettings) : Log.Entry :=
  Service.entry .info "Starting lifecycle worker"
    [("backend", .text w.backend.title), ("consumer_queue", .text w.consumer.queue.text),
      ("publisher_queue", .text w.publisher.queue.text)]

/-- The entry about an error that ends the service. -/
def failedEntry (e : WorkerError) : Log.Entry :=
  Service.entry .error "Worker failed" [("error", .text e.message)]

/-- What the process does before the service runs. -/
def prepare (args : List String) (env : Environment) (files : Files) : Launch :=
  match CommandLine.read args env with
  | .error reason => stopped reason
  | .ok line =>
    let format (otherwise : LogFormat) := if line.jsonLogs then .json else otherwise
    match WorkerSettings.load files env line.config with
    | .error e =>
      let error := WorkerError.settings e
      ended (.choose env (format .pretty) none) error.exitCode [invalidEntry e]
    | .ok w =>
      let style := LogStyle.choose env (format w.logging.format) w.logging.filter
      let loaded := (line.config.map fun path =>
        Service.entry .info "Loaded configuration from explicit path" [("path", .text path)]).toList
      if line.checkConfig then
        ended style 0 (loaded ++ [Service.entry .info "Configuration is valid"])
      else ready style w (loaded ++ [startingEntry w])

/-- What carries no call to the service of the queues. -/
def unreachable : Sqs.Transport Unit := fun _ _ =>
  pure (.unreachable "dispatch failure")

/-- Starts the service on a backend that is at hand. The service of the queues is not, so that the
state of its backend is none. -/
def startService (now : Timestamp) (w : WorkerSettings) :
    (Except WorkerError Service × List Log.Entry) × Broker :=
  match w.backend with
  | .inMemory => Service.start (Broker.backend 0) (Service.bindRefusal false) now w w.broker
  | .sqs =>
    ((Service.start (Sqs.backend unreachable) (Service.bindRefusal false) now w ()).1, {})

end Launch

/-- A life of the process: its exit code, the lines that it prints beside its log, and the log. -/
structure Transcript where
  exitCode : Nat
  printed : List String := []
  style : LogStyle := .choose [] .pretty none
  log : List Log.Entry := []

/-- The entries that are written. -/
def Transcript.written (t : Transcript) : List Log.Entry :=
  t.log.filter t.style.filter.admits

namespace Simulation

/-- What the log says about a consumer in a simulation. -/
def logOf (sim : Simulation) (c : Consumer) : List Log.Entry :=
  sim.observed.reverse.filterMap fun o => (Pipeline.report c o.event).map (·.1)

/-- A run of a consumer over a broker that is cancelled at once. -/
def briefRun (b : Broker) (c : Consumer) : Simulation :=
  ((ofConsumer b c).start 0).stop 0 0

/-- A run of a consumer over a broker that is cancelled after some milliseconds. -/
def longRun (b : Broker) (c : Consumer) (ms : Nat) : Simulation :=
  (((ofConsumer b c).start 0).runUntil ms).stop 0 0

end Simulation

/-- The life of a process that gets a signal as soon as its consumer has started. -/
def Launch.transcript (now : Timestamp) (signal : Signal) (env : Environment) :
    Launch → Transcript
  | stopped .help =>
    { exitCode := 0
      printed := CommandLine.helpLines ((env.lookup CommandLine.configVariable).getD "") }
  | stopped .version => { exitCode := 0, printed := [CommandLine.versionLine] }
  | stopped reason => { exitCode := reason.exitCode }
  | ended style exitCode log => { exitCode, style, log }
  | ready style w log =>
    match startService now w with
    | ((.error e, more), _) =>
      { exitCode := e.exitCode, style, log := log ++ more ++ [failedEntry e] }
    | ((.ok s, more), b) =>
      { exitCode := 0
        style
        log := log ++ more ++ [s.consumer.startedEntry, signal.entry] ++
          (Simulation.briefRun b s.consumer).logOf s.consumer ++ [Service.completeEntry] }

end Courier
