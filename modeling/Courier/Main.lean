import Std.Time.DateTime.Timestamp
import Courier.Log.Line
import Courier.Worker.Program

/-!
# The worker program

Gathers what the worker looks at, which are its arguments, variables and files, writes its log to
the standard output, and ends with its exit code. A worker that runs takes the end of its standard
input as the request to stop.
-/

namespace Courier.Program

open Settings (Environment Files FileFormat)

/-- The variables among the entries of a block, each of which ends with a zero byte. -/
def variablesOf (block : Bytes) : Environment :=
  (block.splitOn 0).filterMap fun entry =>
    let (name, value) := entry.span (· ≠ 61)
    if value.isEmpty then none else some (Text.lossy name, Text.lossy (value.drop 1))

/-- The variables of this program. -/
def environment : IO Environment :=
  try return variablesOf (← IO.FS.readBinFile "/proc/self/environ").toList
  catch _ =>
    [CommandLine.configVariable, LogStyle.filterVariable].filterMapM fun name =>
      return (← IO.getEnv name).map (name, ·)

/-- The paths under which a settings file may be found. -/
def candidates (name : String) : List String :=
  name :: FileFormat.endings.map fun e => s!"{name}.{e.1}"

/-- The files that exist among those that the worker looks at. -/
def filesFor (args : List String) (env : Environment) : IO Files := do
  let explicit := ((CommandLine.read args env).toOption.bind (·.config)).toList
  let paths := (WorkerSettings.defaultFile :: explicit).flatMap candidates
  let entries ← paths.filterMapM fun (path : String) =>
    try return some (path, (← IO.FS.readBinFile path).toList)
    catch _ => return none
  return { directory := (← IO.currentDir).toString, entries }

/-- The present instant. -/
def present : IO Timestamp := do
  let nanos := (← Std.Time.Timestamp.now).toNanosecondsSinceUnixEpoch.val
  let second : Int := 1000000000
  return (Timestamp.ofUnix? (nanos / second) (nanos % second).toNat).getD .epoch

/-- Writes those entries that are written. -/
def write (style : LogStyle) (log : List Log.Entry) : IO Unit := do
  let instant := String.ofList (← present).write
  for e in log.filter style.filter.admits do
    IO.println <| match style.format with
      | .json => e.jsonLine instant
      | .pretty => e.plainLine instant

/-- Waits for the end of the standard input. -/
partial def waitForEnd (input : IO.FS.Stream) : IO Unit := do
  unless (← input.getLine).isEmpty do waitForEnd input

/-- Runs a service until it is to stop. -/
def serve (style : LogStyle) (b : Broker) (s : Service) : IO Unit := do
  let begun ← IO.monoMsNow
  write style [s.consumer.startedEntry]
  waitForEnd (← IO.getStdin)
  write style [Signal.terminate.entry]
  let sim := Simulation.longRun b s.consumer ((← IO.monoMsNow) - begun)
  write style (sim.logOf s.consumer)
  write style [Service.completeEntry]

/-- Runs the program, and gives its exit code. -/
def run (args : List String) : IO Nat := do
  let env ← environment
  let launch := Launch.prepare args env (← filesFor args env)
  let ended (t : Transcript) : IO Nat := do
    t.printed.forM IO.println
    write t.style t.log
    return t.exitCode
  match launch with
  | .stopped reason =>
    if reason.exitCode ≠ 0 then IO.eprintln reason.message
    ended (launch.transcript (← present) .terminate env)
  | .ended _ _ _ => ended (launch.transcript (← present) .terminate env)
  | .ready style w log =>
    write style log
    match Launch.startService (← present) w with
    | ((.error e, more), _) =>
      write style (more ++ [Launch.failedEntry e])
      return e.exitCode
    | ((.ok s, more), b) =>
      write style more
      serve style b s
      return 0

end Courier.Program

def main (args : List String) : IO UInt32 :=
  return (← Courier.Program.run args).toUInt32
