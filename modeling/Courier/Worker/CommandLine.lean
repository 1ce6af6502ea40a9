import Courier.Settings.Sources

/-!
# The command line of the worker

The worker knows an option with a value, the path of a settings file, and two flags. Each may be
given once. The path may also stand in a variable of the environment, which counts where the
option is not given.

An option that still waits for its value gets the next argument, unless that is an option itself or
the mark behind which there are no options.

## Main definitions

* `CommandLine`: what the arguments ask for.
* `CommandLine.Stop`: why the worker does not begin.
* `CommandLine.read`: the meaning of arguments.
-/

namespace Courier

/-- What the arguments ask for. -/
structure CommandLine where
  /-- The path of a settings file. -/
  config : Option String := none
  /-- Whether the log is written as JSON, whatever the settings say. -/
  jsonLogs : Bool := false
  /-- Whether the settings are only checked. -/
  checkConfig : Bool := false
  deriving DecidableEq, Repr

namespace CommandLine

/-- Why the worker does not begin. -/
inductive Stop where
  /-- The arguments ask for help. -/
  | help
  /-- The arguments ask for the version. -/
  | version
  | unknownArgument (arg : String)
  /-- The option with a value has none, or an empty one. -/
  | missingValue
  /-- Something is given twice. -/
  | repeated (what : String)
  /-- A flag is given a value. -/
  | extraValue (value flag : String)
  deriving DecidableEq, Repr

/-- The option with a value, as it is shown. -/
def configTitle : String :=
  "--config <CONFIG>"

/-- The variable of the environment with the path of a settings file. -/
def configVariable : String :=
  "LW_CONFIG_FILE"

/-- What the program does. -/
def about : String :=
  "Consumes domain and hosting lifecycle events from a queue"

/-- The program and its version. -/
def versionLine : String :=
  "lifecycle-worker 0.1.0"

/-- The lines of the help text, for the value of the variable. -/
def helpLines (value : String) : List String :=
  [about, "", "Usage: lifecycle-worker [OPTIONS]", "", "Options:",
    s!"  -c, {configTitle}  Configuration file path [env: {configVariable}={value}]",
    "      --json-logs        Enable JSON logging, overriding the configured format",
    "      --check-config     Validate the configuration and exit",
    "  -h, --help             Print help",
    "  -V, --version          Print version"]

namespace Stop

/-- The name under which a stop is counted. -/
def kind : Stop → String
  | help => "DisplayHelp"
  | version => "DisplayVersion"
  | unknownArgument _ => "UnknownArgument"
  | missingValue => "InvalidValue"
  | repeated _ => "ArgumentConflict"
  | extraValue _ _ => "TooManyValues"

/-- The exit code of the process. -/
def exitCode : Stop → Nat
  | help | version => 0
  | _ => 2

/-- The sentence of a stop. -/
def message : Stop → String
  | help => about
  | version => versionLine
  | unknownArgument arg => s!"error: unexpected argument '{arg}' found"
  | missingValue => s!"error: a value is required for '{configTitle}' but none was supplied"
  | repeated what => s!"error: the argument '{what}' cannot be used multiple times"
  | extraValue value flag =>
    s!"error: unexpected value '{value}' for '{flag}' found; no more were expected"

/-- The first line of the sentence. -/
def headline (s : Stop) : String :=
  String.ofList (s.message.toList.takeWhile (· ≠ '\n'))

end Stop

/-- What has been read of the option with a value. -/
inductive Pending where
  /-- It has not been begun, or is complete. -/
  | nothing
  /-- It waits for its value. -/
  | awaited
  /-- Its value has come, and has not been looked at. -/
  | given (value : String)
  deriving DecidableEq, Repr

/-- The arguments read so far. -/
structure Scan where
  found : CommandLine := {}
  pending : Pending := .nothing

namespace Scan

/-- Takes a value of the option. -/
def accept (s : Scan) (value : String) : Except Stop Scan :=
  if s.found.config.isSome then .error (.repeated configTitle)
  else if value = "" then .error .missingValue
  else .ok { found := { s.found with config := some value } }

/-- Completes the option that has been begun. -/
def complete (s : Scan) : Except Stop Scan :=
  match s.pending with
  | .nothing => .ok s
  | .awaited => .error .missingValue
  | .given value => s.accept value

/-- Begins the option, which may have its value with it. -/
def option (s : Scan) (value : Option String) : Except Stop Scan := do
  let s ← s.complete
  match value with
  | some value => s.accept value
  | none => return { s with pending := .awaited }

/-- Sets a flag. -/
def flag (s : Scan) (name : String) (isSet : CommandLine → Bool)
    (set : CommandLine → CommandLine) : Except Stop Scan := do
  let s ← s.complete
  if isSet s.found then throw (.repeated name)
  return { s with found := set s.found }

/-- Stops, unless an option has no value. -/
def stop (s : Scan) (reason : Stop) : Except Stop Scan := do
  let _ ← s.complete
  throw reason

/-- Reads an argument that begins with two dashes. -/
def long (s : Scan) (name : String) (value : Option String) : Except Stop Scan :=
  let title := "--" ++ name
  if name = "config" then s.option value
  else if ["json-logs", "check-config", "help", "version"].contains name then
    match value with
    | some value => .error (.extraValue value title)
    | none =>
      match name with
      | "json-logs" => s.flag title (·.jsonLogs) fun c => { c with jsonLogs := true }
      | "check-config" => s.flag title (·.checkConfig) fun c => { c with checkConfig := true }
      | "help" => s.stop .help
      | _ => s.stop .version
  else .error (.unknownArgument title)

/-- Reads an argument that begins with a dash, from its letter on. -/
def short (s : Scan) (letter : Char) (rest : List Char) : Except Stop Scan :=
  if letter = 'c' then
    s.option (match rest with
      | [] => none
      | '=' :: value => some (String.ofList value)
      | value => some (String.ofList value))
  else if letter = 'h' then s.stop .help
  else if letter = 'V' then s.stop .version
  else .error (.unknownArgument (String.ofList ['-', letter]))

/-- Reads the name and the value of a long argument. -/
def split (cs : List Char) : String × Option String :=
  match cs.dropWhile (· ≠ '=') with
  | [] => (String.ofList cs, none)
  | _ :: value => (String.ofList (cs.takeWhile (· ≠ '=')), some (String.ofList value))

/-- Reads the arguments. -/
def arguments : List String → Scan → Except Stop Scan
  | [], s => s.complete
  | arg :: args, s =>
    match arg.toList with
    | ['-', '-'] =>
      match args with
      | [] => s.complete
      | x :: _ => .error (.unknownArgument x)
    | '-' :: '-' :: cs =>
      let (name, value) := split cs
      (s.long name value).bind (arguments args)
    | '-' :: letter :: rest => (s.short letter rest).bind (arguments args)
    | _ =>
      if s.pending = .awaited then arguments args { s with pending := .given arg }
      else .error (.unknownArgument arg)

end Scan

/-- The meaning of arguments, in an environment. -/
def read (args : List String) (env : Settings.Environment) : Except Stop CommandLine := do
  let s ← Scan.arguments args {}
  match s.found.config, env.lookup configVariable with
  | none, some value => return (← s.accept value).found
  | _, _ => return s.found

end CommandLine

end Courier
