import Courier.Error

/-!
# Errors of the worker

Errors of its settings, and the errors that stop the worker.

## Main definitions

* `LoadFault`: settings that cannot be read.
* `SettingsError`: settings that cannot be used.
* `WorkerError`: what stops the worker, with the exit code of the process.
-/

namespace Courier

/-- Settings that cannot be read. -/
inductive LoadFault where
  /-- A file does not exist, or its format is not known. -/
  | unavailable (reason : String)
  /-- A file breaks the rules of its format. -/
  | malformed
  /-- A value is not of the type of its key. -/
  | wrongType (found expected : String) (key origin : Option String)
  /-- A value is refused under its key. -/
  | refused (reason : String) (key : Option String)
  /-- A reason without a place. -/
  | other (reason : String)
  deriving DecidableEq

/-- A phrase with a value, if there is one. -/
def withPhrase (before : String) (value : Option String) (after : String) : String :=
  match value with
  | some value => before ++ value ++ after
  | none => ""

/-- The sentence of a fault. -/
def LoadFault.message : LoadFault → String
  | unavailable reason => reason
  | malformed => "malformed"
  | wrongType found expected key origin =>
    s!"invalid type: {found}, expected {expected}" ++ withPhrase " for key `" key "`" ++
      withPhrase " in " origin ""
  | refused reason key => reason ++ withPhrase " for key `" key "`"
  | other reason => reason

/-- Settings that cannot be used. -/
inductive SettingsError where
  | load (fault : LoadFault)
  | inSection (name : String) (source : InvalidSettings)
  | invalidAddress (address : String)
  | emptyField (field : String)
  deriving DecidableEq

/-- The name under which a settings error is counted. -/
def SettingsError.kind : SettingsError → String
  | load _ => "Load"
  | inSection _ _ => "Section"
  | invalidAddress _ => "InvalidAddress"
  | emptyField _ => "EmptyField"

/-- The name under which a fault is counted. -/
def LoadFault.kind : LoadFault → String
  | unavailable _ => "Foreign"
  | malformed => "FileParse"
  | wrongType _ _ _ _ => "Type"
  | refused _ _ => "At"
  | other _ => "Message"

/-- What a settings error is about: a kind of fault, a section or a field. -/
def SettingsError.detail : SettingsError → String
  | load fault => fault.kind
  | inSection name _ => name
  | invalidAddress _ => ""
  | emptyField field => field

/-- The sentence of a settings error. -/
def SettingsError.message : SettingsError → String
  | load fault => s!"Failed to load configuration: {fault.message}"
  | inSection name source => s!"Invalid {name} configuration: {source.message}"
  | invalidAddress address => s!"Invalid health address: {address}"
  | emptyField field => s!"{field} must not be empty when set"

/-- What stops the worker. -/
inductive WorkerError where
  | settings (source : SettingsError)
  | queueSetup (component : String) (source : QueueError)
  | bindFailed (address reason : String)
  | serverFailed (reason : String)
  deriving DecidableEq

namespace WorkerError

/-- The name under which a worker error is counted. -/
def kind : WorkerError → String
  | settings source => source.kind
  | queueSetup _ _ => "QueueSetup"
  | bindFailed _ _ => "BindFailed"
  | serverFailed _ => "ServerFailed"

/-- The sentence of a worker error. -/
def message : WorkerError → String
  | settings source => source.message
  | queueSetup component source => s!"Failed to set up {component}: {source.message}"
  | bindFailed address reason => s!"Failed to bind health server to {address}: {reason}"
  | serverFailed reason => s!"Health server failed: {reason}"

/-- What a worker error is about, if its kind does not say it all. -/
def detail? : WorkerError → Option String
  | settings source => some source.detail
  | queueSetup _ source => some source.kind
  | _ => none

/-- The exit code of the process. -/
def exitCode : WorkerError → Nat
  | bindFailed _ _ => 1
  | serverFailed _ => 2
  | settings _ => 3
  | queueSetup _ _ => 4

end WorkerError

end Courier
