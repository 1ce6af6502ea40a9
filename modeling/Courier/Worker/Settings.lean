import Courier.Settings.Address
import Courier.Settings.Basic
import Courier.Worker.Error

/-!
# Settings of the worker

A worker has a consumer, a publisher and a health endpoint, and writes a log. All of its settings
have defaults.

## Main definitions

* `WorkerSettings`: the settings, and their JSON record.
* `HealthSettings.address`: where the health endpoint listens.
* `WorkerSettings.validate`: the checks before a worker starts.
-/

namespace Courier

/-- The backend of a worker. -/
inductive BackendChoice where
  | sqs
  | inMemory
  deriving DecidableEq, Repr

/-- The layout of the log. -/
inductive LogFormat where
  | pretty
  | json
  deriving DecidableEq, Repr

/-- Where the health endpoint listens. -/
structure HealthSettings where
  host : String := "0.0.0.0"
  port : UInt16 := 8080
  deriving DecidableEq, Repr

/-- How the log is written. -/
structure LogSettings where
  format : LogFormat := .pretty
  filter : Option String := none
  deriving DecidableEq, Repr

/-- The settings of a worker. -/
structure WorkerSettings where
  backend : BackendChoice := .sqs
  region : Option String := none
  endpoint : Option String := none
  consumer : ConsumerSettings := {}
  publisher : PublisherSettings := {}
  health : HealthSettings := {}
  logging : LogSettings := {}
  deriving DecidableEq

open Json

namespace BackendChoice

/-- The backends under their names in settings. -/
def names : List (String × BackendChoice) :=
  [("sqs", sqs), ("in_memory", inMemory)]

/-- The name of a backend in settings. -/
def name : BackendChoice → String
  | sqs => "sqs"
  | inMemory => "in_memory"

/-- The name of a backend in the log. -/
def title : BackendChoice → String
  | sqs => "Sqs"
  | inMemory => "InMemory"

end BackendChoice

namespace LogFormat

/-- The layouts under their names in settings. -/
def names : List (String × LogFormat) :=
  [("pretty", pretty), ("json", json)]

/-- The name of a layout in settings. -/
def name : LogFormat → String
  | pretty => "pretty"
  | json => "json"

end LogFormat

namespace HealthSettings

/-- The text of the address. -/
def addressText (h : HealthSettings) : String :=
  s!"{h.host}:{h.port}"

/-- The address. -/
def address (h : HealthSettings) : Except SettingsError SocketAddress :=
  match SocketAddress.read? h.addressText with
  | some a => .ok a
  | none => .error (.invalidAddress h.addressText)

/-- The JSON record of the settings. -/
def record : Record HealthSettings where
  name := "HealthConfig"
  fields :=
    [.defaulted "host" .string fun s h => { h with host := s },
      .defaulted "port" .uint16 fun n h => { h with port := .ofNat n }]
  initial := {}

/-- The JSON value of the settings. -/
def toJson (h : HealthSettings) : Json :=
  .object [("host", .string h.host), ("port", .nat h.port.toNat)]

end HealthSettings

namespace LogSettings

/-- The JSON record of the settings. -/
def record : Record LogSettings where
  name := "LoggingConfig"
  fields :=
    [.defaulted "format" (.variant LogFormat.names) fun f l => { l with format := f },
      .defaulted "filter" (.option .string) fun f l => { l with filter := f }]
  initial := {}

/-- The JSON value of the settings. -/
def toJson (l : LogSettings) : Json :=
  .object [("format", .string l.format.name), ("filter", .optionString l.filter)]

end LogSettings

namespace WorkerSettings

/-- The JSON record of the settings. -/
def record : Record WorkerSettings where
  name := "WorkerConfig"
  fields :=
    [.defaulted "backend" (.variant BackendChoice.names) fun b w => { w with backend := b },
      .defaulted "region" (.option .string) fun r w => { w with region := r },
      .defaulted "endpoint_url" (.option .string) fun e w => { w with endpoint := e },
      .defaulted "consumer" ConsumerSettings.record.decoder fun c w => { w with consumer := c },
      .defaulted "publisher" PublisherSettings.record.decoder fun p w => { w with publisher := p },
      .defaulted "health" HealthSettings.record.decoder fun h w => { w with health := h },
      .defaulted "logging" LogSettings.record.decoder fun l w => { w with logging := l }]
  initial := {}

/-- The JSON value of the settings. -/
def toJson (w : WorkerSettings) : Json :=
  .object
    [("backend", .string w.backend.name), ("region", .optionString w.region),
      ("endpoint_url", .optionString w.endpoint), ("consumer", w.consumer.toJson),
      ("publisher", w.publisher.toJson), ("health", w.health.toJson),
      ("logging", w.logging.toJson)]

/-- A text that is given is not empty. -/
def checkGiven (field : String) (value : Option String) : Except SettingsError Unit :=
  if value = some "" then .error (.emptyField field) else .ok ()

/-- The checks before a worker starts. -/
def validate (w : WorkerSettings) : Except SettingsError Unit := do
  w.consumer.validate.mapError (.inSection "consumer")
  w.publisher.validate.mapError (.inSection "publisher")
  let _ ← w.health.address
  checkGiven "region" w.region
  checkGiven "endpoint_url" w.endpoint

end WorkerSettings

end Courier
