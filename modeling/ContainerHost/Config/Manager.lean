import ContainerHost.Backend
import ContainerHost.Json.Record
import ContainerHost.Limits
/-!
# Configuration of a manager

How many containers a manager keeps, where their modules come from, and how large its module cache
is. `ManagerConfig.validate` reports the first setting that cannot work.

Correspondence: `ManagerConfig`, `validate`, `docker_endpoint` ↔ `ManagerConfig`, `validate`,
`deploymentEndpoint`.
-/

namespace ContainerHost

/-- The settings of a manager. -/
structure ManagerConfig where
  maxContainers : Nat
  defaultBackend : Backend
  registryUrl : String
  networkTimeout : Duration
  cacheSize : Nat
  metricsInterval : Duration
  enableMetrics : Bool
  dockerEndpoint : Option String
  deriving DecidableEq, Repr

namespace ManagerConfig

/-- The settings of a manager that is told nothing. -/
def standard : ManagerConfig where
  maxContainers := Limits.maxContainers
  defaultBackend := .host
  registryUrl := Limits.registryUrl
  networkTimeout := Limits.networkTimeout
  cacheSize := Limits.cacheSize
  metricsInterval := Limits.metricsInterval
  enableMetrics := true
  dockerEndpoint := none

instance : Inhabited ManagerConfig := ⟨standard⟩

/-- Accepts settings that can work. -/
def validate (c : ManagerConfig) : Except Error Unit :=
  if c.maxContainers = 0 then .error (.config "maxContainers must be at least 1")
  else if c.cacheSize = 0 then .error (.config "cacheSize must be greater than 0")
  else if c.metricsInterval.nanos = 0 then
    .error (.config "metricsInterval must be greater than 0")
  else if c.registryUrl = "" then .error (.config "registryUrl cannot be empty")
  else .ok ()

/-- Where containers are deployed to. -/
def deploymentEndpoint (c : ManagerConfig) : String := c.dockerEndpoint.getD c.registryUrl

def fieldNames : List String :=
  ["maxContainers", "defaultRuntime", "registryUrl", "networkTimeout", "cacheSize",
    "metricsInterval", "enableMetrics", "dockerEndpoint"]

/-- The settings as JSON; the endpoint is left out when it is not set. -/
def toJson (c : ManagerConfig) : Json.Value := .obj <|
  [("maxContainers", .nat c.maxContainers),
   ("defaultRuntime", .str c.defaultBackend.name),
   ("registryUrl", .str c.registryUrl),
   ("networkTimeout", .nat c.networkTimeout.recordedMillis),
   ("cacheSize", .nat c.cacheSize),
   ("metricsInterval", .nat c.metricsInterval.recordedMillis),
   ("enableMetrics", .bool c.enableMetrics)] ++
  (c.dockerEndpoint.map fun e => ("dockerEndpoint", Json.Value.str e)).toList

open Json.Document in
/-- Reads settings from JSON; what is not there is as in `standard`. -/
def ofDocument? (d : Json.Document) : Option ManagerConfig := do
  match ← d.fields? fieldNames with
  | [maxContainers, backend, url, timeout, cache, interval, metrics, docker] =>
    some {
      maxContainers := ← withDefault standard.maxContainers nat? maxContainers
      defaultBackend := ← withDefault .host Backend.ofDocument? backend
      registryUrl := ← withDefault standard.registryUrl str? url
      networkTimeout := ← withDefault standard.networkTimeout (fun d => (nat? d).map .millis) timeout
      cacheSize := ← withDefault standard.cacheSize nat? cache
      metricsInterval :=
        ← withDefault standard.metricsInterval (fun d => (nat? d).map .millis) interval
      enableMetrics := ← withDefault true bool? metrics
      dockerEndpoint := ← withDefault none (optional? str?) docker }
  | _ => none

theorem validate_standard : standard.validate = .ok () := rfl

end ManagerConfig
end ContainerHost
