import ContainerHost.Config.Manager
import ContainerHost.Yaml.Value
/-!
# Reading the settings of a manager

The settings are written as a YAML document, of which JSON is a case; a text without a document is
a document without settings. What was read is validated.

Correspondence: `ManagerConfig::from_str` ↔ `read`, and `from_file` on a file that cannot be read ↔
`unreadable`.
-/

namespace ContainerHost.ManagerConfig

def field {α : Type} (default : α) (read : Yaml.Node → Option α) : Option Yaml.Node → Option α
  | none => some default
  | some n => read n

/-- Reads settings from a document; what is not there is as in `standard`. -/
def ofYaml? (d : Yaml.Document) : Option ManagerConfig := do
  match ← d.fields? fieldNames with
  | [maxContainers, backend, url, timeout, cache, interval, metrics, docker] =>
    some {
      maxContainers := ← field standard.maxContainers Yaml.Node.nat? maxContainers
      defaultBackend := ← field standard.defaultBackend
        (fun n => n.alternative?.bind Backend.ofName?) backend
      registryUrl := ← field standard.registryUrl Yaml.Node.text? url
      networkTimeout := ← field standard.networkTimeout (fun n => n.nat?.map .millis) timeout
      cacheSize := ← field standard.cacheSize Yaml.Node.nat? cache
      metricsInterval := ← field standard.metricsInterval (fun n => n.nat?.map .millis) interval
      enableMetrics := ← field standard.enableMetrics Yaml.Node.bool? metrics
      dockerEndpoint := ← field standard.dockerEndpoint Yaml.Node.optionalText? docker }
  | _ => none

/-- Reads settings from a text of at most one document. -/
def parse? (text : String) : Option ManagerConfig := do
  match ← Yaml.Document.ofText? text with
  | [] => some standard
  | [d] => ofYaml? d
  | _ => none

def read (text : String) : Except Error ManagerConfig :=
  match parse? text with
  | none => .error (.serialization "not a manager configuration")
  | some c => c.validate.map fun () => c

/-- The settings in a file cannot be read. -/
def unreadable (path reason : String) : Error := .config s!"failed to read {path}: {reason}"

end ContainerHost.ManagerConfig
