import ContainerHost.Backend
import ContainerHost.Json.Printer
import ContainerHost.Json.Reader
import ContainerHost.Limits
/-!
# Configuration of a container

What a container may use: memory, CPU time, imports, isolation, a backend of its own, an
environment and a version label. `ContainerConfig.fragment` writes a configuration as the JSON text
that identifies it, and `ContainerConfig.read?` reads such a text.

Correspondence: `IsolationConfig`, `ContainerConfig` ↔ `Isolation`, `ContainerConfig`;
`call_timeout`, `max_memory_pages`, `is_allowed`, `cache_fragment` ↔ `callTimeout`, `maxPages`,
`isAllowed`, `fragment`; `fuel_budget_for` ↔ `fuelBudget`.
-/

namespace ContainerHost

/-- What a container may reach outside its own memory. -/
structure Isolation where
  fileSystemAccess : Bool
  networkAccess : Bool
  crossContainerComm : Bool
  preopenDir : Option String
  deriving DecidableEq, Repr, Inhabited

def Isolation.closed : Isolation := ⟨false, false, false, none⟩

/-- What a container may use. Without `maxCpuTime` the container has no budget over its life. -/
structure ContainerConfig where
  maxMemory : Nat
  maxCpuTime : Option Duration
  allowedImports : Option (List String)
  isolation : Option Isolation
  backend : Option Backend
  environment : Table String
  version : String
  deriving DecidableEq, Repr

def ContainerConfig.standard : ContainerConfig where
  maxMemory := Limits.maxMemory
  maxCpuTime := none
  allowedImports := none
  isolation := none
  backend := none
  environment := .empty
  version := Limits.version

instance : Inhabited ContainerConfig := ⟨.standard⟩

/-! ## Derived limits -/

namespace ContainerConfig

/-- The grants of the container; none when it does not say. -/
def grants (c : ContainerConfig) : Isolation := c.isolation.getD .closed

def callTimeout (c : ContainerConfig) : Duration := c.maxCpuTime.getD Limits.callTimeout

def maxPages (c : ContainerConfig) : Nat := Limits.pagesFor c.maxMemory

def isAllowed (c : ContainerConfig) (name : String) : Bool :=
  match c.allowedImports with
  | none => true
  | some allowed => allowed.contains name

/-- The fuel of a call on a metered backend: by the milliseconds of CPU time, up to the largest
number of sixty-four bits. -/
def fuelBudget (c : ContainerConfig) : Nat :=
  match c.maxCpuTime with
  | none => Limits.fuel
  | some d => min (d.recordedMillis * Limits.fuelPerMilli) Limits.wordMax

end ContainerConfig

/-! ## JSON -/

namespace Isolation

def fieldNames : List String :=
  ["fileSystemAccess", "networkAccess", "crossContainerComm", "preopenDir"]

def toJson (i : Isolation) : Json.Value := .obj <|
  [("fileSystemAccess", .bool i.fileSystemAccess),
   ("networkAccess", .bool i.networkAccess),
   ("crossContainerComm", .bool i.crossContainerComm)] ++
  (i.preopenDir.map fun d => ("preopenDir", Json.Value.str d)).toList

open Json.Document in
/-- Reads grants; what is not there is not granted. -/
def ofDocument? (d : Json.Document) : Option Isolation := do
  match ← d.fields? fieldNames with
  | [fs, net, cross, dir] =>
    some ⟨← withDefault false bool? fs, ← withDefault false bool? net,
      ← withDefault false bool? cross, ← withDefault none (optional? str?) dir⟩
  | _ => none

end Isolation

namespace ContainerConfig

def fieldNames : List String :=
  ["maxMemory", "maxCpuTime", "allowedImports", "isolation", "runtimeBackend", "environment",
    "version"]

/-- The configuration as JSON; a field that is not set is left out. -/
def toJson (c : ContainerConfig) : Json.Value := .obj <|
  [("maxMemory", .nat c.maxMemory)] ++
  (c.maxCpuTime.map fun d => ("maxCpuTime", Json.Value.nat d.recordedMillis)).toList ++
  (c.allowedImports.map fun l => ("allowedImports", Json.Value.arr (l.map .str))).toList ++
  (c.isolation.map fun i => ("isolation", i.toJson)).toList ++
  (c.backend.map fun b => ("runtimeBackend", Json.Value.str b.name)).toList ++
  [("environment", .obj (c.environment.entries.map fun e => (e.1, .str e.2))),
   ("version", .str c.version)]

def fragment (c : ContainerConfig) : String := c.toJson.text

open Json.Document in
/-- Reads a configuration; what is not there is as in `standard`. -/
def ofDocument? (d : Json.Document) : Option ContainerConfig := do
  match ← d.fields? fieldNames with
  | [memory, cpu, allowed, isolation, backend, environment, version] =>
    some {
      maxMemory := ← withDefault standard.maxMemory nat? memory
      maxCpuTime := (← withDefault none (optional? nat?) cpu).map .millis
      allowedImports := ← withDefault none (optional? (list? str?)) allowed
      isolation := ← withDefault none (optional? Isolation.ofDocument?) isolation
      backend := ← withDefault none (optional? Backend.ofDocument?) backend
      environment := ← withDefault .empty (table? str?) environment
      version := ← withDefault standard.version str? version }
  | _ => none

def read? (text : String) : Option ContainerConfig := (Json.Document.read? text).bind ofDocument?

end ContainerConfig
end ContainerHost
