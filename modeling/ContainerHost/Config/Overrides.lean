import ContainerHost.Config.Manager
/-!
# Overriding settings by variables

Variables whose names begin with `Limits.envPrefix` change single settings of a manager, one after
the other; others are ignored. The first value that cannot be read ends it, and the settings
changed before stay changed. Afterwards the settings are validated.

Correspondence: `apply_overrides`, `parse_env` ↔ `applyOverrides`, `parseValue`; the environment of
the process ↔ `processVariables`.
-/

namespace ContainerHost

/-- The settings that a variable can change. -/
inductive Setting where
  | maxContainers
  | defaultBackend
  | registryUrl
  | networkTimeout
  | cacheSize
  | metricsInterval
  | enableMetrics
  | dockerEndpoint
  deriving DecidableEq, Repr

namespace Setting

def all : List Setting :=
  [maxContainers, defaultBackend, registryUrl, networkTimeout, cacheSize, metricsInterval,
    enableMetrics, dockerEndpoint]

/-- The name of the variable without its first part. -/
def suffix : Setting → String
  | maxContainers => "MAX_CONTAINERS"
  | defaultBackend => "DEFAULT_RUNTIME"
  | registryUrl => "REGISTRY_URL"
  | networkTimeout => "NETWORK_TIMEOUT_MS"
  | cacheSize => "CACHE_SIZE"
  | metricsInterval => "METRICS_INTERVAL_MS"
  | enableMetrics => "ENABLE_METRICS"
  | dockerEndpoint => "DOCKER_ENDPOINT"

/-- The name of the variable that changes a setting. -/
def key (s : Setting) : String := Limits.envPrefix ++ s.suffix

def ofVariable? (key : String) : Option Setting := all.find? (·.key == key)

end Setting

/-- The variables of a process after some assignments: a name keeps its place, and the last value
that it was given counts. -/
def processVariables (assignments : List (String × String)) : List (String × String) :=
  assignments.foldl (fun vars (key, value) =>
    if vars.any (·.1 == key) then vars.map fun e => if e.1 == key then (key, value) else e
    else vars ++ [(key, value)]) []

/-- Reads a number of sixty-four bits in decimal digits, with a plus in front if one likes. -/
def parseNat? (s : String) : Option Nat :=
  let digits := match s.toList with
    | '+' :: rest => rest
    | cs => cs
  if digits.isEmpty || !digits.all Char.isDigit then none
  else
    let n := digits.foldl (fun n c => n * 10 + (c.toNat - 0x30)) 0
    if n < 1 <<< 64 then some n else none

/-- Reads the word for a truth value. -/
def parseBool? (s : String) : Option Bool :=
  if s = "true" then some true else if s = "false" then some false else none

namespace ManagerConfig

def parseValue {α : Type} (read : String → Option α) (key value : String) : Except Error α :=
  match read (Text.trimBlank value) with
  | some v => .ok v
  | none => .error (.config s!"invalid value for {key}: '{value}'")

def override (c : ManagerConfig) (s : Setting) (key value : String) : Except Error ManagerConfig :=
  match s with
  | .maxContainers => do return { c with maxContainers := ← parseValue parseNat? key value }
  | .defaultBackend => do return { c with defaultBackend := ← Backend.parse value }
  | .registryUrl => .ok { c with registryUrl := value }
  | .networkTimeout =>
    do return { c with networkTimeout := .millis (← parseValue parseNat? key value) }
  | .cacheSize => do return { c with cacheSize := ← parseValue parseNat? key value }
  | .metricsInterval =>
    do return { c with metricsInterval := .millis (← parseValue parseNat? key value) }
  | .enableMetrics => do return { c with enableMetrics := ← parseValue parseBool? key value }
  | .dockerEndpoint => .ok { c with dockerEndpoint := some value }

/-- Applies variables in their order up to the first that cannot be read; returns what went wrong
and the settings as far as they were changed. -/
def applyVariables (c : ManagerConfig) : List (String × String) → Except Error Unit × ManagerConfig
  | [] => (.ok (), c)
  | (key, value) :: rest =>
    match Setting.ofVariable? key with
    | none => applyVariables c rest
    | some s =>
      match c.override s key value with
      | .ok c' => applyVariables c' rest
      | .error e => (.error e, c)

def applyOverrides (c : ManagerConfig) (vars : List (String × String)) :
    Except Error Unit × ManagerConfig :=
  match c.applyVariables vars with
  | (.ok (), c') => (c'.validate, c')
  | (.error e, c') => (.error e, c')

end ManagerConfig
end ContainerHost
