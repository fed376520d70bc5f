import ContainerHost.Json.Value
/-!
# Events

What containers and managers announce, and the topics under which they do. `Topic.name` is
injective (`name_injective`), so an announcement reaches the listeners of its own topic only.

Correspondence: the names of events ↔ `Topic`; `Event` ↔ `Event`.
-/

namespace ContainerHost

/-- A topic of the catalogue. -/
inductive Topic where
  | containerCreated
  | containerError
  | containerStop
  | containerRestart
  | containerHotReload
  | containerMetrics
  | stateChange
  | memoryWarning
  | cpuThreshold
  | containerRemoved
  | containerRestarted
  | containerHotReloaded
  | replicaCreated
  | scaled
  | dockerDeployed
  | restartAll
  | cleanup
  deriving DecidableEq, Repr, Inhabited

namespace Topic

def all : List Topic :=
  [containerCreated, containerError, containerStop, containerRestart, containerHotReload,
    containerMetrics, stateChange, memoryWarning, cpuThreshold, containerRemoved,
    containerRestarted, containerHotReloaded, replicaCreated, scaled, dockerDeployed, restartAll,
    cleanup]

def name : Topic → String
  | containerCreated => "container:created"
  | containerError => "container:error"
  | containerStop => "container:stop"
  | containerRestart => "container:restart"
  | containerHotReload => "container:hotreload"
  | containerMetrics => "container:metrics"
  | stateChange => "state:change"
  | memoryWarning => "memory:warning"
  | cpuThreshold => "cpu:threshold"
  | containerRemoved => "manager:container_removed"
  | containerRestarted => "manager:container_restarted"
  | containerHotReloaded => "manager:container_hotreloaded"
  | replicaCreated => "manager:replica_created"
  | scaled => "manager:scaled"
  | dockerDeployed => "manager:docker_deployed"
  | restartAll => "manager:restart_all"
  | cleanup => "manager:cleanup"

theorem mem_all (t : Topic) : t ∈ all := by cases t <;> decide

theorem name_injective {s t : Topic} (h : s.name = t.name) : s = t := by
  revert h
  cases s <;> cases t <;> simp [name]

end Topic

/-- Something that is announced. -/
structure Event where
  kind : String
  containerId : Option String
  payload : Json.Value
  deriving Inhabited, Repr

end ContainerHost
