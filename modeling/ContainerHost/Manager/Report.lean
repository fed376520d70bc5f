import ContainerHost.Deploy.Compose
import ContainerHost.Manager.Operate
/-!
# Reports of a manager

What a manager says about the containers that it has registered, in the order of their ids.

Correspondence: `list`, `get_metrics`, `health_check`, `generate_docker_compose` ↔ `list`,
`metrics`, `health`, `composeText`.
-/

namespace ContainerHost

/-- A container as a manager lists it. -/
structure ContainerSummary where
  id : String
  name : String
  version : String
  status : Status
  backend : Backend
  deriving DecidableEq, Repr, Inhabited

def ContainerSummary.toJson (s : ContainerSummary) : Json.Value := .obj [
  ("id", .str s.id), ("name", .str s.name), ("version", .str s.version),
  ("status", .str s.status.name), ("backend", .str s.backend.name)]

namespace Manager

/-- How many containers are registered. -/
def size (m : Manager) : Nat := m.slots.registered.size

def list (m : Manager) : List ContainerSummary :=
  m.containers.map fun c => ⟨c.id, c.name, c.config.version, c.status, c.backend⟩

def askAll {α : Type} (f : Container → α × Container) : List String → Manager →
    List (String × α) × Manager
  | [], m => ([], m)
  | id :: ids, m =>
    match m.pool.act id f with
    | none => askAll f ids m
    | some (a, y) =>
      let (rest, m) := askAll f ids (m.withPool y)
      ((id, a) :: rest, m)

/-- The metrics of all registered containers. -/
def metrics (m : Manager) : List (String × Metrics) × Manager :=
  askAll (fun c => c.metrics m.pool.clock.wall) m.slots.ids m

/-- The health of all registered containers. -/
def health (m : Manager) : List (String × Health) × Manager :=
  askAll (fun c => c.health m.pool.clock.wall) m.slots.ids m

def composeText (m : Manager) : String := Compose.text (m.containers.map deploymentRequest)

def description (m : Manager) : String :=
  s!"ContainerManager \x7b containers: {m.size}, max_containers: {m.config.maxContainers}, source: " ++
    Text.Quoted.quote m.source.description ++ " \x7d"

end Manager
end ContainerHost
