import ContainerHost.Config.Manager
import ContainerHost.Deploy.Client
import ContainerHost.Event.Bus
import ContainerHost.Manager.Cache
import ContainerHost.Manager.Slots
import ContainerHost.Source
import ContainerHost.Pool.Scheduler
/-!
# Managers

A manager owns a pool of containers, the slots in which it registers them, a cache of modules, the
source of the modules, and a bus on which the containers and the manager itself announce what
happens. Whoever listens on the bus is heard by the manager.

Correspondence: `ContainerManager` ↔ `Manager`; `with_collaborators`, `emit`, `emit_for`,
`instance`, `register` ↔ `opened`, `announce`, `announceFor`, `lookup`, `register`.
-/

namespace ContainerHost

/-- Someone who listens on the bus: a recorder of whole events, or someone with a tag. -/
inductive Observer where
  | recorder
  | tagged (tag : String)
  deriving DecidableEq, Repr, Inhabited

/-- What was heard: an event by an observer, or a delivery to a subscriber of a state. -/
inductive Heard where
  | event (observer : Observer) (e : Event)
  | delivered (tag : String) (state : State)
  deriving Inhabited

/-- A manager of containers. -/
structure Manager where
  config : ManagerConfig
  host : Guest.Host
  source : Source
  deployer : Deployer
  network : Http.Network
  bus : Event.Bus Observer
  slots : Slots
  cache : ModuleCache
  pool : Pool
  heard : List Heard
  deriving Inhabited

namespace Manager

def sourceOf (c : ManagerConfig) : Source := .registry (.ofUrl c.registryUrl c.networkTimeout)

/-- The endpoint that settings name. -/
def deployerOf (c : ManagerConfig) : Deployer :=
  .endpoint (.ofUrl c.deploymentEndpoint c.networkTimeout)

def opened (config : ManagerConfig) (host : Guest.Host) (source : Source) (deployer : Deployer)
    (network : Http.Network) (outside : Outside) : Except Error Manager :=
  config.validate.map fun () =>
    { config := config
      host := host
      source := source
      deployer := deployer
      network := network
      bus := .empty
      slots := .free config.maxContainers
      cache := .empty config.cacheSize
      pool := .opened outside
      heard := [] }

/-! ## The bus -/

def observe (m : Manager) (event : String) (who : Observer) : Manager :=
  { m with bus := (m.bus.register event false who).2 }

def emit (m : Manager) (e : Event) : Manager :=
  let (entries, bus) := m.bus.take e.kind
  { m with bus := bus, heard := m.heard ++ entries.map fun x => .event x.listener e }

/-- Announces something, perhaps about a container. -/
def announce (m : Manager) (t : Topic) (id : Option String) (payload : List (String × Json.Value)) :
    Manager := m.emit ⟨t.name, id, .obj payload⟩

def announceFor (m : Manager) (t : Topic) (id : String) (more : List (String × Json.Value)) :
    Manager := m.announce t (some id) (("containerId", .str id) :: more)

/-- Passes on what a container has let others know. -/
def passOn (m : Manager) : Notice → Manager
  | .event e => m.emit e
  | .delivered tag state => { m with heard := m.heard ++ [.delivered tag state] }

def withPool (m : Manager) (y : Pool) : Manager :=
  let (notices, y) := y.takeHeard
  notices.foldl passOn { m with pool := y }

def takeHeard (m : Manager) : List Heard × Manager := (m.heard, { m with heard := [] })

/-! ## Containers -/

def get? (m : Manager) (id : String) : Option Container :=
  if m.slots.holds id then m.pool.get? id else none

def lookup (m : Manager) (id : String) : Except Error Container :=
  match m.get? id with
  | some c => .ok c
  | none => .error (.containerNotFound id)

def containers (m : Manager) : List Container := m.slots.ids.filterMap m.pool.get?

/-- Lets a container report its metrics regularly, if the settings say so. -/
def watchOver (m : Manager) (id : String) : Manager :=
  if m.config.enableMetrics then
    match m.pool.act id fun c =>
      ((), c.startTicker m.pool.clock.timers m.config.metricsInterval.nanos) with
    | some ((), y) => m.withPool y
    | none => m
  else m

/-- Gives back what is left of a reservation. -/
def drop (m : Manager) (r : Reservation) : Manager := { m with slots := m.slots.drop r }

def register (m : Manager) (r : Reservation) (ids : List String) : Manager :=
  let m := ids.foldl watchOver m
  let (r, slots) := m.slots.commit r ids
  { m with slots := slots }.drop r

/-! ## Modules -/

def fetch (m : Manager) (name : String) : Except Error Blob × Manager :=
  let (b, net) := m.source.fetch name m.network
  (b, { m with network := net })

def compile (m : Manager) (name : String) (b : Blob) : Except Error CachedModule :=
  (m.host.compile name b).map fun compiled => ⟨compiled, b.digest, b.size⟩

def keep (m : Manager) (key : String) (c : CachedModule) : Manager :=
  { m with cache := (m.cache.keep key c).2 }

end Manager
end ContainerHost
