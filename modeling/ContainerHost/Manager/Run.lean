import ContainerHost.Manager.Basic
/-!
# Running containers

A run reserves a slot, finds the module in the cache or fetches and compiles it, makes a container,
registers it and announces it. Whatever fails after the reservation gives the slot back. A run waits
for a download and while bytes are compiled, so that runs at the same time have all begun before the
first one goes on.

Correspondence: `run` ↔ `run`, with `beginRun` and `endRun` on the sides of the module that it waits
for; `start_container`, `resolve_module` ↔ `startContainer`, `resolve`.
-/

namespace ContainerHost

/-- How far a run has come: to its end, or, with a slot reserved, to where it waits for its module. -/
inductive RunProgress where
  | ended (result : Except Failure String)
  | waiting (r : Reservation) (name : String) (config : ContainerConfig) (bytes : Except Error Blob)
  deriving Inhabited

namespace Manager

def failRun (m : Manager) (r : Reservation) (name : String) (e : Error) :
    Except Failure String × Manager :=
  (.error (.returned (.startupFailed name e)), m.drop r)

/-- The sandbox for a container: on the backend that it asks for, or on the usual one. -/
def sandbox (m : Manager) (c : ContainerConfig) : Guest.Sandbox :=
  m.host.sandbox (c.backend.getD m.config.defaultBackend) c

def startContainer (m : Manager) (r : Reservation) (name : String) (c : ContainerConfig)
    (module : CachedModule) : Except Failure String × Manager :=
  let box := m.sandbox c
  let (result, y) := m.pool.create none name box module.module (some module.digest)
  let m := m.withPool y
  match result with
  | .error e => m.failRun r name e
  | .ok id => (.ok id, (m.register r [id]).announceFor .containerCreated id
      [("name", .str name), ("version", .str c.version), ("backend", .str box.backend.name)])

def resolve (m : Manager) (r : Reservation) (name : String) (c : ContainerConfig) :
    RunProgress × Manager :=
  let ended (e : Except Failure String × Manager) : RunProgress × Manager := (.ended e.1, e.2)
  match validateName name with
  | .error reason => ended (m.failRun r name (.invalidContainerId name reason))
  | .ok () =>
    let (found, cache) := m.cache.lookup (ModuleCache.key name c)
    let m := { m with cache := cache }
    match found with
    | some module => ended (m.startContainer r name c module)
    | none =>
      let (bytes, m) := m.fetch name
      match bytes with
      | .error e =>
        if m.source.isRemote then (.waiting r name c (.error e), m) else ended (m.failRun r name e)
      | .ok b => (.waiting r name c (.ok b), m)

def beginRun (m : Manager) (name : String) (c : ContainerConfig) : RunProgress × Manager :=
  match m.slots.reserve 1 with
  | .error e => (.ended (.error e), m)
  | .ok (r, slots) => { m with slots := slots }.resolve r name c

def endRun (m : Manager) : RunProgress → Except Failure String × Manager
  | .ended result => (result, m)
  | .waiting r name c bytes =>
    match bytes.bind (m.compile name) with
    | .error e => m.failRun r name e
    | .ok module => (m.keep (ModuleCache.key name c) module).startContainer r name c module

/-- Runs a container of a module; returns its id. -/
def run (m : Manager) (name : String) (c : ContainerConfig) : Except Failure String × Manager :=
  let (p, m) := m.beginRun name c
  m.endRun p

def beginRuns : List (String × ContainerConfig) → Manager → List RunProgress × Manager
  | [], m => ([], m)
  | (name, c) :: rest, m =>
    let (p, m) := m.beginRun name c
    let (ps, m) := beginRuns rest m
    (p :: ps, m)

def endRuns : List RunProgress → Manager → List (Except Failure String) × Manager
  | [], m => ([], m)
  | p :: ps, m =>
    let (r, m) := m.endRun p
    let (rs, m) := endRuns ps m
    (r :: rs, m)

def runAll (m : Manager) (runs : List (String × ContainerConfig)) :
    List (Except Failure String) × Manager :=
  let (ps, m) := beginRuns runs m
  endRuns ps m

end Manager
end ContainerHost
