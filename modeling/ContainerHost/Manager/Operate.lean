import ContainerHost.Manager.Run
/-!
# Operating containers

What a manager does with the containers that it has registered: it stops, restarts, reloads,
deploys and scales single ones, and restarts or removes all of them. Operations on all containers
never fail; they say how many succeeded.

Correspondence: `stop`, `restart`, `hot_reload`, `deploy_to_docker`, `scale`, `restart_all`,
`cleanup` ↔ `stop`, `restart`, `hotReload`, `deploy`, `scale`, `restartAll`, `cleanup`, with their
parts between two waits; `fetch_and_compile` ↔ `fetchAndCompile`; `BulkSummary::from_results` ↔
`BulkSummary.ofResults`.
-/

namespace ContainerHost

/-- How an operation on all containers went. -/
structure BulkSummary where
  total : Nat
  succeeded : Nat
  failed : Nat
  deriving DecidableEq, Repr, Inhabited

namespace BulkSummary

def ofResults {α : Type} (rs : List (Except Error α)) : BulkSummary :=
  let ok := (rs.filter fun r => match r with | .ok _ => true | .error _ => false).length
  ⟨rs.length, ok, rs.length - ok⟩

/-- The counts as members of an object. -/
def members (s : BulkSummary) : List (String × Json.Value) :=
  [("total", .nat s.total), ("succeeded", .nat s.succeeded), ("failed", .nat s.failed)]

end BulkSummary

namespace Manager

/-! ## Single containers -/

def act {α : Type} (m : Manager) (id : String) (default : α) (f : Container → α × Container) :
    α × Manager :=
  match m.pool.act id f with
  | some (a, y) => (a, m.withPool y)
  | none => (default, m)

/-- Stops a container that is not registered, or will not be any more. -/
def halt (m : Manager) (id : String) : Manager := (m.act id () fun c => ((), c.stop)).2

def remove (m : Manager) (id : String) : Manager :=
  let m := m.halt id
  { m with slots := m.slots.remove id }.announceFor .containerRemoved id []

/-- Stops a container and removes it. -/
def stop (m : Manager) (id : String) : Except Error Unit × Manager :=
  match m.lookup id with
  | .error e => (.error e, m)
  | .ok _ => (.ok (), m.remove id)

/-- What follows a restart: regular reports and an announcement if it succeeded. -/
def afterRestart (m : Manager) (id : String) (r : Except Error Unit) : Manager :=
  match r with
  | .ok () => (m.watchOver id).announceFor .containerRestarted id []
  | .error _ => m

/-- The first half of a restart of a container that was looked up. -/
def beginRestart (m : Manager) (id : String) : State × Manager :=
  m.act id .empty Container.beginRestart

/-- The second half of a restart, after the rest. -/
def endRestart (m : Manager) (id : String) (snapshot : State) : Except Error Unit × Manager :=
  let (r, m) := m.act id (.error (.containerNotFound id)) fun c =>
    c.endRestart snapshot m.pool.surroundings
  (r, m.afterRestart id r)

def sleep (m : Manager) (d : Duration) : Manager := m.withPool (m.pool.sleep d)

def restart (m : Manager) (id : String) : Except Error Unit × Manager :=
  match m.lookup id with
  | .error e => (.error e, m)
  | .ok _ =>
    let (snapshot, m) := m.beginRestart id
    (m.sleep Limits.restartGrace).endRestart id snapshot

/-- A reload failed; the error is wrapped once. -/
def reloadFailed (id : String) : Error → Error
  | .hotReloadFailed id' e => .hotReloadFailed id' e
  | e => .hotReloadFailed id e

def fetchAndCompile (m : Manager) (name : String) : Except Error CachedModule × Manager :=
  let (bytes, m) := m.fetch name
  match bytes with
  | .error e => (.error e, m)
  | .ok b => (m.compile name b, m)

/-- Puts a module that was fetched again into a container that was looked up; `key` is its place in
the cache. -/
def putIn (m : Manager) (id key : String) (module : CachedModule) :
    Except Error Unit × Manager :=
  let (r, m) := m.act id (.ok ()) fun c =>
    c.hotReload module.module (some module.digest) m.pool.surroundings
  match r with
  | .error e => (.error (reloadFailed id e), m)
  | .ok () =>
    (.ok (), (m.keep key module).announceFor .containerHotReloaded id
      [("moduleDigest", .str module.digest)])

def hotReload (m : Manager) (id : String) : Except Error Unit × Manager :=
  match m.lookup id with
  | .error e => (.error e, m)
  | .ok c =>
    let (module, m) := m.fetchAndCompile c.name
    match module with
    | .error e => (.error (reloadFailed id e), m)
    | .ok module => m.putIn id (ModuleCache.key c.name c.config) module

def deploymentRequest (c : Container) : DeploymentRequest where
  containerId := c.id
  name := c.name
  version := c.config.version
  image := DeploymentRequest.imageFor c.name c.config.version
  backend := c.backend
  environment := c.config.environment
  memoryLimit := c.config.maxMemory
  moduleDigest := c.digest.getD ""

/-- Deploys a container; returns the id of the deployment. -/
def deploy (m : Manager) (id : String) : Except Error String × Manager :=
  match m.lookup id with
  | .error e => (.error e, m)
  | .ok c =>
    let (created, deployer, network) := m.deployer.create (deploymentRequest c) m.network
    let m := { m with deployer := deployer, network := network }
    match created with
    | .error e => (.error e, m)
    | .ok deployment =>
      let (started, deployer, network) := m.deployer.start deployment m.network
      let m := { m with deployer := deployer, network := network }
      match started with
      | .error e => (.error e, m)
      | .ok deployment =>
        (.ok deployment, m.announceFor .dockerDeployed id [("dockerId", .str deployment)])

/-- Announces containers that were made like another one. -/
def announceScaled (m : Manager) (id : String) (n : Nat) (ids : List String) : Manager :=
  (ids.foldl (fun m replica => m.announceFor .replicaCreated id [("replicaId", .str replica)])
    m).announceFor .scaled id [("replicas", .nat n), ("replicaIds", .arr (ids.map .str))]

/-- Looks a container up and reserves slots for containers like it. -/
def beginScale (m : Manager) (id : String) (n : Nat) : Except Failure Reservation × Manager :=
  match m.lookup id with
  | .error e => (.error (.returned e), m)
  | .ok _ =>
    match m.slots.reserve n with
    | .error e => (.error e, m)
    | .ok (r, slots) => (.ok r, { m with slots := slots })

/-- Makes containers like one that was looked up, and registers them in the slots that were reserved
for them; returns their ids. -/
def endScale (m : Manager) (r : Reservation) (id : String) (n : Nat) :
    Except Failure (List String) × Manager :=
  match m.pool.scale id n with
  | none => (.error (.returned (.containerNotFound id)), m.drop r)
  | some (result, y) =>
    let m := m.withPool y
    match result with
    | .error e => (.error (.returned e), m.drop r)
    | .ok ids => (.ok ids, (m.register r ids).announceScaled id n ids)

/-- Makes and registers containers like one that is registered; returns their ids. -/
def scale (m : Manager) (id : String) (n : Nat) : Except Failure (List String) × Manager :=
  match m.beginScale id n with
  | (.error e, m) => (.error e, m)
  | (.ok r, m) => m.endScale r id n

/-! ## All containers -/

/-- What follows when all containers were restarted. -/
def endRestartAll (m : Manager) (summary : BulkSummary) : Manager :=
  m.announce .restartAll none summary.members

def restartAll (m : Manager) : BulkSummary × Manager :=
  let ids := m.slots.ids
  let (tickets, scheduler) := ids.foldl (fun (ts, d) id =>
    let (t, d) := d.ask id .restart
    (ts ++ [(t, id)], d)) (([] : List (Nat × String)), Scheduler.opened m.pool)
  let scheduler := scheduler.settle
  let results := tickets.map fun (t, id) =>
    (id, match scheduler.answer? t with
      | some (.done r) => r
      | _ => .error (.containerNotFound id))
  let m := results.foldl (fun m (id, r) => m.afterRestart id r) (m.withPool scheduler.pool)
  let summary := BulkSummary.ofResults (results.map (·.2))
  (summary, m.endRestartAll summary)

/-- What follows when all containers were stopped and removed. -/
def endCleanup (m : Manager) (summary : BulkSummary) : Manager :=
  let m := { m with cache := m.cache.clear }.announce .cleanup none summary.members
  { m with bus := m.bus.removeAll none }

/-- Stops and removes all containers, clears the cache, and takes everyone off the bus. -/
def cleanup (m : Manager) : BulkSummary × Manager :=
  let (ids, slots) := m.slots.drain
  let summary := BulkSummary.ofResults (ids.map fun _ => (.ok () : Except Error Unit))
  (summary, (ids.foldl halt { m with slots := slots }).endCleanup summary)

end Manager
end ContainerHost
