import ContainerHost.Container.Update
/-!
# Stopping, restarting, reloading, scaling

A stopped container has no guest and no subscribers. A restart stops the container, lets it rest,
makes a new guest of the same module and puts the state back; a hot reload puts a guest of another
module in the place of the old one and keeps the state. Where an operation waits, it is split into
the steps before and after, so that others may come between.

Correspondence: `stop_locked` ↔ `stop`; `restart` ↔ `beginRestart` and `endRestart`, on the sides of
the grace period; `hot_reload` ↔ `hotReload`, of which `beginReload`, `swap` and `endReload` are the
steps; `scale` ↔ `scale`.
-/

namespace ContainerHost.Container

/-! ## Stopping -/

def shutDown (c : Container) : Container :=
  let c := c.setStatus .stopping
  ({ c with subscribers := [], ticker := none, guest := none }.announce .containerStop []).setStatus
    .stopped

/-- Stops the container; a stopped one stays as it is. -/
def stop (c : Container) : Container := if c.status = .stopped then c else c.shutDown

/-! ## Restarting -/

/-- The first half of a restart: remembers the state and stops. -/
def beginRestart (c : Container) : State × Container := (c.state, c.stop)

/-- Boots a stopped container that has left its rest, and puts the state back. -/
def revive (c : Container) (snapshot : State) (env : Surroundings) :
    Except Error Unit × Container :=
  match c.start env with
  | (.error e, c) => (.error (.restartFailed c.id e), c)
  | (.ok (), c) =>
    (.ok (), (c.updateState snapshot).announce .containerRestart
      [("restoredState", snapshot.toJson)])

/-- The second half of a restart, after the rest: starts again with the state put back. -/
def endRestart (c : Container) (snapshot : State) (env : Surroundings) :
    Except Error Unit × Container := (c.setStatus .starting).revive snapshot env

/-- Restarts the container; `env` is what surrounds it after the rest. -/
def restart (c : Container) (env : Surroundings) : Except Error Unit × Container :=
  let (snapshot, c) := c.beginRestart
  c.endRestart snapshot env

/-! ## Reloading -/

def compile (c : Container) (b : Blob) : Except Error Guest.Compiled :=
  Guest.Compiled.ofBlob c.sandbox.machine c.sandbox.engine c.name b

/-- What a hot reload remembers while it makes the new guest. -/
structure Reload where
  wasRunning : Bool
  snapshot : State
  deriving Inhabited

/-- The first step of a hot reload. -/
def beginReload (c : Container) : Reload := ⟨c.status = .running, c.state⟩

def reloadedGuest (c : Container) (m : Guest.Compiled) (env : Surroundings) :
    Except Error Guest.Instance :=
  match c.sandbox.instantiate env m c.id with
  | .ok g => .ok g
  | .error e => .error (.hotReloadFailed c.id e)

/-- Puts guest, module and digest in the place of the old ones. -/
def swap (c : Container) (g : Guest.Instance) (m : Guest.Compiled) (digest : Option String) :
    Container :=
  { c.install g with module := m, digest := digest, memoryWarned := false }

/-- The last step of a hot reload: a running container has its state put back. -/
def endReload (c : Container) (r : Reload) : Container :=
  let c := if r.wasRunning then (c.updateState r.snapshot).setStatus .running else c
  c.announce .containerHotReload [("preservedState", r.snapshot.toJson)]

/-- Puts another module into the container. Nothing changes if no guest can be made of it. -/
def hotReload (c : Container) (m : Guest.Compiled) (digest : Option String) (env : Surroundings) :
    Except Error Unit × Container :=
  let r := c.beginReload
  match c.reloadedGuest m env with
  | .error e => (.error e, c)
  | .ok g => (.ok (), (c.swap g m digest).endReload r)

/-! ## Scaling -/

def replica (c : Container) (id : String) (env : Surroundings) : Except Error Container :=
  (create id c.name c.sandbox c.module c.digest env).map fun r => r.updateState c.state

/-- Makes containers like this one, one for each stamp. If one cannot be made, those made before
are stopped. -/
def replicas (c : Container) : List (Stamp × Surroundings) → List Container →
    Except Error Unit × List Container
  | [], made => (.ok (), made.reverse)
  | (stamp, env) :: rest, made =>
    match c.replica (generateId c.name stamp) env with
    | .ok r => c.replicas rest (r :: made)
    | .error e => (.error e, made.reverse.map stop)

/-- Makes containers like this one; the second part holds every one that was made. -/
def scale (c : Container) (attempts : List (Stamp × Surroundings)) :
    Except Error Unit × List Container := c.replicas attempts []

end ContainerHost.Container
