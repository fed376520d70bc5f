import ContainerHost.Container.Status
import ContainerHost.Event.Topic
import ContainerHost.Guest.Instance
import ContainerHost.Names
/-!
# Containers

A container is a module in a sandbox with an identity, a state of its own, and a life. Everything
that it announces is kept in its outbox until someone takes it out. `create` makes a container and
starts it; a container that does not start is an error.

Correspondence: `ContainerInstance`, `Counters` ↔ `Container`, `Counters`; `create`, `initialize`,
`set_status`, `emit` ↔ `create`, `start`, `setStatus`, `announce`; `info` ↔ `info`.
-/

namespace ContainerHost

/-- The state of a container: values by name. -/
abbrev State := Table Json.Value

def State.toJson (s : State) : Json.Value := .obj s.entries

/-- Someone who hears of every update of the state. A subscriber may fail, and may itself update
the state: `replies` are the updates that it answers its next deliveries with. -/
structure Subscriber where
  id : Nat
  tag : String
  fails : Bool
  replies : List State
  deriving Inhabited

/-- What a container lets others know. -/
inductive Notice where
  | event (e : Event)
  | delivered (tag : String) (state : State)
  deriving Inhabited

/-- What a container has counted. `lastCall` is the time of the last call that returned and how long
it took. -/
structure Counters where
  peak : Nat
  calls : Nat
  errors : Nat
  lastCall : Option (Nat × Duration)
  deriving DecidableEq, Repr, Inhabited

/-- A clock that strikes every `interval`, the next time at `next`. -/
structure Ticker where
  next : Nat
  interval : Nat
  deriving DecidableEq, Repr, Inhabited

/-- A container. `history` holds the statuses that it has entered, in order. -/
structure Container where
  id : String
  name : String
  sandbox : Guest.Sandbox
  module : Guest.Compiled
  digest : Option String
  guest : Option Guest.Instance
  installs : Nat
  status : Status
  history : List Status
  state : State
  subscribers : List Subscriber
  lastSubscriber : Nat
  counters : Counters
  startedAt : Nat
  memoryWarned : Bool
  ticker : Option Ticker
  outbox : List Notice
  deriving Inhabited

namespace Container

def config (c : Container) : ContainerConfig := c.sandbox.config

/-- The backend that the guest runs on. -/
def backend (c : Container) : Backend := c.sandbox.backend

def functions (c : Container) : List String :=
  match c.guest with
  | some g => g.functions
  | none => []

/-- The time since the container entered its running status. -/
def uptime (c : Container) (now : Nat) : Duration := ⟨now - c.startedAt⟩

def setStatus (c : Container) (s : Status) : Container :=
  { c with status := s, history := c.history ++ [s] }

/-- How often a status was entered. -/
def statusChanges (c : Container) : Nat := c.history.length

def announce (c : Container) (t : Topic) (payload : List (String × Json.Value)) : Container :=
  { c with
    outbox := c.outbox ++ [.event ⟨t.name, some c.id, .obj (("containerId", .str c.id) :: payload)⟩] }

def takeNotices (c : Container) : List Notice × Container := (c.outbox, { c with outbox := [] })

def invalidState (c : Container) : Error :=
  .invalidState c.id c.status.name Status.running.name

def install (c : Container) (g : Guest.Instance) : Container :=
  { c with guest := some g, installs := c.installs + 1 }

def boot (c : Container) (env : Surroundings) : Except Error Container :=
  match c.sandbox.instantiate env c.module c.id with
  | .error e => .error e
  | .ok g => .ok <| { c.install g with
      state := .empty, startedAt := env.now, memoryWarned := false : Container }.setStatus .running

def raw (id name : String) (sandbox : Guest.Sandbox) (module : Guest.Compiled)
    (digest : Option String) (now : Nat) : Container where
  id := id
  name := name
  sandbox := sandbox
  module := module
  digest := digest
  guest := none
  installs := 0
  status := .starting
  history := []
  state := .empty
  subscribers := []
  lastSubscriber := 0
  counters := ⟨0, 0, 0, none⟩
  startedAt := now
  memoryWarned := false
  ticker := none
  outbox := []

/-- Boots the container; one that does not come up is left with an error. -/
def start (c : Container) (env : Surroundings) : Except Error Unit × Container :=
  match c.boot env with
  | .error e => (.error e, c.setStatus .error)
  | .ok c => (.ok (), c)

def create (id name : String) (sandbox : Guest.Sandbox) (module : Guest.Compiled)
    (digest : Option String) (env : Surroundings) : Except Error Container :=
  match validateId id with
  | .error reason => .error (.invalidContainerId id reason)
  | .ok () =>
    let (result, c) := (raw id name sandbox module digest env.now).start env
    result.map fun () => c

def description (c : Container) : String :=
  "ContainerInstance \x7b id: " ++ Text.Quoted.quote c.id ++ ", name: " ++
    Text.Quoted.quote c.name ++ s!", backend: {c.backend.tag}, status: {c.status.tag} \x7d"

/-- Identity and placement as JSON, without the time of creation. -/
def info (c : Container) : Json.Value := .obj <|
  [("id", .str c.id), ("name", .str c.name), ("version", .str c.config.version),
   ("backend", .str c.backend.name), ("status", .str c.status.name)] ++
  (c.digest.map fun d => ("moduleDigest", Json.Value.str d)).toList

end Container
end ContainerHost
