import ContainerHost.Json.Record
/-!
# Status of a container

Where a container is in its life. `Status.ofName?` reads back every name (`ofName?_name`).

Correspondence: `ContainerStatus` ↔ `Status`.
-/

namespace ContainerHost

/-- Where a container is in its life. -/
inductive Status where
  | starting
  | running
  | paused
  | stopping
  | stopped
  | error
  deriving DecidableEq, Repr, Inhabited

namespace Status

def all : List Status := [starting, running, paused, stopping, stopped, error]

def name : Status → String
  | starting => "starting"
  | running => "running"
  | paused => "paused"
  | stopping => "stopping"
  | stopped => "stopped"
  | error => "error"

/-- The name of a status as an identifier. -/
def tag : Status → String
  | starting => "Starting"
  | running => "Running"
  | paused => "Paused"
  | stopping => "Stopping"
  | stopped => "Stopped"
  | error => "Error"

def ofName? (s : String) : Option Status := all.find? (·.name == s)

def ofDocument? (d : Json.Document) : Option Status := d.alternative?.bind ofName?

theorem ofName?_name (s : Status) : ofName? s.name = some s := by cases s <;> decide +kernel

end Status
end ContainerHost
