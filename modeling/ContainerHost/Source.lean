import ContainerHost.Blob
import ContainerHost.Error
import ContainerHost.Http
import ContainerHost.Names
/-!
# Where modules come from

The bytes of a module by its name: kept in memory, in files below a directory, or at a registry on
the network. A directory and a registry are only asked for valid names, so that a name cannot lead
to any other file or address.

Correspondence: `StaticModuleSource`, `DirectoryModuleSource`, `RegistryClient` ↔ the cases of
`Source`; `check_name`, `check_size`, `module_url`, `download`, `fetch` ↔ `checkName`, `checkSize`,
`Registry.moduleUrl`, `Registry.download`, `Source.fetch`.
-/

namespace ContainerHost

/-- A registry of modules on the network. -/
structure Registry where
  base : String
  timeout : Duration
  deriving DecidableEq, Repr, Inhabited

/-- A source of modules. The files of a directory are known by their paths below it. -/
inductive Source where
  | held (modules : Table Blob)
  | directory (root : String) (files : Table Blob)
  | registry (r : Registry)
  deriving Inhabited

namespace Registry

def ofUrl (url : String) (timeout : Duration) : Registry := ⟨Http.trimSlashes url, timeout⟩

/-- The name under which requests are made. -/
def agent : String := "wasmhive/0.1.0"

def moduleUrl (r : Registry) (name : String) : String :=
  r.base ++ "/" ++ Limits.registryPath ++ "/" ++ name

def request (r : Registry) (name : String) : Http.Request :=
  ⟨.get, r.moduleUrl name, none, some agent⟩

end Registry

namespace Source

def failed (name reason : String) : Error := .registryDownloadFailed name reason

/-- Refuses a name that is not valid. -/
def checkName (name : String) : Except Error Unit :=
  match validateName name with
  | .ok () => .ok ()
  | .error reason => .error (failed name reason)

def checkSize (size : Nat) : Except Error Unit :=
  if size > Limits.maxModuleSize then .error (.moduleTooLarge size Limits.maxModuleSize) else .ok ()

def description : Source → String
  | .held modules => s!"static ({modules.size} modules)"
  | .directory root _ => "directory " ++ root
  | .registry r => "registry " ++ r.base

/-- The bytes of a module take their time to come. -/
def isRemote : Source → Bool
  | .registry _ => true
  | _ => false

/-- The files that may hold a module, the preferred one first. -/
def candidates (name : String) : List String := [name ++ ".wasm", name ++ ".wat"]

/-- The module that came with a response. -/
def receive (name : String) (r : Http.Response) : Except Error Blob :=
  if !r.isSuccess then .error (failed name ("registry returned " ++ Http.statusText r.status))
  else do
    match r.declared with
    | some size => checkSize size
    | none => pure ()
    match r.body with
    | none => .error (failed name Http.brokenText)
    | some bytes => do
      checkSize bytes.size
      pure (.bytes bytes)

def download (r : Registry) (name : String) (net : Http.Network) : Except Error Blob × Http.Network :=
  let (outcome, net) := net.exchange r.timeout (r.request name)
  (match outcome with
    | .unreachable => .error (failed name (Http.unreachableText (r.moduleUrl name)))
    | .timedOut => .error (.timeout s!"download module {name}" r.timeout)
    | .response response => receive name response, net)

def fetch (s : Source) (name : String) (net : Http.Network) : Except Error Blob × Http.Network :=
  match s with
  | .held modules =>
    (match modules.get? name with
      | none => .error (failed name "module not found")
      | some b => (checkSize b.size).map fun () => b, net)
  | .directory root files =>
    (do
      checkName name
      match (candidates name).findSome? files.get? with
      | none => .error (failed name s!"no module file for '{name}' in {root}")
      | some b => (checkSize b.size).map fun () => b, net)
  | .registry r =>
    match checkName name with
    | .error e => (.error e, net)
    | .ok () => download r name net

/-- Puts a module into the modules that are kept in memory. -/
def insert (s : Source) (name : String) (b : Blob) : Source :=
  match s with
  | .held modules => .held (modules.insert name b)
  | s => s

/-- Takes a module out of those that are kept in memory; says whether it was there. -/
def remove (s : Source) (name : String) : Bool × Source :=
  match s with
  | .held modules => (modules.contains name, .held (modules.erase name))
  | s => (false, s)

end Source
end ContainerHost
