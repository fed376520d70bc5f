import ContainerHost.Config.Container
import ContainerHost.Guest.Compiled
import ContainerHost.Guest.Run
import ContainerHost.Guest.Surroundings
import ContainerHost.Platform
import ContainerHost.Text.Quoted
/-!
# Guests

A sandbox is a backend with the configuration of a container. It turns a compiled module into a
guest: it checks the policy, links what the module imports, puts its data into memory and runs its
start function. A guest is called by the names of its exported functions; on a metered backend each
call begins with the whole fuel budget.

Correspondence: `GuestInstance`, a `Runtime`, `RuntimeFactory` ↔ `Instance`, `Sandbox`, `Host`;
`instantiate_module`, `validate_module`, `fuel_budget`, `preopen_dir` ↔ `instantiate`, `forbidden?`,
`fuelBudget`, `preopenDir`; `call_interruptible`, `memory_size`, `has_function` ↔ `call`,
`memorySize`, `hasFunction`.
-/

namespace ContainerHost.Guest

open Wasm (Value Module ExternType Memory)

/-! ## Sandboxes -/

/-- A backend with the configuration of a container, and why it cannot run here, if it cannot. -/
structure Sandbox where
  backend : Backend
  engine : Nat
  config : ContainerConfig
  unavailable : Option String
  machine : Machine
  deriving Inhabited

/-- A platform with an engine, which is told apart from others by its number, and the machine that
the engine runs guests on. -/
structure Host where
  platform : Platform
  engine : Nat
  machine : Machine
  deriving Inhabited

namespace Host

def sandbox (h : Host) (b : Backend) (c : ContainerConfig) : Sandbox :=
  ⟨b, h.engine, c, h.platform.unavailableReason? b, h.machine⟩

def sandboxByName (h : Host) (name : String) (c : ContainerConfig) : Except Error Sandbox :=
  (Backend.parse name).map fun b => h.sandbox b c

/-- Compiles the bytes of a module. -/
def compile (h : Host) (name : String) (b : Blob) : Except Error Compiled :=
  Compiled.ofBlob h.machine h.engine name b

def description (h : Host) : String :=
  "RuntimeFactory \x7b engine: true, engine_error: None, platform: " ++
    Text.Quoted.quote h.platform.name ++ " \x7d"

end Host

namespace Sandbox

def fuelBudget (b : Sandbox) : Option Nat :=
  if b.backend.isMetered then some b.config.fuelBudget else none

/-- The directory that guests are given. -/
def preopenDir (b : Sandbox) : Option String :=
  let grants := b.config.grants
  match b.backend with
  | .browser => none
  | .host => if grants.fileSystemAccess then grants.preopenDir else none
  | .wasmtime | .wasmer | .wasm3 =>
    if grants.fileSystemAccess && b.backend.capabilities.fileSystemAccess then grants.preopenDir
    else none

end Sandbox

/-! ## Guests and calls -/

/-- A module that runs for a container. `tracked` is the address of the memory that the container
accounts for. -/
structure Instance where
  containerId : String
  functions : List String
  exported : List (String × Nat)
  wiring : Wiring
  tracked : Option Nat
  fuelBudget : Option Nat
  cpuLimit : Duration
  store : Store
  deriving Inhabited

/-- What the outside shows to a call whenever its guest pauses. -/
structure Watch where
  signal : Nat → Signal

namespace Watch

def quiet : Watch := ⟨fun _ => ⟨0, false⟩⟩

/-- The interrupt is raised before the call. -/
def raised : Watch := ⟨fun _ => ⟨0, true⟩⟩

/-- The interrupt is raised, and the engine's clock ticks, when the guest has paused so often. -/
def within (pauses : Nat) : Watch := ⟨fun k => if pauses ≤ k then ⟨1, true⟩ else ⟨0, false⟩⟩

end Watch

namespace Instance

def hasFunction (g : Instance) (name : String) : Bool := g.functions.contains name

def memorySize (g : Instance) : Nat :=
  match g.tracked.bind g.store.memory? with
  | some m => m.byteSize
  | none => 0

def description (g : Instance) : String :=
  "GuestInstance \x7b container_id: " ++ Text.Quoted.quote g.containerId ++ ", functions: " ++
    Text.Quoted.quoteList g.functions ++ s!", memory_bytes: {g.memorySize} \x7d"

def interrupted (g : Instance) (function : String) : Error :=
  .timeout s!"call '{function}' in container '{g.containerId}' interrupted" g.cpuLimit

def exhausted (g : Instance) (function : String) : Error :=
  .timeout s!"fuel budget exhausted calling '{function}' in container '{g.containerId}'" g.cpuLimit

def failed (g : Instance) (function reason : String) : Error :=
  .executionFailed g.containerId function reason

def checkArgs (g : Instance) (function : String) (params : List Wasm.ValType) (args : List Value) :
    Except Error Unit :=
  if params.length ≠ args.length then
    .error (g.failed function s!"expected {params.length} arguments, got {args.length}")
  else match (params.zip args).find? fun p => p.1 != p.2.type with
    | some (t, v) =>
      .error (g.failed function
        s!"argument type mismatch: type mismatch: expected {t.name}, found {v.type.name}")
    | none => .ok ()

/-- The results of a call as numbers. -/
def checkResults (g : Instance) (function : String) (results : List Value) :
    Except Error (List Value) :=
  if results.any (· == .nullFunc) then .error (g.failed function "unsupported result type")
  else .ok results

def reason (g : Instance) (function : String) (why : Stop) : String :=
  g.wiring.machine.context function why ++ why.reason

/-- What the end of a run means to the caller. Leaving with status zero is a return without
results. -/
def judge (g : Instance) (function : String) : Outcome → Except Error (List Value)
  | .returned results => g.checkResults function results
  | .stopped (.exit 0) => .ok []
  | .stopped (.trap .outOfFuel) => .error (g.exhausted function)
  | .stopped (.trap .interrupted) => .error (g.interrupted function)
  | .stopped why => .error (g.failed function (g.reason function why))

/-- The store at the beginning of a call: the deadline is one tick ahead, and a metered call has
its whole budget. -/
def prepared (g : Instance) (signal : Signal) : Store :=
  { g.store with deadline := signal.epoch + 1, fuel := g.fuelBudget.getD g.store.fuel }

def call (g : Instance) (function : String) (args : List Value) (watch : Watch) :
    Except Error (List Value) × Instance :=
  let signal := watch.signal 0
  if signal.raised then
    (.error (g.interrupted function),
      { g with store := { g.store with deadline := signal.epoch + 1 } })
  else
    let store := g.prepared signal
    match (g.exported.find? (·.1 == function)).bind fun e => g.wiring.funcs[e.2]? with
    | none => (.error (.functionNotFound g.containerId function), { g with store := store })
    | some callee =>
      match g.checkArgs function callee.type.params args with
      | .error e => (.error e, { g with store := store })
      | .ok () =>
        let (outcome, store) := enter g.wiring g.wiring.place.outside watch.signal store callee args
        (g.judge function outcome, { g with store := store })

end Instance

/-! ## Instantiation -/

/-- Something that a host provides under a name. -/
inductive Provided where
  | func (f : HostFunc)
  | memory

def Provided.callee? : Provided → Option Callee
  | func f => some (.host f)
  | memory => none

namespace Sandbox

def memoryName : String × String := ("env", "memory")

def provided? (b : Sandbox) (i : Wasm.Import) : Option Provided :=
  if (i.space, i.name) = memoryName then some .memory
  else (HostFunc.offered? b.backend b.config.grants.fileSystemAccess i.space i.name).map .func

def memoryLimits (b : Sandbox) : Wasm.Limits := ⟨min 1 b.config.maxPages, some b.config.maxPages⟩

def spelled (i : Wasm.Import) : String := "`" ++ i.space ++ "::" ++ i.name ++ "`"

/-- Why something provided will not do for an import, if it will not. -/
def mismatch? (b : Sandbox) (i : Wasm.Import) (p : Provided) : Option String :=
  let reason : Option String :=
    match i.type, p with
    | .func want, .func f =>
      if want = f.type then none
      else some ("types incompatible: expected type `" ++ want.text ++ "`, found type `" ++
        f.type.text ++ "`")
    | .memory want, .memory =>
      if b.memoryLimits.covers want then none
      else some ("memory types incompatible: expected memory limits " ++ want.text ++
        " doesn't match provided memory limits " ++ b.memoryLimits.text)
    | .func _, .memory => some "expected func, but found memory"
    | .memory _, .func _ => some "expected memory, but found func"
    | .other kind, .func _ => some ("expected " ++ kind ++ ", but found func")
    | .other kind, .memory => some ("expected " ++ kind ++ ", but found memory")
  reason.map fun r => "incompatible import type for " ++ spelled i ++ ": " ++ r

def link (b : Sandbox) (imports : List Wasm.Import) : Except String (List Provided) := do
  let found ← imports.mapM fun i =>
    match b.provided? i with
    | some p => .ok p
    | none => .error ("unknown import: " ++ spelled i ++ " has not been defined")
  match (imports.zip found).findSome? fun (i, p) => b.mismatch? i p with
  | some reason => .error reason
  | none => .ok found

def forbidden? (c : ContainerConfig) (m : Module) : Option Wasm.Import :=
  m.imports.find? fun i => !c.isAllowed i.dotted

/-- The addresses of a module's memories: the imported one is the host's, and its own follow. -/
def memoryAddresses (m : Module) : List Nat :=
  m.importedMemories.map (fun _ => 0) ++ (List.range m.memories.length).map (· + 1)

def exportedAddress? (m : Module) : Option Nat :=
  (m.exportedMemory? "memory").bind fun i => (memoryAddresses m)[i]?

/-- The memory that host functions use: the exported one, or else the host's. -/
def hostMemory (m : Module) : Option Nat := some ((exportedAddress? m).getD 0)

/-- The memory that is accounted for: the exported one, or else the host's if it is imported. -/
def trackedMemory (m : Module) : Option Nat :=
  match exportedAddress? m with
  | some a => some a
  | none => if m.importsName memoryName.1 memoryName.2 then some 0 else none

def wiring (b : Sandbox) (m : Module) (id : String) (found : List Provided) : Wiring where
  funcs := (found.filterMap Provided.callee? ++ m.funcs.map Callee.own).toArray
  memories := (memoryAddresses m).toArray
  memoryLimit := b.config.maxPages * Limits.pageSize
  machine := b.machine
  place := {
    containerId := id
    environment := b.config.environment
    cpuLimit := b.config.callTimeout
    networkAccess := b.config.grants.networkAccess
    preopened := b.preopenDir.isSome
    hostMemory := hostMemory m
    exportsMemory := (exportedAddress? m).isSome
    system := b.machine.system }

def providedMemory (b : Sandbox) : Memory := .zeros b.memoryLimits.min b.memoryLimits.max

/-- The store before any code has run. A guest that is not metered has as much fuel as there can
be. -/
def freshStore (b : Sandbox) (env : Surroundings) (id : String) (memories : Array Memory)
    (globals : Array Value) : Store where
  memories := memories
  globals := globals
  fuel := b.fuelBudget.getD Limits.wordMax
  deadline := 1
  storage := .empty
  made := env.now
  elapsed := 0
  entropy := env.outside.chance id env.now
  asked := []

/-- Links a module, makes its memories and runs its start function, which is called by the guest
itself. -/
def start (b : Sandbox) (env : Surroundings) (m : Module) (id : String) :
    Except String (Wiring × Store) := do
  let found ← b.link m.imports
  let w := b.wiring m id found
  let (memories, globals) ← b.machine.allocate w.memoryLimit m b.providedMemory
  let s := b.freshStore env id memories globals
  match m.start.bind fun i => w.funcs[i]? with
  | none => .ok (w, s)
  | some callee =>
    match enter w w.place Watch.quiet.signal s callee [] with
    | (.returned _, s) => .ok (w, s)
    | (.stopped why, _) => .error (b.machine.context "start" why ++ why.reason)

/-- The steps of a path; empty ones and those that stay where they are do not count. -/
def pathSteps (path : String) : List (List Char) :=
  (path.toList.splitOn '/').filter fun step => step ≠ [] && step ≠ ['.']

def isRooted (path : String) : Bool := path.toList.head? == some '/'

/-- One of the directories that exist lies at a path or below it. -/
def hasDirectory (dirs : List String) (path : String) : Bool :=
  !path.isEmpty && dirs.any fun d =>
    isRooted d == isRooted path && (pathSteps path).isPrefixOf (pathSteps d)

def instantiate (b : Sandbox) (env : Surroundings) (c : Compiled) (id : String) :
    Except Error Instance :=
  match b.unavailable with
  | some reason => .error (.runtimeUnavailable b.backend.name reason)
  | none =>
    if c.engine ≠ b.engine then .error (.engineMismatch id)
    else match forbidden? b.config c.module with
      | some i => .error (.securityViolation id s!"import '{i.dotted}' is not in the allowed list")
      | none =>
        match b.preopenDir.filter fun d => !hasDirectory env.outside.dirs d with
        | some dir => .error (.instantiationFailed id
            s!"failed to preopen {dir}: No such file or directory (os error 2)")
        | none =>
          match env.outside.shortage id env.now with
          | some reason => .error (.instantiationFailed id reason)
          | none =>
            match b.start env c.module id with
            | .error reason => .error (.instantiationFailed id reason)
            | .ok (w, s) => .ok {
                containerId := id
                functions := c.module.functionNames
                exported := c.module.exports.filterMap fun e => match e.item with
                  | .func i => some (e.name, i)
                  | _ => none
                wiring := w
                tracked := trackedMemory c.module
                fuelBudget := b.fuelBudget
                cpuLimit := b.config.callTimeout
                store := s }

end Sandbox
end ContainerHost.Guest
