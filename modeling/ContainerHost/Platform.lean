import ContainerHost.Backend
import ContainerHost.Config.Container
/-!
# Platforms

What a host machine is and which engines are installed on it, which backends can run there, and
why the others cannot. `mem_available_iff` ties the list of available backends to the reasons.

Correspondence: `Platform`, `Capability` ↔ `Platform`, `Feature`; `unavailable_reason`,
`available_backends`, `get_best_available_runtime`, `find_runtime_for` ↔ `unavailableReason?`,
`available`, `best`, `findFor`; `find_executable` ↔ `findExecutable?`;
`OptimizationHints::for_backend` ↔ `Hints.of`.
-/

namespace ContainerHost

/-- An operating system. -/
inductive Os where
  | linux
  | darwin
  | windows
  | unknown
  deriving DecidableEq, Repr, Inhabited

/-- A processor architecture. -/
inductive Arch where
  | amd64
  | arm64
  | arm
  | wasm32
  | unknown
  deriving DecidableEq, Repr, Inhabited

/-- Something a platform has that matters to a backend. -/
inductive Feature where
  | embeddedEngine
  | browserHost
  | wasmtimeCli
  | wasmerCli
  | wasm3Cli
  deriving DecidableEq, Repr, Inhabited

/-- A host machine. -/
structure Platform where
  os : Os
  arch : Arch
  features : List Feature
  deriving DecidableEq, Repr, Inhabited

/-- The name of an operating system. -/
def Os.name : Os → String
  | linux => "linux"
  | darwin => "darwin"
  | windows => "windows"
  | unknown => "unknown"

/-- The name of an operating system as an identifier. -/
def Os.tag : Os → String
  | linux => "Linux"
  | darwin => "Darwin"
  | windows => "Windows"
  | unknown => "Unknown"

/-- The operating system of a name. -/
def Os.ofName (s : String) : Os :=
  ([Os.linux, Os.darwin, Os.windows].find? (·.name == s)).getD .unknown

def Arch.name : Arch → String
  | amd64 => "amd64"
  | arm64 => "arm64"
  | arm => "arm"
  | wasm32 => "wasm32"
  | unknown => "unknown"

/-- The name of an architecture as an identifier. -/
def Arch.tag : Arch → String
  | amd64 => "Amd64"
  | arm64 => "Arm64"
  | arm => "Arm"
  | wasm32 => "Wasm32"
  | unknown => "Unknown"

def Arch.ofName (s : String) : Arch :=
  ([Arch.amd64, Arch.arm64, Arch.arm, Arch.wasm32].find? (·.name == s)).getD .unknown

namespace Feature

def all : List Feature := [embeddedEngine, browserHost, wasmtimeCli, wasmerCli, wasm3Cli]

def name : Feature → String
  | embeddedEngine => "embedded"
  | browserHost => "browser"
  | wasmtimeCli => "wasmtime"
  | wasmerCli => "wasmer"
  | wasm3Cli => "wasm3"

/-- The name as an identifier. -/
def tag : Feature → String
  | embeddedEngine => "EmbeddedEngine"
  | browserHost => "BrowserHost"
  | wasmtimeCli => "WasmtimeCli"
  | wasmerCli => "WasmerCli"
  | wasm3Cli => "Wasm3Cli"

def ofEngine? (engine : String) : Option Feature :=
  [wasmtimeCli, wasmerCli, wasm3Cli].find? (·.name == engine)

end Feature

namespace Platform

def has (p : Platform) (f : Feature) : Bool := p.features.contains f

def isBrowser (p : Platform) : Bool := p.has .browserHost

/-- The engine of a name is installed. -/
def hasEngine (p : Platform) (engine : String) : Bool :=
  match Feature.ofEngine? engine with
  | some f => p.has f
  | none => false

def name (p : Platform) : String := p.os.name ++ "/" ++ p.arch.name

def description (p : Platform) : String :=
  p.os.tag ++ "/" ++ p.arch.tag ++ " (capabilities: \x7b" ++
    ", ".intercalate ((Feature.all.filter p.has).map Feature.tag) ++ "\x7d)"

/-! ## Backends of a platform -/

/-- Why a backend cannot run here, if it cannot. -/
def unavailableReason? (p : Platform) (b : Backend) : Option String :=
  match b with
  | .browser => if p.isBrowser then none else some "not running inside a browser host"
  | .wasmer | .wasm3 =>
    if p.hasEngine b.name then none else some s!"'{b.name}' executable not found on PATH"
  | .host | .wasmtime => none

/-- The backends that can run here, the preferred ones first. -/
def available (p : Platform) : List Backend :=
  Backend.priority.filter fun b => (p.unavailableReason? b).isNone

def best (p : Platform) : Except Error Backend :=
  match p.available.head? with
  | some b => .ok b
  | none => .error .noRuntimeAvailable

def findFor (p : Platform) (need : Capabilities) : Except Error Backend :=
  match p.available.find? (·.capabilities.satisfies need) with
  | some b => .ok b
  | none => .error .noRuntimeAvailable

theorem mem_available_iff (p : Platform) (b : Backend) :
    b ∈ p.available ↔ p.unavailableReason? b = none := by
  simp [available, Backend.priority]
  cases b <;> simp

/-! ## Looking for installed engines -/

/-- What a name in a directory is: a directory, or a file with its permission bits. -/
inductive DirEntry where
  | directory
  | file (mode : Nat)
  deriving DecidableEq, Repr

def DirEntry.isExecutable : DirEntry → Bool
  | .directory => false
  | .file mode => mode &&& 0o111 != 0

/-- The first directory of a search path that holds an executable of a name. -/
def findExecutable? (path : List (String × Table DirEntry)) (name : String) : Option String :=
  (path.find? fun d =>
    match d.2.get? name with
    | some e => e.isExecutable
    | none => false).map (·.1)

def detect (os : Os) (arch : Arch) (path : List (String × Table DirEntry)) : Platform :=
  ⟨os, arch, .embeddedEngine ::
    [Feature.wasmtimeCli, .wasmerCli, .wasm3Cli].filter fun f => (findExecutable? path f.name).isSome⟩

end Platform

/-! ## Tuning -/

/-- What a backend should prepare for under a configuration. -/
structure Hints where
  backend : Backend
  enableSimd : Bool
  enableThreads : Bool
  debugInfo : Bool
  fuelBudget : Option Nat
  initialMemoryPages : Nat
  maxMemoryPages : Nat
  cacheCompiledModules : Bool
  deriving DecidableEq, Repr

def Hints.of (b : Backend) (c : ContainerConfig) : Hints where
  backend := b
  enableSimd := b.capabilities.simdSupport
  enableThreads := b.capabilities.threadSupport
  debugInfo := b.capabilities.debugSupport
  fuelBudget := if b.isMetered then some c.fuelBudget else none
  initialMemoryPages := min c.maxPages 1
  maxMemoryPages := c.maxPages
  cacheCompiledModules := b != .wasm3

def Hints.toJson (h : Hints) : Json.Value := .obj [
  ("backend", .str h.backend.name),
  ("enableSimd", .bool h.enableSimd),
  ("enableThreads", .bool h.enableThreads),
  ("debugInfo", .bool h.debugInfo),
  ("fuelBudget", h.fuelBudget.elim .null .nat),
  ("initialMemoryPages", .nat h.initialMemoryPages),
  ("maxMemoryPages", .nat h.maxMemoryPages),
  ("cacheCompiledModules", .bool h.cacheCompiledModules)]

end ContainerHost
