import ContainerHost.Error
import ContainerHost.Json.Record
import ContainerHost.Text.Blank
/-!
# Backends

The environments a guest can run in, what each of them offers, and whether it meters its guests
with fuel. `Backend.ofName?` reads back every name (`ofName?_name`).

Correspondence: `RuntimeBackend` ↔ `Backend` with `as_str`, `from_str`, `is_metered` ↔ `name`,
`parse`, `isMetered`; `RuntimeCapabilities::satisfies` ↔ `Capabilities.satisfies`; `backend_command`
↔ `command`.
-/

namespace ContainerHost

/-- An environment that guests run in. -/
inductive Backend where
  | browser
  | host
  | wasmtime
  | wasmer
  | wasm3
  deriving DecidableEq, Repr, Inhabited

/-- What an environment offers, or what a guest needs. -/
structure Capabilities where
  memoryIsolation : Bool
  fileSystemAccess : Bool
  networkAccess : Bool
  threadSupport : Bool
  simdSupport : Bool
  debugSupport : Bool
  deriving DecidableEq, Repr, Inhabited

def Capabilities.satisfies (offer need : Capabilities) : Bool :=
  (offer.memoryIsolation || !need.memoryIsolation) &&
  (offer.fileSystemAccess || !need.fileSystemAccess) &&
  (offer.networkAccess || !need.networkAccess) &&
  (offer.threadSupport || !need.threadSupport) &&
  (offer.simdSupport || !need.simdSupport) &&
  (offer.debugSupport || !need.debugSupport)

theorem Capabilities.satisfies_refl (c : Capabilities) : c.satisfies c = true := by
  simp [satisfies]

namespace Backend

/-- All backends, the preferred ones first. -/
def priority : List Backend := [browser, host, wasmtime, wasmer, wasm3]

def name : Backend → String
  | browser => "browser"
  | host => "host"
  | wasmtime => "wasmtime"
  | wasmer => "wasmer"
  | wasm3 => "wasm3"

/-- The name of a backend as an identifier. -/
def tag : Backend → String
  | browser => "Browser"
  | host => "Host"
  | wasmtime => "Wasmtime"
  | wasmer => "Wasmer"
  | wasm3 => "Wasm3"

def ofName? (s : String) : Option Backend := priority.find? (·.name == s)

/-- A letter of the ASCII alphabet in lower case. -/
def lowerChar (c : Char) : Char := if 'A' ≤ c && c ≤ 'Z' then Char.ofNat (c.toNat + 32) else c

/-- Reads a name in any case of letters, with blanks around it. -/
def parse (s : String) : Except Error Backend :=
  let wanted := (Text.trimBlank s).toList.map lowerChar
  match priority.find? fun b => b.name.toList == wanted with
  | some b => .ok b
  | none => .error (.unsupportedBackend s)

/-- The backend charges its guests for what they do. -/
def isMetered : Backend → Bool
  | wasmtime => true
  | wasmer => true
  | wasm3 => true
  | _ => false

def capabilities : Backend → Capabilities
  | browser => ⟨true, false, true, true, true, true⟩
  | host => ⟨true, true, true, true, true, true⟩
  | wasmtime => ⟨true, true, false, true, true, true⟩
  | wasmer => ⟨true, true, false, true, true, false⟩
  | wasm3 => ⟨true, false, false, false, false, false⟩

def command : Backend → List String
  | wasmer => ["wasmer", "run", "/app/module.wasm"]
  | wasm3 => ["wasm3", "/app/module.wasm"]
  | _ => ["wasmtime", "run", "/app/module.wasm"]

def ofDocument? (d : Json.Document) : Option Backend := d.alternative?.bind ofName?

theorem ofName?_name (b : Backend) : ofName? b.name = some b := by cases b <;> decide +kernel

end Backend

namespace Capabilities

/-- The names of the capabilities in JSON. -/
def fieldNames : List String :=
  ["memoryIsolation", "fileSystemAccess", "networkAccess", "threadSupport", "simdSupport",
    "debugSupport"]

def toJson (c : Capabilities) : Json.Value := .obj [
  ("memoryIsolation", .bool c.memoryIsolation),
  ("fileSystemAccess", .bool c.fileSystemAccess),
  ("networkAccess", .bool c.networkAccess),
  ("threadSupport", .bool c.threadSupport),
  ("simdSupport", .bool c.simdSupport),
  ("debugSupport", .bool c.debugSupport)]

def ofDocument? (d : Json.Document) : Option Capabilities := do
  match ← d.fields? fieldNames with
  | [a, b, c, d, e, f] =>
    some ⟨← Json.Document.required Json.Document.bool? a,
      ← Json.Document.required Json.Document.bool? b,
      ← Json.Document.required Json.Document.bool? c,
      ← Json.Document.required Json.Document.bool? d,
      ← Json.Document.required Json.Document.bool? e,
      ← Json.Document.required Json.Document.bool? f⟩
  | _ => none

end Capabilities
end ContainerHost
