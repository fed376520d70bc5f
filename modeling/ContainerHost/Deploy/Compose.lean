import ContainerHost.Deploy.Request
import ContainerHost.Yaml.Tree
/-!
# Compose documents

Containers as the services of a compose document: one service for each container, in the order of
their ids, with the memory written in the largest unit that divides it. `Memory.read?` reads such a
memory back, and `Service.ofTree?` a service.

Correspondence: `memory_limit` ↔ `Memory.write`; `ComposeService` ↔ `Service`; `generate_compose` ↔
`Compose.text`.
-/

namespace ContainerHost.Compose

/-! ## Memory -/

namespace Memory

/-- A number of bytes in the largest unit that divides it: megabytes, kilobytes from a page on, or
bytes. -/
def write (bytes : Nat) : String :=
  if bytes ≥ 1048576 ∧ bytes % 1048576 = 0 then toString (bytes / 1048576) ++ "m"
  else if bytes ≥ Limits.pageSize ∧ bytes % 1024 = 0 then toString (bytes / 1024) ++ "k"
  else toString bytes ++ "b"

/-- The size of a unit in bytes. -/
def unit? : Char → Option Nat
  | 'b' => some 1
  | 'k' => some 1024
  | 'm' => some 1048576
  | _ => none

def read? (s : String) : Option Nat :=
  match s.toList.reverse with
  | [] => none
  | u :: digits => do
    let size ← unit? u
    let n ← Yaml.digitsOfBase? 10 digits.reverse
    some (n * size)

end Memory

/-! ## Services -/

/-- A service of a document. -/
structure Service where
  image : String
  command : List String
  environment : Table String
  memory : String
  labels : Table String
  deriving DecidableEq, Repr, Inhabited

namespace Service

def ofRequest (r : DeploymentRequest) : Service where
  image := r.image
  command := r.backend.command
  environment := r.environment
  memory := Memory.write r.memoryLimit
  labels := .ofList [
    ("wasmhive.id", r.containerId),
    ("wasmhive.name", r.name),
    ("wasmhive.backend", r.backend.name),
    ("wasmhive.module.digest", r.moduleDigest)]

def tableTree (t : Table String) : Yaml.Tree := .mapping (t.entries.map fun e => (e.1, .text e.2))

/-- The service as a part of a document; an empty environment is left out. -/
def toTree (s : Service) : Yaml.Tree := .mapping <|
  [("image", .text s.image), ("command", .sequence (s.command.map .text))] ++
  (if s.environment.isEmpty then [] else [("environment", tableTree s.environment)]) ++
  [("deploy", .mapping [("resources", .mapping [("limits", .mapping [("memory", .text s.memory)])])]),
   ("labels", tableTree s.labels)]

end Service

/-- The services of some requests by their ids; the last request of an id wins. -/
def services (rs : List DeploymentRequest) : Table Service :=
  .ofList (rs.map fun r => (r.containerId, .ofRequest r))

def document (rs : List DeploymentRequest) : List (String × Yaml.Tree) :=
  [("version", .text "3.8"),
   ("services", .mapping ((services rs).entries.map fun e => (e.1, e.2.toTree)))]

def text (rs : List DeploymentRequest) : String := Yaml.Tree.print (document rs)

/-! ## Reading services back -/

namespace Service

def child? (key : String) : Yaml.Tree → Option Yaml.Tree
  | .mapping entries => entries.lookup key
  | _ => none

def text? : Yaml.Tree → Option String
  | .text s => some s
  | _ => none

def table? : Yaml.Tree → Option (Table String)
  | .mapping entries =>
    (entries.mapM fun (e : String × Yaml.Tree) => (text? e.2).map (e.1, ·)).map Table.ofList
  | _ => none

def texts? : Yaml.Tree → Option (List String)
  | .sequence items => items.mapM text?
  | _ => none

/-- Reads a service from a part of a document. -/
def ofTree? (t : Yaml.Tree) : Option Service := do
  some {
    image := ← (child? "image" t).bind text?
    command := ← (child? "command" t).bind texts?
    environment := ← match child? "environment" t with
      | none => some .empty
      | some e => table? e
    memory := ← ((((child? "deploy" t).bind (child? "resources")).bind (child? "limits")).bind
      (child? "memory")).bind text?
    labels := ← (child? "labels" t).bind table? }

end Service
end ContainerHost.Compose
