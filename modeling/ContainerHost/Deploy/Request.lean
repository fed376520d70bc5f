import ContainerHost.Backend
import ContainerHost.Limits
/-!
# Requests to deploy

Everything that is needed to run a container as a container image somewhere else.

Correspondence: `DeploymentRequest`, `image_for` ↔ `DeploymentRequest`, `imageFor`.
-/

namespace ContainerHost

/-- What is to be deployed. The memory is in bytes. -/
structure DeploymentRequest where
  containerId : String
  name : String
  version : String
  image : String
  backend : Backend
  environment : Table String
  memoryLimit : Nat
  moduleDigest : String
  deriving DecidableEq, Repr, Inhabited

namespace DeploymentRequest

def imageFor (name version : String) : String := Limits.imagePrefix ++ "/" ++ name ++ ":" ++ version

def fieldNames : List String :=
  ["containerId", "name", "version", "image", "backend", "environment", "memoryLimit",
    "moduleDigest"]

def toJson (r : DeploymentRequest) : Json.Value := .obj [
  ("containerId", .str r.containerId),
  ("name", .str r.name),
  ("version", .str r.version),
  ("image", .str r.image),
  ("backend", .str r.backend.name),
  ("environment", .obj (r.environment.entries.map fun e => (e.1, .str e.2))),
  ("memoryLimit", .nat r.memoryLimit),
  ("moduleDigest", .str r.moduleDigest)]

open Json.Document in
def ofDocument? (d : Json.Document) : Option DeploymentRequest := do
  match ← d.fields? fieldNames with
  | [id, name, version, image, backend, environment, memory, digest] =>
    some {
      containerId := ← required str? id
      name := ← required str? name
      version := ← required str? version
      image := ← required str? image
      backend := ← required Backend.ofDocument? backend
      environment := ← required (table? str?) environment
      memoryLimit := ← required nat? memory
      moduleDigest := ← required str? digest }
  | _ => none

end DeploymentRequest
end ContainerHost
