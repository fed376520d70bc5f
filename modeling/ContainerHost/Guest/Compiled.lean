import ContainerHost.Error
import ContainerHost.Guest.Machine
/-!
# Compiled modules

A module that an engine has compiled. Modules over the size limit are refused before they are
looked at. Engines are told apart by number.

Correspondence: `Module` of the engine, with the engine that it belongs to ↔ `Compiled`.
-/

namespace ContainerHost.Guest

structure Compiled where
  engine : Nat
  module : Wasm.Module
  deriving DecidableEq, Repr, Inhabited

namespace Compiled

def ofBlob (machine : Machine) (engine : Nat) (name : String) (b : Blob) : Except Error Compiled :=
  if b.size > Limits.maxModuleSize then .error (.moduleTooLarge b.size Limits.maxModuleSize)
  else match machine.compile b with
    | .ok m => .ok ⟨engine, m⟩
    | .error reason => .error (.compilationFailed name reason)

end Compiled
end ContainerHost.Guest
