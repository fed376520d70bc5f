import ContainerHost.Table
import ContainerHost.Wasm.Memory
import ContainerHost.Wasm.Type
/-!
# The system interface

The functions of the system interface are not written here: a host links a guest to them as they
are. `System` is any such interface. It sees the memory that the guest exports, the environment and
the directory that the guest was given, a time and a chance value, and remembers what the guest has
asked it before. It answers with what it writes to that memory, and by its type it gets to nothing
else of a guest.

Correspondence: `p1::add_to_linker_sync` on the context that `HostState::new` builds ↔ `System`.
-/

namespace ContainerHost.Guest

open Wasm (Memory Value)

/-- A call of the system interface, with all that the interface sees of its guest. -/
structure SystemCall where
  name : String
  args : List Value
  environment : Table String
  preopened : Bool
  memory : Option Memory
  time : Nat
  chance : UInt64
  deriving Inhabited

/-- `done` comes with the number of an error, zero for none, and the bytes that are written at some
addresses. -/
inductive SystemReply where
  | done (errno : UInt32) (writes : List (Nat × List UInt8))
  | exit (status : Nat)
  | failed (reason : String)
  deriving Inhabited

abbrev System := (past : List SystemCall) → SystemCall → SystemReply

end ContainerHost.Guest
