import ContainerHost.Guest.System
/-!
# A small system interface

The environment, the first directory that a guest is given, and leaving with a status; whatever else
is asked for is not supported. A call without an exported memory fails, and so does one with other
arguments than the function takes.
-/

namespace ContainerHost.Interpreter

open Guest
open Wasm (Memory Value)

/-- The bytes of the environment: each variable with its value, ended by a zero. -/
def environmentBytes (environment : Table String) : List (List UInt8) :=
  environment.entries.map fun e => (e.1 ++ "=" ++ e.2).toUTF8.toList ++ [0]

/-- Writes the variables from `buffer` on, and where each of them starts from `table` on. -/
def environmentWrites (table buffer : Nat) : List (List UInt8) → List (Nat × List UInt8)
  | [] => []
  | block :: rest =>
    (buffer, block) :: (table, Memory.toLittleEndian 4 buffer) ::
      environmentWrites (table + 4) (buffer + block.length) rest

/-- The number of the first directory that a guest is given. -/
def preopenedFd : UInt32 := 3

def badDescriptor : UInt32 := 8

def notSupported : UInt32 := 52

def system : System := fun _ c =>
  if c.memory.isNone then .failed "missing required memory export"
  else match c.name, c.args with
    | "proc_exit", [.i32 status] =>
      if status.toNat < 126 then .exit status.toNat
      else .failed "exit with invalid exit status outside of [0..126)"
    | "environ_sizes_get", [.i32 count, .i32 size] =>
      let blocks := environmentBytes c.environment
      .done 0 [(count.toNat, Memory.toLittleEndian 4 blocks.length),
        (size.toNat, Memory.toLittleEndian 4 blocks.flatten.length)]
    | "environ_get", [.i32 table, .i32 buffer] =>
      .done 0 (environmentWrites table.toNat buffer.toNat (environmentBytes c.environment))
    | "fd_prestat_get", [.i32 fd, .i32 ptr] =>
      if fd = preopenedFd && c.preopened then
        .done 0 [(ptr.toNat, [0]), (ptr.toNat + 4, Memory.toLittleEndian 4 1)]
      else .done badDescriptor []
    | "proc_exit", _ | "environ_sizes_get", _ | "environ_get", _ | "fd_prestat_get", _ =>
      .failed "wrong arguments"
    | _, _ => .done notSupported []

end ContainerHost.Interpreter
