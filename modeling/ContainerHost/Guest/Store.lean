import ContainerHost.Guest.Fault
import ContainerHost.Guest.Heap
import ContainerHost.Guest.System
import ContainerHost.Text.Utf16
import ContainerHost.Text.Utf8
import ContainerHost.Wasm.Memory
import ContainerHost.Wasm.Type
/-!
# What a guest owns

The store of a guest is what its code works on and what its host keeps for it. Host functions read
and write the memory of their guest. Pointers and lengths come from the guest as signed numbers; a
range has to have neither negative and to lie inside the memory.

Correspondence: `HostState` ↔ `HostState` and `Place`; `guest_memory` ↔ `memoryOf`; `read_bytes`,
`write_bytes`, `read_utf8`, `read_prefixed_utf16`, `copy_out` ↔ `readBytes`, `writeBytes`,
`readText`, `readPrefixedText?`, `copyOut`.
-/

namespace ContainerHost.Guest

open Wasm (Memory Value)

/-- The number that thirty-two bits spell as a signed one. -/
def signed32 (n : UInt32) : Int :=
  if n.toNat < 1 <<< 31 then n.toNat else (n.toNat : Int) - (1 <<< 32 : Nat)

/-- The number that sixty-four bits spell as a signed one. -/
def signed64 (n : UInt64) : Int :=
  if n.toNat < 1 <<< 63 then n.toNat else (n.toNat : Int) - (1 <<< 64 : Nat)

/-- The thirty-two bits of a number. -/
def bits32 (i : Int) : UInt32 := UInt32.ofNat (i % (1 <<< 32 : Nat)).toNat

/-- The sixty-four bits of a number. -/
def bits64 (i : Int) : UInt64 := UInt64.ofNat (i % (1 <<< 64 : Nat)).toNat

/-- What is fixed about a guest: whose it is, its environment, the limits it runs under, which of
its memories host functions use, and the system interface that it is linked to. -/
structure Place where
  containerId : String
  environment : Table String
  cpuLimit : Duration
  networkAccess : Bool
  preopened : Bool
  hostMemory : Option Nat
  exportsMemory : Bool
  system : System
  deriving Inhabited

/-- The place of a function that is called from outside. No guest calls it, so that there is none
whose exports could be looked at, and the memory is the host's. -/
def Place.outside (p : Place) : Place := { p with hostMemory := some 0, exportsMemory := false }

/-- What a host keeps for a guest: the deadline by the clock of the engine, a storage, the time at
which the guest was made, how much time it has seen go by since, where its chance values come from,
and what it has asked the system interface. -/
structure HostState where
  deadline : Nat
  storage : Table (List UInt8)
  made : Nat
  elapsed : Nat
  entropy : UInt64
  asked : List SystemCall
  deriving Inhabited

/-- What a guest owns. The first memory is the one that the host provides. -/
structure Store extends Heap, HostState
  deriving Inhabited

namespace Store

/-- The store after something was charged. -/
def charge (s : Store) (cost : Nat) : Store := { s with toHeap := s.toHeap.charge cost }

/-- Changes a memory where it stands. -/
def modifyMemory (s : Store) (address : Nat) (f : Memory → Memory) : Store :=
  { s with toHeap := s.toHeap.modifyMemory address f }

def draw (s : Store) : UInt64 × Store :=
  let e := s.entropy * 6364136223846793005 + 1442695040888963407
  (e ^^^ (e >>> 29), { s with entropy := e })

/-- Looks at the clock, which goes on by a microsecond with every look; in nanoseconds since the
guest was made. -/
def look (s : Store) : Nat × Store :=
  let c := s.elapsed + 1000
  (c, { s with elapsed := c })

def ask (s : Store) (c : SystemCall) : Store := { s with asked := s.asked ++ [c] }

end Store

/-! ## Memory of a host function -/

/-- The address of the memory that host functions use, which must exist. -/
def memoryOf (p : Place) (s : Store) : Except Refusal (Nat × Memory) :=
  match p.hostMemory with
  | none => .error .noMemory
  | some a =>
    match s.memory? a with
    | some m => .ok (a, m)
    | none => .error .noMemory

def readBytes (p : Place) (s : Store) (ptr len : Int) : Except Refusal (List UInt8) := do
  let (_, m) ← memoryOf p s
  if len < 0 then .error .negativeLength
  else if ptr < 0 then .error .negativePointer
  else match m.read? ptr.toNat len.toNat with
    | some bs => .ok bs
    | none => .error .outOfBounds

def writeBytes (p : Place) (s : Store) (ptr : Int) (bytes : List UInt8) : Except Refusal Store := do
  let (a, m) ← memoryOf p s
  if ptr < 0 then .error .negativePointer
  else if m.fits ptr.toNat bytes.length then
    .ok (s.modifyMemory a fun m => m.splice ptr.toNat bytes)
  else .error .outOfBounds

/-- Writes `len` times the same byte at `ptr`. -/
def fillBytes (p : Place) (s : Store) (ptr : Int) (len : Nat) (v : UInt8) : Except Refusal Store := do
  let (a, m) ← memoryOf p s
  if ptr < 0 then .error .negativePointer
  else if m.fits ptr.toNat len then
    .ok (s.modifyMemory a fun m => m.paint ptr.toNat v len)
  else .error .outOfBounds

/-- The longest text in bytes that host functions read. -/
def maxTextBytes : Nat := 4096

def readText (p : Place) (s : Store) (ptr len : Int) : Except Refusal String := do
  let bytes ← readBytes p s ptr (min len maxTextBytes)
  .ok (Text.Utf8.decodeString bytes)

/-- Reads a text in units of sixteen bits whose length in bytes stands in the four bytes in front of
it; there is none where the ranges do not lie inside the memory. -/
def readPrefixedText? (p : Place) (s : Store) (ptr : Int) : Option String :=
  if ptr < 4 then none
  else match readBytes p s (ptr - 4) 4 with
    | .error _ => none
    | .ok header =>
      let len := min (Memory.littleEndian header) maxTextBytes / 2 * 2
      match readBytes p s ptr len with
      | .error _ => none
      | .ok bytes => some (String.ofList (Text.Utf16.decode (Text.Utf16.ofBytes bytes)))

/-- Copies as much of a value as fits into `cap` bytes at `out`; the answer is the length of the
whole value. -/
def copyOut (p : Place) (s : Store) (value : List UInt8) (out cap : Int) :
    Except Refusal (Store × Int) := do
  let s ← writeBytes p s out (value.take cap.toNat)
  .ok (s, min value.length (1 <<< 31 - 1))

end ContainerHost.Guest
