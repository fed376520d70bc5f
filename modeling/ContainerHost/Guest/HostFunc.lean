import ContainerHost.Backend
import ContainerHost.Digest.Sha256
import ContainerHost.Guest.Store
/-!
# Host functions

The functions that a host offers to its guests: reporting, mathematics, the system interface, and
one name space for each backend. Each changes only the guest's own store, and a refusal leaves it
as it was.

Correspondence: `create_base_imports`, `add_backend_imports` ↔ `base`, `ofBackend`; the closures
that they link ↔ `call`.
-/

namespace ContainerHost.Guest

open Wasm (FuncType ValType Value)

/-- A function of one number. -/
inductive MathFunc where
  | abs | acos | asin | atan | ceil | cos | exp | floor | log | round | sin | sqrt | tan
  deriving DecidableEq, Repr

/-- A function of two numbers. -/
inductive MathFunc2 where
  | atan2 | max | min | pow
  deriving DecidableEq, Repr

/-- The value of a function of one number. A half is rounded away from zero. -/
def MathFunc.eval : MathFunc → Float → Float
  | abs, x => x.abs
  | acos, x => x.acos
  | asin, x => x.asin
  | atan, x => x.atan
  | ceil, x => x.ceil
  | cos, x => x.cos
  | exp, x => x.exp
  | floor, x => x.floor
  | log, x => x.log
  | round, x => x.round
  | sin, x => x.sin
  | sqrt, x => x.sqrt
  | tan, x => x.tan

/-- The value of a function of two numbers. The larger and the smaller of a number and NaN is the
number. -/
def MathFunc2.eval : MathFunc2 → Float → Float → Float
  | atan2, x, y => Float.atan2 x y
  | max, x, y => if x.isNaN then y else if y.isNaN then x else if x < y then y else x
  | min, x, y => if x.isNaN then y else if y.isNaN then x else if y < x then y else x
  | pow, x, y => Float.pow x y

/-- A function that a host offers. -/
inductive HostFunc where
  | abort
  | trace
  | seed
  | math (f : MathFunc)
  | math2 (f : MathFunc2)
  | random
  | system (name : String) (type : FuncType)
  | nowMs
  | hrtime
  | randomFill
  | sha256
  | envGet
  | bufferCopy
  | bufferFill
  | consoleLog
  | performanceNow
  | fetchAllowed
  | storageGet
  | storageSet
  | storageRemove
  | fuelRemaining
  | fuelConsume
  | budgetMs
  deriving DecidableEq, Repr

namespace HostFunc

/-- What a host function takes and gives. -/
def type : HostFunc → FuncType
  | abort => ⟨[.i32, .i32, .i32, .i32], []⟩
  | trace => ⟨[.i32, .i32, .f64, .f64, .f64, .f64, .f64], []⟩
  | seed => ⟨[], [.f64]⟩
  | math _ => ⟨[.f64], [.f64]⟩
  | math2 _ => ⟨[.f64, .f64], [.f64]⟩
  | random => ⟨[], [.f64]⟩
  | system _ type => type
  | nowMs => ⟨[], [.f64]⟩
  | hrtime => ⟨[], [.i64]⟩
  | randomFill => ⟨[.i32, .i32], []⟩
  | sha256 => ⟨[.i32, .i32, .i32], []⟩
  | envGet => ⟨[.i32, .i32, .i32, .i32], [.i32]⟩
  | bufferCopy => ⟨[.i32, .i32, .i32], []⟩
  | bufferFill => ⟨[.i32, .i32, .i32], []⟩
  | consoleLog => ⟨[.i32, .i32], []⟩
  | performanceNow => ⟨[], [.f64]⟩
  | fetchAllowed => ⟨[], [.i32]⟩
  | storageGet => ⟨[.i32, .i32, .i32, .i32], [.i32]⟩
  | storageSet => ⟨[.i32, .i32, .i32, .i32], []⟩
  | storageRemove => ⟨[.i32, .i32], [.i32]⟩
  | fuelRemaining => ⟨[], [.i64]⟩
  | fuelConsume => ⟨[.i64], [.i32]⟩
  | budgetMs => ⟨[], [.i64]⟩

/-! ## What the functions do -/

def bounded (len : Int) : Except Refusal Nat :=
  if 0 ≤ len && len ≤ maxHostBuffer then .ok len.toNat else .error (.bufferLength len)

/-- Gives up with a message and a position. -/
def runAbort (p : Place) (s : Store) (message file line column : Int) : Refusal :=
  .aborted ((readPrefixedText? p s message).getD "") ((readPrefixedText? p s file).getD "") line column

/-- Copies `len` bytes from `src` to `dst`, as they were before. -/
def runBufferCopy (p : Place) (s : Store) (dst src len : Int) : Except Refusal Store := do
  let n ← bounded len
  let bytes ← readBytes p s src n
  writeBytes p s dst bytes

/-- Writes the lowest byte of `value` to `len` places from `dst` on. -/
def runBufferFill (p : Place) (s : Store) (dst : Int) (value : UInt32) (len : Int) :
    Except Refusal Store := do
  let n ← bounded len
  fillBytes p s dst n value.toUInt8

def runSha256 (p : Place) (s : Store) (ptr len out : Int) : Except Refusal Store := do
  let n ← bounded len
  let bytes ← readBytes p s ptr n
  writeBytes p s out (Sha256.digest ⟨bytes.toArray⟩)

/-- Some chance bytes in front of others. -/
def drawBytes : Nat → List UInt8 → Store → List UInt8 × Store
  | 0, bytes, s => (bytes, s)
  | n + 1, bytes, s =>
    let (e, s) := s.draw
    drawBytes n (e.toUInt8 :: bytes) s

/-- Writes `len` chance bytes from `ptr` on. -/
def runRandomFill (p : Place) (s : Store) (ptr len : Int) : Except Refusal Store := do
  let n ← bounded len
  let (_, m) ← memoryOf p s
  if ptr < 0 then .error .negativePointer
  else if m.fits ptr.toNat n then
    let (bs, s) := drawBytes n [] s
    writeBytes p s ptr bs
  else .error .outOfBounds

/-- Copies the value of an environment variable to the guest; -1 if there is none. -/
def runEnvGet (p : Place) (s : Store) (kptr klen out cap : Int) : Except Refusal (Store × Int) := do
  let key ← readText p s kptr klen
  match p.environment.get? key with
  | some value => copyOut p s value.toUTF8.toList out cap
  | none => .ok (s, -1)

/-- Copies a stored value to the guest; -1 if there is none. -/
def runStorageGet (p : Place) (s : Store) (kptr klen out cap : Int) :
    Except Refusal (Store × Int) := do
  let key ← readText p s kptr klen
  match s.storage.get? key with
  | some value => copyOut p s value out cap
  | none => .ok (s, -1)

def runStorageSet (p : Place) (s : Store) (kptr klen vptr vlen : Int) : Except Refusal Store := do
  let key ← readText p s kptr klen
  let value ← readBytes p s vptr vlen
  .ok { s with storage := s.storage.insert key value }

/-- Forgets the value of a key; the answer is 1 if there was one. -/
def runStorageRemove (p : Place) (s : Store) (kptr klen : Int) : Except Refusal (Store × Int) := do
  let key ← readText p s kptr klen
  .ok ({ s with storage := s.storage.erase key }, if s.storage.contains key then 1 else 0)

/-- Charges an amount of fuel if there is as much; the answer is 1 if it was charged. -/
def runFuelConsume (s : Store) (amount : Int) : Store × Int :=
  if 0 ≤ amount && amount ≤ s.fuel then (s.charge amount.toNat, 1)
  else (s, 0)

/-! ## Answers -/

/-- The answer of a host function: the store and the results. -/
abbrev Answer := Except Stop (Store × List Value)

def gives (r : Except Refusal Store) : Answer :=
  match r with
  | .ok s => .ok (s, [])
  | .error e => .error (.refused e)

/-- A function that gives a number of thirty-two bits. -/
def gives32 (r : Except Refusal (Store × Int)) : Answer :=
  match r with
  | .ok (s, i) => .ok (s, [.i32 (bits32 i)])
  | .error e => .error (.refused e)

/-- A function that gives a floating-point number. -/
def givesF64 (s : Store) (f : Float) : Answer := .ok (s, [.f64 f.toBits])

/-- The milliseconds on the wall when a guest has seen so much time go by. -/
def wallMillis (s : Store) (elapsed : Nat) : Float :=
  ((s.made + elapsed) / 1000000).toFloat

/-- The memory that a system function sees. -/
def exportedMemory? (p : Place) (s : Store) : Option Wasm.Memory :=
  if p.exportsMemory then (memoryOf p s).toOption.map (·.2) else none

/-- Writes to the memory that a system function sees. -/
def writeExported (p : Place) (s : Store) (writes : List (Nat × List UInt8)) :
    Except Refusal Store :=
  if p.exportsMemory then
    writes.foldlM (fun s w => writeBytes p s (w.1 : Int) w.2) s
  else .ok s

def runSystem (p : Place) (s : Store) (name : String) (args : List Value) : Answer :=
  let memory := exportedMemory? p s
  let (time, s) := s.look
  let (chance, s) := s.draw
  let c : SystemCall := ⟨name, args, p.environment, p.preopened, memory, s.made + time, chance⟩
  match p.system s.asked c with
  | .done errno writes =>
    match writeExported p (s.ask c) writes with
    | .ok s => .ok (s, [.i32 errno])
    | .error e => .error (.refused e)
  | .exit status => .error (.exit status)
  | .failed reason => .error (.refused (.system reason))

/-! ## Arguments -/

def noArgs : List Value → Option Unit
  | [] => some ()
  | _ => none

/-- Two numbers of thirty-two bits. -/
def words2 : List Value → Option (UInt32 × UInt32)
  | [.i32 a, .i32 b] => some (a, b)
  | _ => none

/-- Three numbers of thirty-two bits. -/
def words3 : List Value → Option (UInt32 × UInt32 × UInt32)
  | [.i32 a, .i32 b, .i32 c] => some (a, b, c)
  | _ => none

/-- Four numbers of thirty-two bits. -/
def words4 : List Value → Option (UInt32 × UInt32 × UInt32 × UInt32)
  | [.i32 a, .i32 b, .i32 c, .i32 d] => some (a, b, c, d)
  | _ => none

def long : List Value → Option UInt64
  | [.i64 a] => some a
  | _ => none

def float : List Value → Option Float
  | [.f64 x] => some (.ofBits x)
  | _ => none

def floats : List Value → Option (Float × Float)
  | [.f64 x, .f64 y] => some (.ofBits x, .ofBits y)
  | _ => none

def taking {α : Type} (kind : List Value → Option α) (args : List Value) (f : α → Answer) : Answer :=
  match kind args with
  | some a => f a
  | none => .error (.refused .arguments)

/-! ## Calls -/

def call (f : HostFunc) (p : Place) (s : Store) (args : List Value) : Answer :=
  match f with
  | abort => taking words4 args fun (m, file, line, column) =>
    .error (.refused (runAbort p s (signed32 m) (signed32 file) (signed32 line) (signed32 column)))
  | trace => .ok (s, [])
  | seed => taking noArgs args fun () =>
    let (c, s) := s.look; givesF64 s (wallMillis s c)
  | math g => taking float args fun x => givesF64 s (g.eval x)
  | math2 g => taking floats args fun (x, y) => givesF64 s (g.eval x y)
  | random => taking noArgs args fun () =>
    let (e, s) := s.draw; givesF64 s ((e >>> 11).toFloat / 9007199254740992.0)
  | system name _ => runSystem p s name args
  | nowMs => taking noArgs args fun () =>
    let (c, s) := s.look; givesF64 s (wallMillis s c)
  | hrtime => taking noArgs args fun () => let (c, s) := s.look; .ok (s, [.i64 c.toUInt64])
  | randomFill => taking words2 args fun (ptr, len) =>
    gives (runRandomFill p s (signed32 ptr) (signed32 len))
  | sha256 => taking words3 args fun (ptr, len, out) =>
    gives (runSha256 p s (signed32 ptr) (signed32 len) (signed32 out))
  | envGet => taking words4 args fun (k, n, out, cap) =>
    gives32 (runEnvGet p s (signed32 k) (signed32 n) (signed32 out) (signed32 cap))
  | bufferCopy => taking words3 args fun (dst, src, len) =>
    gives (runBufferCopy p s (signed32 dst) (signed32 src) (signed32 len))
  | bufferFill => taking words3 args fun (dst, v, len) =>
    gives (runBufferFill p s (signed32 dst) v (signed32 len))
  | consoleLog => taking words2 args fun (ptr, len) =>
    gives ((readText p s (signed32 ptr) (signed32 len)).map fun _ => s)
  | performanceNow => taking noArgs args fun () =>
    let (c, s) := s.look; givesF64 s (c.toFloat / 1000000.0)
  | fetchAllowed => taking noArgs args fun () => .ok (s, [.i32 (if p.networkAccess then 1 else 0)])
  | storageGet => taking words4 args fun (k, n, out, cap) =>
    gives32 (runStorageGet p s (signed32 k) (signed32 n) (signed32 out) (signed32 cap))
  | storageSet => taking words4 args fun (k, n, v, m) =>
    gives (runStorageSet p s (signed32 k) (signed32 n) (signed32 v) (signed32 m))
  | storageRemove => taking words2 args fun (k, n) =>
    gives32 (runStorageRemove p s (signed32 k) (signed32 n))
  | fuelRemaining => taking noArgs args fun () =>
    .ok (s, [.i64 (bits64 (min s.fuel (1 <<< 63 - 1)))])
  | fuelConsume => taking long args fun n => gives32 (.ok (runFuelConsume s (signed64 n)))
  | budgetMs => taking noArgs args fun () =>
    .ok (s, [.i64 (bits64 (min p.cpuLimit.wholeMillis (1 <<< 63 - 1)))])

/-! ## What is offered -/

/-- The functions of the base name space. -/
def base : List (String × HostFunc) := [
  ("abort", abort), ("trace", trace), ("seed", seed),
  ("Math.abs", math .abs), ("Math.acos", math .acos), ("Math.asin", math .asin),
  ("Math.atan", math .atan), ("Math.ceil", math .ceil), ("Math.cos", math .cos),
  ("Math.exp", math .exp), ("Math.floor", math .floor), ("Math.log", math .log),
  ("Math.round", math .round), ("Math.sin", math .sin), ("Math.sqrt", math .sqrt),
  ("Math.tan", math .tan),
  ("Math.atan2", math2 .atan2), ("Math.max", math2 .max), ("Math.min", math2 .min),
  ("Math.pow", math2 .pow),
  ("Math.random", random)]

def systemSpace : String := "wasi_snapshot_preview1"

def systemTypes : List (String × FuncType) := [
  ("proc_exit", ⟨[.i32], []⟩),
  ("environ_sizes_get", ⟨[.i32, .i32], [.i32]⟩),
  ("environ_get", ⟨[.i32, .i32], [.i32]⟩),
  ("fd_prestat_get", ⟨[.i32, .i32], [.i32]⟩),
  ("args_get", ⟨[.i32, .i32], [.i32]⟩),
  ("args_sizes_get", ⟨[.i32, .i32], [.i32]⟩),
  ("clock_res_get", ⟨[.i32, .i32], [.i32]⟩),
  ("clock_time_get", ⟨[.i32, .i64, .i32], [.i32]⟩),
  ("fd_advise", ⟨[.i32, .i64, .i64, .i32], [.i32]⟩),
  ("fd_allocate", ⟨[.i32, .i64, .i64], [.i32]⟩),
  ("fd_close", ⟨[.i32], [.i32]⟩),
  ("fd_datasync", ⟨[.i32], [.i32]⟩),
  ("fd_fdstat_get", ⟨[.i32, .i32], [.i32]⟩),
  ("fd_fdstat_set_flags", ⟨[.i32, .i32], [.i32]⟩),
  ("fd_fdstat_set_rights", ⟨[.i32, .i64, .i64], [.i32]⟩),
  ("fd_filestat_get", ⟨[.i32, .i32], [.i32]⟩),
  ("fd_filestat_set_size", ⟨[.i32, .i64], [.i32]⟩),
  ("fd_filestat_set_times", ⟨[.i32, .i64, .i64, .i32], [.i32]⟩),
  ("fd_pread", ⟨[.i32, .i32, .i32, .i64, .i32], [.i32]⟩),
  ("fd_prestat_dir_name", ⟨[.i32, .i32, .i32], [.i32]⟩),
  ("fd_pwrite", ⟨[.i32, .i32, .i32, .i64, .i32], [.i32]⟩),
  ("fd_read", ⟨[.i32, .i32, .i32, .i32], [.i32]⟩),
  ("fd_readdir", ⟨[.i32, .i32, .i32, .i64, .i32], [.i32]⟩),
  ("fd_renumber", ⟨[.i32, .i32], [.i32]⟩),
  ("fd_seek", ⟨[.i32, .i64, .i32, .i32], [.i32]⟩),
  ("fd_sync", ⟨[.i32], [.i32]⟩),
  ("fd_tell", ⟨[.i32, .i32], [.i32]⟩),
  ("fd_write", ⟨[.i32, .i32, .i32, .i32], [.i32]⟩),
  ("path_create_directory", ⟨[.i32, .i32, .i32], [.i32]⟩),
  ("path_filestat_get", ⟨[.i32, .i32, .i32, .i32, .i32], [.i32]⟩),
  ("path_filestat_set_times", ⟨[.i32, .i32, .i32, .i32, .i64, .i64, .i32], [.i32]⟩),
  ("path_link", ⟨[.i32, .i32, .i32, .i32, .i32, .i32, .i32], [.i32]⟩),
  ("path_open", ⟨[.i32, .i32, .i32, .i32, .i32, .i64, .i64, .i32, .i32], [.i32]⟩),
  ("path_readlink", ⟨[.i32, .i32, .i32, .i32, .i32, .i32], [.i32]⟩),
  ("path_remove_directory", ⟨[.i32, .i32, .i32], [.i32]⟩),
  ("path_rename", ⟨[.i32, .i32, .i32, .i32, .i32, .i32], [.i32]⟩),
  ("path_symlink", ⟨[.i32, .i32, .i32, .i32, .i32], [.i32]⟩),
  ("path_unlink_file", ⟨[.i32, .i32, .i32], [.i32]⟩),
  ("poll_oneoff", ⟨[.i32, .i32, .i32, .i32], [.i32]⟩),
  ("proc_raise", ⟨[.i32], [.i32]⟩),
  ("random_get", ⟨[.i32, .i32], [.i32]⟩),
  ("sched_yield", ⟨[], [.i32]⟩),
  ("sock_accept", ⟨[.i32, .i32, .i32], [.i32]⟩),
  ("sock_recv", ⟨[.i32, .i32, .i32, .i32, .i32, .i32], [.i32]⟩),
  ("sock_send", ⟨[.i32, .i32, .i32, .i32, .i32], [.i32]⟩),
  ("sock_shutdown", ⟨[.i32, .i32], [.i32]⟩)]

/-- The functions of the system interface. -/
def preview1 : List (String × HostFunc) := systemTypes.map fun f => (f.1, system f.1 f.2)

def ofBackend (b : Backend) (fileSystemAccess : Bool) : List (String × HostFunc) :=
  match b with
  | .host => [
    ("now_ms", nowMs), ("hrtime", hrtime), ("random_fill", randomFill), ("sha256", sha256),
    ("env_get", envGet), ("buffer_copy", bufferCopy), ("buffer_fill", bufferFill)]
  | .browser =>
    [("console_log", consoleLog), ("performance_now", performanceNow),
     ("fetch_allowed", fetchAllowed)] ++
    if fileSystemAccess then
      [("storage_get", storageGet), ("storage_set", storageSet), ("storage_remove", storageRemove)]
    else []
  | .wasmtime | .wasmer | .wasm3 => [
    ("fuel_remaining", fuelRemaining), ("fuel_consume", fuelConsume), ("budget_ms", budgetMs)]

def offered? (b : Backend) (fileSystemAccess : Bool) (space name : String) : Option HostFunc :=
  let functions :=
    if space = b.name then ofBackend b fileSystemAccess
    else if space = "env" then base
    else if space = systemSpace then preview1
    else []
  (functions.find? (·.1 == name)).map (·.2)

end HostFunc
end ContainerHost.Guest
