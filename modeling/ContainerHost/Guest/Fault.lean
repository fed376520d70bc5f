import ContainerHost.Limits
/-!
# Why a guest stops

A guest that does not return has been trapped by the machine, failed in a host function, or left on
its own account. `Stop.reason` has the wording.

Correspondence: the errors that a guest ends with, as they print themselves ↔ `Stop.reason`.
-/

namespace ContainerHost.Guest

/-- What the machine does not do. -/
inductive Trap where
  | unreachable
  | divideByZero
  | integerOverflow
  | badConversion
  | outOfBounds
  | stackExhausted
  | outOfFuel
  | interrupted
  deriving DecidableEq, Repr

def Trap.reason : Trap → String
  | unreachable => "wasm trap: wasm `unreachable` instruction executed"
  | divideByZero => "wasm trap: integer divide by zero"
  | integerOverflow => "wasm trap: integer overflow"
  | badConversion => "wasm trap: invalid conversion to integer"
  | outOfBounds => "wasm trap: out of bounds memory access"
  | stackExhausted => "wasm trap: call stack exhausted"
  | outOfFuel => "wasm trap: all fuel consumed by WebAssembly"
  | interrupted => "wasm trap: interrupt"

/-- What a host function refuses. -/
inductive Refusal where
  | noMemory
  | negativeLength
  | negativePointer
  | outOfBounds
  | bufferLength (len : Int)
  | aborted (message file : String) (line column : Int)
  | system (reason : String)
  | arguments
  deriving DecidableEq, Repr

/-- The largest buffer of a host function in bytes. -/
def maxHostBuffer : Nat := 16777216

def Refusal.reason : Refusal → String
  | noMemory => "no linear memory"
  | negativeLength => "negative length"
  | negativePointer => "negative pointer"
  | outOfBounds => "out of bounds memory access"
  | bufferLength len => s!"buffer length {len} outside 0..={maxHostBuffer}"
  | aborted message file line column => s!"abort: {message} at {file}:{line}:{column}"
  | system reason => reason
  | arguments => "wrong arguments"

/-- Why a guest did not return. -/
inductive Stop where
  | trap (t : Trap)
  | refused (r : Refusal)
  | exit (status : Nat)
  deriving DecidableEq, Repr

/-- The wording of the end of a guest. -/
def Stop.reason : Stop → String
  | trap t => t.reason
  | refused r => r.reason
  | exit status => s!"Exited with i32 exit status {status}"

end ContainerHost.Guest
