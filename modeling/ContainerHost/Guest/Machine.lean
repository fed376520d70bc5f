import ContainerHost.Blob
import ContainerHost.Guest.HostFunc
import ContainerHost.Wasm.Module
/-!
# Machines

Guests are compiled and run by a machine, which is not written here: `Machine` is any machine, with
what is relied on of it. A machine that runs a function gives its execution: it goes on until it
ends or until it needs its host, and is resumed with what the host answers. It pauses to ask for
more memory, to call a host function, and at its checkpoints. An execution has an end, whatever it
is answered: it uses up fuel as it goes on, and stops without.

What is relied on:
- `Execution.Lawful`: between two pauses code changes the size of no memory and gains no fuel, a
  checkpoint is not passed without fuel, code stops for want of fuel only when there is none, it is
  not interrupted by itself, and it calls no host function that it is not linked to;
- `Machine.grow_spec`: memory grows by as many pages as are asked for and within the limit, or -1 is
  answered and nothing changes;
- `Machine.allocate_spec`: memories over the limit are not made.

Correspondence: `Config::consume_fuel`, `Config::epoch_interruption` ↔ the checkpoints and the fuel
of an `Execution`; `StoreLimitsBuilder::memory_size` ↔ `Links.memoryLimit`; `Module::new` ↔
`Machine.compile`; `Linker::instantiate` ↔ `Machine.allocate` and `Machine.enter`; `Func::call` ↔
`Machine.enter`.
-/

namespace ContainerHost.Guest

open Wasm (Value FuncType Func Memory Module)
open Limits (pageSize)

/-- What a function index stands for in a guest. -/
inductive Callee where
  | host (f : HostFunc)
  | own (f : Func)
  deriving Inhabited

def Callee.type : Callee → FuncType
  | host f => f.type
  | own f => f.type

/-- What code is linked to: the functions and memories that it has by index, and the limit in bytes
that its memories are kept to. -/
structure Links where
  funcs : Array Callee
  memories : Array Nat
  memoryLimit : Nat
  deriving Inhabited

/-! ## Executions -/

inductive Pause where
  | checkpoint
  | grow (address delta : Nat)
  | call (f : HostFunc) (args : List Value)

inductive Ending where
  | returned (results : List Value)
  | trapped (t : Trap)

/-- What a function does, as far as its host has to do with it. A pause shows what the code has made
of the heap by then, and goes on with the answer and the heap that comes with it. -/
inductive Execution where
  | ended (how : Ending) (heap : Heap)
  | paused (what : Pause) (heap : Heap) (next : List Value → Heap → Execution)

instance : Inhabited Execution := ⟨.ended (.returned []) default⟩

/-- What the code has made of the heap by its end or its next pause. -/
def Execution.heap : Execution → Heap
  | ended _ h => h
  | paused _ h _ => h

/-- What is relied on at the end of an execution. -/
structure Ending.Lawful (s : Heap) (how : Ending) (t : Heap) : Prop where
  works : Heap.Works s t
  dry : how = .trapped .outOfFuel → t.fuel = 0
  undisturbed : how ≠ .trapped .interrupted

/-- What is relied on at a pause. -/
structure Pause.Lawful (l : Links) (s : Heap) (what : Pause) (t : Heap) : Prop where
  works : Heap.Works s t
  fed : what = .checkpoint → 0 < t.fuel
  linked : ∀ f args, what = .call f args → .host f ∈ l.funcs

/-- An execution that begins, or goes on, with some heap. -/
inductive Execution.Lawful (l : Links) : Heap → Execution → Prop where
  | ended {s t : Heap} {how : Ending} (h : how.Lawful s t) : Lawful l s (.ended how t)
  | paused {s t : Heap} {what : Pause} {next : List Value → Heap → Execution}
    (h : what.Lawful l s t) (hnext : ∀ results u, Lawful l u (next results u)) :
    Lawful l s (.paused what t next)

/-- What is done before an execution goes on. -/
theorem Execution.Lawful.after {l : Links} {s t : Heap} {e : Execution} (h : Heap.Works s t)
    (he : Lawful l t e) : Lawful l s e := by
  cases he with
  | ended ht => exact .ended ⟨h.trans ht.works, ht.dry, ht.undisturbed⟩
  | paused ht hnext => exact .paused ⟨h.trans ht.works, ht.fed, ht.linked⟩ hnext

/-- Up to its next pause an execution works on its heap. -/
theorem Execution.Lawful.works {l : Links} {s : Heap} {e : Execution} (h : Lawful l s e) :
    Heap.Works s e.heap := by
  cases h with
  | ended h => exact h.works
  | paused h _ => exact h.works

/-! ## Machines -/

/-- The memories and global variables that a module begins with, with the host's memory in front:
that one has its size, and none of the others is over the limit. -/
structure Allocated (limit : Nat) (m : Module) (host : Memory) (memories : Array Memory) : Prop where
  size : memories.size = m.memories.length + 1
  host : memories[0]?.map Memory.pageCount = some host.pageCount
  within : ∀ a memory, memories[a + 1]? = some memory → memory.byteSize ≤ limit

/-- `allocate` makes the memories and global variables of a module and puts its data there, `pace`
is how many checkpoints a guest with some budget passes in a span, and `context` what stands in
front of the reason when a function did not return. -/
structure Machine where
  compile : Blob → Except String Module
  allocate : (limit : Nat) → Module → (host : Memory) → Except String (Array Memory × Array Value)
  enter : Links → Func → List Value → Heap → Execution
  grow : (limit address delta : Nat) → Heap → UInt32 × Heap
  system : System
  pace : Option Nat → Duration → Nat
  context : (function : String) → Stop → String
  allocate_spec : ∀ {limit m host r}, allocate limit m host = .ok r → Allocated limit m host r.1
  enter_spec : ∀ l f args h, (enter l f args h).Lawful l h
  grow_spec : ∀ limit address delta h,
    h.Grows limit address delta (grow limit address delta h).1 (grow limit address delta h).2 ∧
      (grow limit address delta h).2.fuel ≤ h.fuel

instance : Inhabited Machine where
  default := {
    compile := fun _ => .error "nothing is compiled"
    allocate := fun _ _ _ => .error "nothing is made"
    enter := fun _ _ _ h => .ended (.returned []) h
    grow := fun _ _ _ h => (0xffffffff, h)
    system := default
    pace := fun _ _ => 0
    context := fun _ _ => ""
    allocate_spec := nofun
    enter_spec := fun _ _ _ h => .ended ⟨.refl h, nofun, nofun⟩
    grow_spec := fun _ _ _ _ => ⟨.inl ⟨rfl, rfl⟩, Nat.le_refl _⟩ }

end ContainerHost.Guest
