import ContainerHost.Guest.Machine
/-!
# An interpreter, turn by turn

A small machine, one operation at a time. A configuration is a stack of frames over a heap, and
`Stack.turn` takes it one operation further, or up to a pause. Entering a function and coming to the
head of a loop are the checkpoints; a branch that goes back without fuel stops there and then, as
the loop that it comes to would.
-/

namespace ContainerHost.Interpreter

open Guest
open Wasm (Value ValType NumOp Op Label Func Memory)

/-- A function that is running. The operand on top comes first. -/
structure Frame where
  func : Func
  pc : Nat
  locals : Array Value
  operands : List Value
  deriving Inhabited

/-- The running function and those that wait for it, the innermost first. -/
structure Stack where
  frame : Frame
  callers : List Frame

/-- What an operation leads to. -/
inductive Turn where
  | more (k : Stack) (h : Heap)
  | paused (what : Pause) (k : Stack) (h : Heap)
  | ended (how : Ending) (h : Heap)

def Turn.trap (t : Trap) (h : Heap) : Turn := .ended (.trapped t) h

/-- How many functions may wait for another. -/
def maxDepth : Nat := 10000

/-- What an operation is charged. Structure, jumps out and dropping are free. -/
def cost : Op → Nat
  | .unreachable | .nop | .drop | .loop | .ret => 0
  | _ => 1

/-- The value of an operation on numbers. -/
def evalNum (op : NumOp) (args : List Value) : Except Trap Value :=
  match op, args with
  | .i32Add, [.i32 a, .i32 b] => .ok (.i32 (a + b))
  | .i32Sub, [.i32 a, .i32 b] => .ok (.i32 (a - b))
  | .i32And, [.i32 a, .i32 b] => .ok (.i32 (a &&& b))
  | .i32DivS, [.i32 a, .i32 b] =>
    if b = 0 then .error .divideByZero
    else
      let q := (signed32 a).tdiv (signed32 b)
      if q = (1 <<< 31 : Nat) then .error .integerOverflow else .ok (.i32 (bits32 q))
  | .i32TruncF64S, [.f64 a] =>
    let x := Float.ofBits a
    if x.isNaN then .error .badConversion
    else if x ≥ 2147483648.0 || x ≤ -2147483649.0 then .error .integerOverflow
    else .ok (.i32 (bits32 (if x < 0 then -((-x).toUInt64.toNat : Int) else x.toUInt64.toNat)))
  | .i64Sub, [.i64 a, .i64 b] => .ok (.i64 (a - b))
  | .i64GeS, [.i64 a, .i64 b] => .ok (.i32 (if signed64 a ≥ signed64 b then 1 else 0))
  | .f64Add, [.f64 a, .f64 b] => .ok (.f64 (Float.ofBits a + Float.ofBits b).toBits)
  | .f64Mul, [.f64 a, .f64 b] => .ok (.f64 (Float.ofBits a * Float.ofBits b).toBits)
  | .f64Lt, [.f64 a, .f64 b] => .ok (.i32 (if Float.ofBits a < Float.ofBits b then 1 else 0))
  | .f64Gt, [.f64 a, .f64 b] => .ok (.i32 (if Float.ofBits a > Float.ofBits b then 1 else 0))
  | .f64Ge, [.f64 a, .f64 b] => .ok (.i32 (if Float.ofBits a ≥ Float.ofBits b then 1 else 0))
  | _, _ => .error .unreachable

/-! ## Frames and stacks -/

/-- The frame of a function that is called with some arguments, the first one first. -/
def Frame.enter (f : Func) (args : List Value) : Frame :=
  ⟨f, 0, (args ++ f.locals.map ValType.zero).toArray, []⟩

def Frame.jump (f : Frame) (l : Label) (operands : List Value) : Frame :=
  { f with
    pc := l.target
    operands := operands.take l.arity ++ operands.drop (operands.length - l.height) }

/-- Goes on with the next operation. -/
def Frame.next (f : Frame) (operands : List Value) : Frame :=
  { f with pc := f.pc + 1, operands := operands }

namespace Stack

def next (k : Stack) (operands : List Value) : Stack := ⟨k.frame.next operands, k.callers⟩

/-- Takes what a pause has brought. -/
def receive (k : Stack) (results : List Value) : Stack :=
  { k with frame := { k.frame with operands := results.reverse ++ k.frame.operands } }

def proceed (k : Stack) (operands : List Value) (h : Heap) : Turn := .more (k.next operands) h

/-- Comes back from the running function with the results on top of its operands. -/
def leave (k : Stack) (h : Heap) : Turn :=
  let results := k.frame.operands.take k.frame.func.type.results.length
  match k.callers with
  | [] => .ended (.returned results.reverse) h
  | f :: callers => .more ⟨{ f with operands := results ++ f.operands }, callers⟩ h

def checkpoint (k : Stack) (h : Heap) : Turn :=
  if h.fuel = 0 then .trap .outOfFuel h else .paused .checkpoint k h

def branch (k : Stack) (label : Nat) (operands : List Value) (h : Heap) : Turn :=
  match k.frame.func.labels[label]? with
  | none => .trap .unreachable h
  | some l =>
    if l.target ≤ k.frame.pc && h.fuel = 0 then .trap .outOfFuel h
    else .more ⟨k.frame.jump l operands, k.callers⟩ h

/-- Calls a function from the running one. -/
def invoke (k : Stack) (h : Heap) (callee : Callee) : Turn :=
  let n := callee.type.params.length
  let args := (k.frame.operands.take n).reverse
  let operands := k.frame.operands.drop n
  match callee with
  | .host f => .paused (.call f args) (k.next operands) h
  | .own f =>
    if k.callers.length ≥ maxDepth then .trap .stackExhausted h
    else checkpoint ⟨Frame.enter f args, k.frame.next operands :: k.callers⟩ (h.charge 1)

def loadAt (k : Stack) (l : Links) (h : Heap) (address len : Nat) (operands : List Value) : Turn :=
  match l.memories[0]?.bind h.memory? with
  | none => .trap .unreachable h
  | some m =>
    match m.read? address len with
    | none => .trap .outOfBounds h
    | some bs => k.proceed (.i32 (UInt32.ofNat (Memory.littleEndian bs)) :: operands) h

/-- Writes to the first memory. -/
def storeAt (k : Stack) (l : Links) (h : Heap) (address : Nat) (bytes : List UInt8)
    (operands : List Value) : Turn :=
  match l.memories[0]? with
  | none => .trap .unreachable h
  | some a =>
    if (h.memory? a).any (·.fits address bytes.length) then
      k.proceed operands (h.modifyMemory a fun m => m.splice address bytes)
    else .trap .outOfBounds h

/-- One operation of the running function, which is charged already. -/
def perform (k : Stack) (l : Links) (h : Heap) (op : Op) : Turn :=
  match op, k.frame.operands with
  | .unreachable, _ => .trap .unreachable h
  | .nop, os => k.proceed os h
  | .drop, _ :: os => k.proceed os h
  | .loop, os => checkpoint (k.next os) h
  | .br label, os => k.branch label os h
  | .brIf label, .i32 v :: os => if v = 0 then k.proceed os h else k.branch label os h
  | .ret, _ => k.leave h
  | .call i, _ =>
    match l.funcs[i]? with
    | some callee => k.invoke h callee
    | none => .trap .unreachable h
  | .localGet i, os => k.proceed (k.frame.locals.getD i (.i32 0) :: os) h
  | .localSet i, v :: os =>
    .more ⟨{ k.frame.next os with locals := k.frame.locals.setIfInBounds i v }, k.callers⟩ h
  | .localTee i, v :: os =>
    .more ⟨{ k.frame.next (v :: os) with locals := k.frame.locals.setIfInBounds i v }, k.callers⟩ h
  | .globalGet i, os => k.proceed (h.globals.getD i (.i32 0) :: os) h
  | .globalSet i, v :: os => k.proceed os { h with globals := h.globals.setIfInBounds i v }
  | .const v, os => k.proceed (v :: os) h
  | .num op, os =>
    let n := op.type.params.length
    match evalNum op (os.take n).reverse with
    | .ok v => k.proceed (v :: os.drop n) h
    | .error t => .trap t h
  | .load width offset, .i32 a :: os => k.loadAt l h (a.toNat + offset) width.bytes os
  | .store width offset, .i32 v :: .i32 a :: os =>
    k.storeAt l h (a.toNat + offset) (Memory.toLittleEndian width.bytes v.toNat) os
  | .memorySize, os =>
    match l.memories[0]?.bind h.pages? with
    | some n => k.proceed (.i32 (UInt32.ofNat n) :: os) h
    | none => .trap .unreachable h
  | .memoryGrow, .i32 delta :: os =>
    match l.memories[0]? with
    | some a => .paused (.grow a delta.toNat) (k.next os) h
    | none => .trap .unreachable h
  | _, _ => .trap .unreachable h

/-- The next operation of the running function. -/
def turn (k : Stack) (l : Links) (h : Heap) : Turn :=
  match k.frame.func.ops[k.frame.pc]? with
  | some op => k.perform l (h.charge (cost op)) op
  | none => k.leave h

end Stack
end ContainerHost.Interpreter
