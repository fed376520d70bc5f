import ContainerHost.Wasm.Type
/-!
# Modules

What a guest is made of: functions with resolved code, memories, globals, data, and the names under
which it imports and exports them. Code is a row of operations; a branch names a label, and a label
says where to go on and how many operands stay. Hosts look at what a module imports and exports, and
leave its code to the machine that runs it; `Op.other` are the operations that have no name here.
-/

namespace ContainerHost.Wasm

/-- An operation on numbers. -/
inductive NumOp where
  | i32Add
  | i32Sub
  | i32And
  | i32DivS
  | i32TruncF64S
  | i64Sub
  | i64GeS
  | f64Add
  | f64Mul
  | f64Lt
  | f64Gt
  | f64Ge
  deriving DecidableEq, Repr, Inhabited

namespace NumOp

def name : NumOp → String
  | i32Add => "i32.add"
  | i32Sub => "i32.sub"
  | i32And => "i32.and"
  | i32DivS => "i32.div_s"
  | i32TruncF64S => "i32.trunc_f64_s"
  | i64Sub => "i64.sub"
  | i64GeS => "i64.ge_s"
  | f64Add => "f64.add"
  | f64Mul => "f64.mul"
  | f64Lt => "f64.lt"
  | f64Gt => "f64.gt"
  | f64Ge => "f64.ge"

def all : List NumOp :=
  [i32Add, i32Sub, i32And, i32DivS, i32TruncF64S, i64Sub, i64GeS, f64Add, f64Mul, f64Lt, f64Gt,
    f64Ge]

def ofName? (s : String) : Option NumOp := all.find? (·.name == s)

/-- What an operation takes and gives. -/
def type : NumOp → FuncType
  | i32Add | i32Sub | i32And | i32DivS => ⟨[.i32, .i32], [.i32]⟩
  | i32TruncF64S => ⟨[.f64], [.i32]⟩
  | i64Sub => ⟨[.i64, .i64], [.i64]⟩
  | i64GeS => ⟨[.i64, .i64], [.i32]⟩
  | f64Add | f64Mul => ⟨[.f64, .f64], [.f64]⟩
  | f64Lt | f64Gt | f64Ge => ⟨[.f64, .f64], [.i32]⟩

end NumOp

/-- How many bytes an access to memory moves. -/
inductive Width where
  | byte
  | word
  deriving DecidableEq, Repr, Inhabited

def Width.bytes : Width → Nat
  | byte => 1
  | word => 4

/-- An operation of a function. -/
inductive Op where
  | unreachable
  | nop
  | drop
  | loop
  | br (label : Nat)
  | brIf (label : Nat)
  | ret
  | call (func : Nat)
  | localGet (i : Nat)
  | localSet (i : Nat)
  | localTee (i : Nat)
  | globalGet (i : Nat)
  | globalSet (i : Nat)
  | const (v : Value)
  | num (op : NumOp)
  | load (width : Width) (offset : Nat)
  | store (width : Width) (offset : Nat)
  | memorySize
  | memoryGrow
  | other (opcode : Nat) (immediates : List Nat)
  deriving DecidableEq, Repr, Inhabited

/-- Where a branch goes on, how many operands of the frame stay below, and how many from the top
are carried along. -/
structure Label where
  target : Nat
  height : Nat
  arity : Nat
  deriving DecidableEq, Repr, Inhabited

/-- A function of a module. -/
structure Func where
  type : FuncType
  locals : List ValType
  ops : Array Op
  labels : Array Label
  deriving DecidableEq, Repr, Inhabited

/-- A global variable. -/
structure Global where
  type : ValType
  isMutable : Bool
  init : Value
  deriving DecidableEq, Repr, Inhabited

/-- Something that a module wants from its host. -/
structure Import where
  space : String
  name : String
  type : ExternType
  deriving DecidableEq, Repr, Inhabited

/-- The spelling of an import in policies. -/
def Import.dotted (i : Import) : String := i.space ++ "." ++ i.name

/-- What a name stands for outside: a function or a memory by its index, or something else. -/
inductive ExportItem where
  | func (i : Nat)
  | memory (i : Nat)
  | other (kind : String)
  deriving DecidableEq, Repr, Inhabited

/-- A name that a module offers. -/
structure Export where
  name : String
  item : ExportItem
  deriving DecidableEq, Repr, Inhabited

/-- Bytes that are put into the first memory at the start. -/
structure Segment where
  offset : Nat
  bytes : List UInt8
  deriving DecidableEq, Repr, Inhabited

structure Module where
  imports : List Import
  funcs : List Func
  memories : List Limits
  globals : List Global
  exports : List Export
  data : List Segment
  start : Option Nat
  deriving DecidableEq, Repr, Inhabited

namespace Module

/-- The module without anything in it. -/
def empty : Module := ⟨[], [], [], [], [], [], none⟩

/-- The types of the imported functions. -/
def importedFuncs (m : Module) : List FuncType :=
  m.imports.filterMap fun i => match i.type with
    | .func t => some t
    | _ => none

def importedMemories (m : Module) : List Limits :=
  m.imports.filterMap fun i => match i.type with
    | .memory l => some l
    | _ => none

/-- The types of all functions in the order of their indices. -/
def funcTypes (m : Module) : List FuncType := m.importedFuncs ++ m.funcs.map (·.type)

def functionNames (m : Module) : List String :=
  m.exports.filterMap fun e => match e.item with
    | .func _ => some e.name
    | _ => none

def exportedMemory? (m : Module) (name : String) : Option Nat :=
  m.exports.findSome? fun e => match e.item with
    | .memory i => if e.name == name then some i else none
    | _ => none

def importsName (m : Module) (space name : String) : Bool :=
  m.imports.any fun i => i.space == space && i.name == name

end Module
end ContainerHost.Wasm
