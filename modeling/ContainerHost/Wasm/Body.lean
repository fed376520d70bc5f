import ContainerHost.Wasm.Module
import ContainerHost.Wasm.Token
/-!
# Function bodies

A body is a row of instructions, some of which may stand between parentheses with their operands.
`Draft.instr` reads one instruction, checks it against the types of the operands that are known to
be there, and adds its operation to the code; blocks and loops become labels. After an instruction
that never goes on, operands of any type may be taken.
-/

namespace ContainerHost.Wasm

/-- The names that a body can refer to, by index. -/
structure Context where
  funcs : List (Option String)
  funcTypes : List FuncType
  globals : List (Option String)
  globalTypes : List (ValType × Bool)
  memories : Nat
  locals : List (Option String)
  localTypes : List ValType
  results : List ValType

/-- A block that is open: the name and index of its label, how many operands it found, whether
branches to it go back to its head, and whether the code at hand is never reached. -/
structure Scope where
  name : Option String
  label : Nat
  height : Nat
  isLoop : Bool
  dead : Bool
  deriving Inhabited

/-- Code as far as it is read: operations, labels, the types of the operands with the last one
first (`none` where any type will do), and the open blocks with the innermost first. -/
structure Draft where
  ops : Array Op
  labels : Array Label
  operands : List (Option ValType)
  scopes : List Scope

/-- The index that a word refers to: a number, or a name among `names`. -/
def resolve? (names : List (Option String)) (word : String) : Option Nat :=
  if word.startsWith "$" then
    names.findIdx? (· == some word)
  else readNat? word.toList

namespace Draft

/-- The beginning of a body: the function is the outermost block. -/
def start (results : List ValType) : Draft :=
  ⟨#[], #[⟨0, 0, results.length⟩], [], [⟨none, 0, 0, false, false⟩]⟩

def emit (d : Draft) (op : Op) : Draft := { d with ops := d.ops.push op }

def push (d : Draft) (t : ValType) : Draft := { d with operands := some t :: d.operands }

def pop (d : Draft) (t : ValType) : Option Draft :=
  match d.scopes with
  | [] => none
  | s :: _ =>
    if d.operands.length ≤ s.height then if s.dead then some d else none
    else match d.operands with
      | [] => none
      | none :: rest => some { d with operands := rest }
      | some u :: rest => if u = t then some { d with operands := rest } else none

/-- Takes any operand off. -/
def popAny (d : Draft) : Option Draft :=
  match d.scopes with
  | [] => none
  | s :: _ =>
    if d.operands.length ≤ s.height then if s.dead then some d else none
    else some { d with operands := d.operands.drop 1 }

/-- Takes operands of some types off, the last one first. -/
def popAll (d : Draft) (ts : List ValType) : Option Draft := ts.reverse.foldlM pop d

/-- Puts operands of some types on top. -/
def pushAll (d : Draft) (ts : List ValType) : Draft := ts.foldl push d

/-- Says that the code that follows is never reached. -/
def die (d : Draft) : Draft :=
  match d.scopes with
  | [] => d
  | s :: rest =>
    { d with operands := d.operands.drop (d.operands.length - s.height),
             scopes := { s with dead := true } :: rest }

/-- Opens a block. -/
def enter (d : Draft) (name : Option String) (isLoop : Bool) : Draft :=
  let height := d.operands.length
  { d with
    labels := d.labels.push ⟨d.ops.size, height, 0⟩
    scopes := ⟨name, d.labels.size, height, isLoop, false⟩ :: d.scopes }

def aim (d : Draft) (label : Nat) : Draft :=
  { d with labels := d.labels.modify label fun l => { l with target := d.ops.size } }

/-- Closes the innermost block. -/
def leave (d : Draft) : Option Draft :=
  match d.scopes with
  | s :: outer :: rest =>
    if d.operands.length = s.height then
      let d := if s.isLoop then d else d.aim s.label
      some { d with scopes := outer :: rest }
    else none
  | _ => none

/-- The open block that a word refers to: a name, or how many blocks lie between. -/
def scope? (d : Draft) (word : String) : Option (Nat × Scope) := do
  let i ← resolve? (d.scopes.map (·.name)) word
  let s ← d.scopes[i]?
  some (i, s)

/-- What a branch to a block carries: the results of the function, or nothing. -/
def carried (d : Draft) (c : Context) (depth : Nat) : List ValType :=
  if depth + 1 = d.scopes.length then c.results else []

/-- An instruction that takes and gives operands. -/
def apply (d : Draft) (op : Op) (params results : List ValType) : Option Draft := do
  let d ← d.popAll params
  some ((d.emit op).pushAll results)

/-- The offset of an access to memory, and the words after it. -/
def memArg (width : Width) (words : List Form) : Option (Nat × List Form) := do
  let value? (key : String) : List Form → Option (Option Nat × List Form)
    | .word w :: rest =>
      if w.startsWith key then
        (readNat? (w.toList.drop key.length)).map fun n => (some n, rest)
      else some (none, .word w :: rest)
    | rest => some (none, rest)
  let (offset, words) ← value? "offset=" words
  let (align, words) ← value? "align=" words
  let offset := offset.getD 0
  let align := align.getD width.bytes
  if offset < 1 <<< 32 && [1, 2, 4].contains align && align ≤ width.bytes then some (offset, words)
  else none

def blockName : List Form → Option String × List Form
  | .word w :: rest => if w.startsWith "$" then (some w, rest) else (none, .word w :: rest)
  | rest => (none, rest)

/-- Reads an instruction that one word names. -/
def plain (d : Draft) (c : Context) (name : String) : Option Draft :=
  match name with
  | "nop" => some (d.emit .nop)
  | "unreachable" => some (d.emit .unreachable).die
  | "drop" => d.popAny.map (·.emit .drop)
  | "return" => (d.popAll c.results).map fun d => (d.emit .ret).die
  | "memory.size" => if c.memories = 0 then none else d.apply .memorySize [] [.i32]
  | "memory.grow" => if c.memories = 0 then none else d.apply .memoryGrow [.i32] [.i32]
  | name => do
    let op ← NumOp.ofName? name
    d.apply (.num op) op.type.params op.type.results

def indexed (d : Draft) (c : Context) (name word : String) : Option Draft :=
  match name with
  | "br" => do
    let (depth, s) ← d.scope? word
    let d ← d.popAll (d.carried c depth)
    some (d.emit (.br s.label)).die
  | "br_if" => do
    let (depth, s) ← d.scope? word
    let d ← d.pop .i32
    let d' ← d.popAll (d.carried c depth)
    some ((d'.pushAll (d.carried c depth)).emit (.brIf s.label))
  | "call" => do
    let i ← resolve? c.funcs word
    let t ← c.funcTypes[i]?
    d.apply (.call i) t.params t.results
  | "local.get" => do
    let i ← resolve? c.locals word
    let t ← c.localTypes[i]?
    d.apply (.localGet i) [] [t]
  | "local.set" => do
    let i ← resolve? c.locals word
    let t ← c.localTypes[i]?
    d.apply (.localSet i) [t] []
  | "local.tee" => do
    let i ← resolve? c.locals word
    let t ← c.localTypes[i]?
    d.apply (.localTee i) [t] [t]
  | "global.get" => do
    let i ← resolve? c.globals word
    let (t, _) ← c.globalTypes[i]?
    d.apply (.globalGet i) [] [t]
  | "global.set" => do
    let i ← resolve? c.globals word
    let (t, isMutable) ← c.globalTypes[i]?
    if isMutable then d.apply (.globalSet i) [t] [] else none
  | "i32.const" => do
    let n ← readWord? 32 word
    d.apply (.const (.i32 n.toUInt32)) [] [.i32]
  | "i64.const" => do
    let n ← readWord? 64 word
    d.apply (.const (.i64 n.toUInt64)) [] [.i64]
  | "f32.const" => do
    let bits ← readF32? word
    d.apply (.const (.f32 bits)) [] [.f32]
  | "f64.const" => do
    let bits ← readF64? word
    d.apply (.const (.f64 bits)) [] [.f64]
  | "ref.null" => if word = "func" then d.apply (.const .nullFunc) [] [.funcref] else none
  | _ => none

/-- The instructions that a word follows. -/
def indexedNames : List String :=
  ["br", "br_if", "call", "local.get", "local.set", "local.tee", "global.get", "global.set",
    "i32.const", "i64.const", "f32.const", "f64.const", "ref.null"]

/-- Reads an access to memory. -/
def access (d : Draft) (c : Context) (name : String) (words : List Form) :
    Option (Draft × List Form) := do
  let (width, isLoad) ← match name with
    | "i32.load" => some (Width.word, true)
    | "i32.load8_u" => some (Width.byte, true)
    | "i32.store" => some (Width.word, false)
    | "i32.store8" => some (Width.byte, false)
    | _ => none
  let (offset, words) ← memArg width words
  if c.memories = 0 then none
  let d ← if isLoad then d.apply (.load width offset) [.i32] [.i32]
    else d.apply (.store width offset) [.i32, .i32] []
  some (d, words)

/-- Reads the instruction that starts with `name`; returns the words after it. -/
def instr (d : Draft) (c : Context) (name : String) (words : List Form) :
    Option (Draft × List Form) :=
  if name = "block" then
    let (label, words) := blockName words
    some (d.enter label false, words)
  else if name = "loop" then
    let (label, words) := blockName words
    some ((d.enter label true).emit .loop, words)
  else if name = "end" then
    let (label, words) := blockName words
    match d.scopes with
    | s :: _ =>
      if label.isSome && label != s.name then none else d.leave.map (·, words)
    | [] => none
  else if indexedNames.contains name then
    match words with
    | .word w :: words => (d.indexed c name w).map (·, words)
    | _ => none
  else match d.access c name words with
    | some r => some r
    | none => (d.plain c name).map (·, words)

/-- Reads the rest of a body; `fuel` bounds the number of instructions. -/
def body (d : Draft) (c : Context) : Nat → List Form → Option Draft
  | _, [] => some d
  | fuel + 1, .word name :: words =>
    match d.instr c name words with
    | some (d, words) => d.body c fuel words
    | none => none
  | _, _ => none

/-- Closes the function: its results are there, and nothing else. -/
def finish (d : Draft) (c : Context) : Option Draft :=
  match d.scopes with
  | [_] => do
    let d ← d.popAll c.results
    if d.operands.isEmpty then some (d.aim 0) else none
  | _ => none

end Draft

def Form.isWord : Form → Bool
  | .word _ => true
  | _ => false

mutual

/-- An operation between parentheses has its operands inside, which come before it; what is inside
of a block or loop is its body. -/
def Form.unfold : Form → List Form
  | .list (.word name :: items) =>
    if name == "block" || name == "loop" then .word name :: unfoldForms items ++ [.word "end"]
    else
      let immediates := items.takeWhile Form.isWord
      (unfoldForms items).drop immediates.length ++ .word name :: immediates
  | f => [f]

def unfoldForms : List Form → List Form
  | [] => []
  | f :: rest => f.unfold ++ unfoldForms rest

end

def readBody? (c : Context) (forms : List Form) : Option (Array Op × Array Label) := do
  let forms := unfoldForms forms
  let d ← (Draft.start c.results).body c (forms.length + 1) forms
  let d ← d.finish c
  some (d.ops, d.labels)

end ContainerHost.Wasm
