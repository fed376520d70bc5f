import ContainerHost.Text.Utf8
import ContainerHost.Wasm.Body
/-!
# Reading modules

A module is given as text, or as bytes that begin with the header of the binary format (of which
only the empty module is read). `Module.ofBytes?` reads either. In a text, imports come before the
definitions of the same index spaces, and all names are resolved before bodies are read.
-/

namespace ContainerHost.Wasm

/-- The declarations of a module before names are resolved. The lists are in the order of their
indices; `none` stands for a declaration without a name. -/
structure Outline where
  imports : List (Import × Option String)
  funcs : List (Option String × List Form)
  memories : List (Option String × Limits)
  globals : List (Option String × Global)
  exports : List (String × Bool × String)
  data : List Segment
  starts : List String

namespace Outline

def empty : Outline := ⟨[], [], [], [], [], [], []⟩

def takeName : List Form → Option String × List Form
  | .word w :: rest => if w.startsWith "$" then (some w, rest) else (none, .word w :: rest)
  | rest => (none, rest)

/-- The text of a string; names have to be text. -/
def nameOf? (bytes : List UInt8) : Option String := String.fromUTF8? ⟨bytes.toArray⟩

def valType? : String → Option ValType
  | "i32" => some .i32
  | "i64" => some .i64
  | "f32" => some .f32
  | "f64" => some .f64
  | "funcref" => some .funcref
  | _ => none

/-- The names and types in a form `(param …)` or `(local …)`. -/
def variables? : List Form → Option (List (Option String × ValType))
  | [.word name, .word t] =>
    if name.startsWith "$" then (valType? t).map fun t => [(some name, t)]
    else do
      let a ← valType? name
      let b ← valType? t
      some [(none, a), (none, b)]
  | forms => forms.mapM fun f => match f with
    | .word t => (valType? t).map (none, ·)
    | _ => none

/-- The exports written inside a definition, and what follows them. -/
def inlineExports : List Form → Option (List String × List Form)
  | .list [.word "export", .str bytes] :: rest => do
    let name ← nameOf? bytes
    let (names, rest) ← inlineExports rest
    some (name :: names, rest)
  | rest => some ([], rest)

/-- The forms at the front that begin with a word, without that word, and what follows them. -/
def leading (word : String) : List Form → List (List Form) × List Form
  | .list (.word w :: inner) :: rest =>
    if w = word then
      let (found, rest) := leading word rest
      (inner :: found, rest)
    else ([], .list (.word w :: inner) :: rest)
  | rest => ([], rest)

def variablesOf? (forms : List (List Form)) : Option (List (Option String × ValType)) :=
  (forms.mapM variables?).map List.flatten

/-- A function type with the names of its parameters, and what follows. -/
def signature? (forms : List Form) :
    Option (List (Option String × ValType) × List ValType × List Form) := do
  let (params, forms) := leading "param" forms
  let params ← variablesOf? params
  let (results, forms) := leading "result" forms
  let results ← (results.flatten).mapM fun f => match f with
    | .word t => valType? t
    | _ => none
  some (params, results, forms)

/-- The sizes of a memory. -/
def limits? : List Form → Option Limits
  | [.word min] => (readNat? min.toList).map fun n => ⟨n, none⟩
  | [.word min, .word max] => do
    let n ← readNat? min.toList
    let m ← readNat? max.toList
    some ⟨n, some m⟩
  | _ => none

/-- Sizes that a memory can have. -/
def limitsFine (l : Limits) : Bool :=
  l.min ≤ 65536 && match l.max with
    | some m => l.min ≤ m && m ≤ 65536
    | none => true

def constant? : Form → Option Value
  | .list [.word "i32.const", .word w] => (readWord? 32 w).map fun n => .i32 n.toUInt32
  | .list [.word "i64.const", .word w] => (readWord? 64 w).map fun n => .i64 n.toUInt64
  | .list [.word "f32.const", .word w] => (readF32? w).map .f32
  | .list [.word "f64.const", .word w] => (readF64? w).map .f64
  | _ => none

/-- Nothing is defined yet, so that imports may still come. -/
def onlyImports (o : Outline) : Bool := o.funcs.isEmpty && o.memories.isEmpty && o.globals.isEmpty

def funcCount (o : Outline) : Nat :=
  (o.imports.filter fun i => match i.1.type with | .func _ => true | _ => false).length +
    o.funcs.length

def memoryCount (o : Outline) : Nat :=
  (o.imports.filter fun i => match i.1.type with | .memory _ => true | _ => false).length +
    o.memories.length

def addImport (o : Outline) (space name : List UInt8) (kind : String) (forms : List Form) :
    Option Outline := do
  let space ← nameOf? space
  let name ← nameOf? name
  let (id, forms) := takeName forms
  let type ← match kind with
    | "func" =>
      match ← signature? forms with
      | (params, results, []) => some (ExternType.func ⟨params.map (·.2), results⟩)
      | _ => none
    | "memory" => (limits? forms).map .memory
    | _ => none
  if o.onlyImports then some { o with imports := o.imports ++ [(⟨space, name, type⟩, id)] }
  else none

/-- Takes in a field of a module. -/
def field (o : Outline) : Form → Option Outline
  | .list (.word "import" :: .str space :: .str name :: [.list (.word kind :: forms)]) =>
    o.addImport space name kind forms
  | .list (.word "memory" :: forms) => do
    let (id, forms) := takeName forms
    let (names, forms) ← inlineExports forms
    let limits ← limits? forms
    let index := toString o.memoryCount
    some { o with memories := o.memories ++ [(id, limits)],
                  exports := o.exports ++ names.map (·, false, index) }
  | .list [.word "export", .str name, .list [.word kind, .word target]] => do
    let name ← nameOf? name
    match kind with
    | "memory" => some { o with exports := o.exports ++ [(name, false, target)] }
    | "func" => some { o with exports := o.exports ++ [(name, true, target)] }
    | _ => none
  | .list (.word "global" :: forms) => do
    let (id, forms) := takeName forms
    match forms with
    | [.list [.word "mut", .word t], init] => do
      let t ← valType? t
      let v ← constant? init
      if v.type = t then some { o with globals := o.globals ++ [(id, ⟨t, true, v⟩)] } else none
    | [.word t, init] => do
      let t ← valType? t
      let v ← constant? init
      if v.type = t then some { o with globals := o.globals ++ [(id, ⟨t, false, v⟩)] } else none
    | _ => none
  | .list (.word "data" :: .list [.word "i32.const", .word offset] :: strings) => do
    let offset ← readWord? 32 offset
    let bytes ← strings.mapM fun f => match f with
      | .str bs => some bs
      | _ => none
    some { o with data := o.data ++ [⟨offset, bytes.flatten⟩] }
  | .list [.word "start", .word target] => some { o with starts := o.starts ++ [target] }
  | .list (.word "func" :: forms) => do
    let (id, forms) := takeName forms
    let (names, forms) ← inlineExports forms
    let index := toString o.funcCount
    some { o with funcs := o.funcs ++ [(id, forms)],
                  exports := o.exports ++ names.map (·, true, index) }
  | _ => none

def distinct (names : List (Option String)) : Bool :=
  let given := names.filterMap id
  given.eraseDups.length = given.length

def module? (o : Outline) : Option Module := do
  let imports := o.imports.map (·.1)
  let funcImports := o.imports.filterMap fun i => match i.1.type with
    | .func t => some (i.2, t)
    | _ => none
  let memoryImports := o.imports.filterMap fun i => match i.1.type with
    | .memory l => some (i.2, l)
    | _ => none
  let signatures ← o.funcs.mapM fun f => (signature? f.2).map (f.1, ·)
  let funcNames := funcImports.map (·.1) ++ signatures.map (·.1)
  let funcTypes := funcImports.map (·.2) ++
    signatures.map fun s => ⟨s.2.1.map (·.2), s.2.2.1⟩
  let memoryNames := memoryImports.map (·.1) ++ o.memories.map (·.1)
  let memoryLimits := memoryImports.map (·.2) ++ o.memories.map (·.2)
  let globalNames := o.globals.map (·.1)
  if !(distinct funcNames && distinct memoryNames && distinct globalNames) then none
  if !memoryLimits.all limitsFine then none
  let funcs ← signatures.mapM fun (_, params, results, forms) => do
    let (locals, forms) := leading "local" forms
    let locals ← variablesOf? locals
    let named := params ++ locals
    if !distinct (named.map (·.1)) then none
    let c : Context := {
      funcs := funcNames
      funcTypes := funcTypes
      globals := globalNames
      globalTypes := o.globals.map fun g => (g.2.type, g.2.isMutable)
      memories := memoryLimits.length
      locals := named.map (·.1)
      localTypes := named.map (·.2)
      results := results }
    let (ops, labels) ← readBody? c forms
    some (⟨⟨params.map (·.2), results⟩, locals.map (·.2), ops, labels⟩ : Func)
  let exports ← o.exports.mapM fun (name, isFunc, target) => do
    if isFunc then
      let i ← resolve? funcNames target
      if i < funcTypes.length then some (⟨name, .func i⟩ : Export) else none
    else
      let i ← resolve? memoryNames target
      if i < memoryLimits.length then some ⟨name, .memory i⟩ else none
  if (exports.map (·.name)).eraseDups.length != exports.length then none
  if !o.data.isEmpty && memoryLimits.isEmpty then none
  let start ← match o.starts with
    | [] => some none
    | [target] => do
      let i ← resolve? funcNames target
      let t ← funcTypes[i]?
      if t = ⟨[], []⟩ then some (some i) else none
    | _ => none
  some {
    imports := imports
    funcs := funcs
    memories := o.memories.map (·.2)
    globals := o.globals.map (·.2)
    exports := exports
    data := o.data
    start := start }

end Outline

namespace Module

def ofFields? (fields : List Form) : Option Module := do
  let o ← fields.foldlM Outline.field Outline.empty
  o.module?

def ofText? (text : List Char) : Option Module := do
  match ← Form.read? text with
  | [.list (.word "module" :: fields)] => ofFields? (Outline.takeName fields).2
  | [] => none
  | fields => ofFields? fields

/-- The first bytes of the binary format. -/
def magic : List UInt8 := [0x00, 0x61, 0x73, 0x6D]

/-- The bytes of the empty module in the binary format. -/
def emptyBinary : List UInt8 := magic ++ [0x01, 0x00, 0x00, 0x00]

def ofBytes? (bytes : ByteArray) : Option Module :=
  if (bytes.extract 0 4).toList = magic then
    if bytes.toList = emptyBinary then some empty else none
  else (String.fromUTF8? bytes).bind fun s => ofText? s.toList

end Module
end ContainerHost.Wasm
