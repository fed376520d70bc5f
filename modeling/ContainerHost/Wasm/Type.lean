/-!
# Types and values of WebAssembly

The types of numbers, functions and memories that guests use, their written forms, and when what is
provided matches what is expected.
-/

namespace ContainerHost.Wasm

/-- The type of a value. -/
inductive ValType where
  | i32
  | i64
  | f32
  | f64
  | funcref
  deriving DecidableEq, Repr, Inhabited

/-- A value. Floating-point numbers are given by their bits; the only reference is the null one. -/
inductive Value where
  | i32 (n : UInt32)
  | i64 (n : UInt64)
  | f32 (bits : UInt32)
  | f64 (bits : UInt64)
  | nullFunc
  deriving DecidableEq, Repr

instance : Inhabited Value := ⟨.i32 0⟩

def Value.type : Value → ValType
  | i32 _ => .i32
  | i64 _ => .i64
  | f32 _ => .f32
  | f64 _ => .f64
  | nullFunc => .funcref

/-- The value a variable starts with. -/
def ValType.zero : ValType → Value
  | i32 => .i32 0
  | i64 => .i64 0
  | f32 => .f32 0
  | f64 => .f64 0
  | funcref => .nullFunc

/-- The written form of a type. -/
def ValType.name : ValType → String
  | i32 => "i32"
  | i64 => "i64"
  | f32 => "f32"
  | f64 => "f64"
  | funcref => "funcref"

/-- What a function takes and gives. -/
structure FuncType where
  params : List ValType
  results : List ValType
  deriving DecidableEq, Repr, Inhabited

/-- The written form of a function type. -/
def FuncType.text (t : FuncType) : String :=
  let part (word : String) (l : List ValType) : String :=
    if l.isEmpty then "" else " (" ++ word ++ String.join (l.map fun v => " " ++ v.name) ++ ")"
  "(func" ++ part "param" t.params ++ part "result" t.results ++ ")"

/-- The sizes of a memory in pages. -/
structure Limits where
  min : Nat
  max : Option Nat
  deriving DecidableEq, Repr, Inhabited

/-- The written form of the sizes of a memory. -/
def Limits.text (l : Limits) : String :=
  s!"(min: {l.min}, max: " ++ (match l.max with | some m => toString m | none => "none") ++ ")"

/-- A memory of size `have'.min` that grows up to `have'.max` will do where `want` is expected. -/
def Limits.covers (have' want : Limits) : Bool :=
  want.min ≤ have'.min &&
    match want.max, have'.max with
    | none, _ => true
    | some w, some h => h ≤ w
    | some _, none => false

/-- The type of something that a module imports. Hosts provide functions and memories only, so that
of the other kinds just their names matter. -/
inductive ExternType where
  | func (type : FuncType)
  | memory (limits : Limits)
  | other (kind : String)
  deriving DecidableEq, Repr, Inhabited

theorem Limits.covers_refl (l : Limits) : l.covers l = true := by
  simp only [covers, Nat.le_refl, decide_true, Bool.true_and]
  cases l.max <;> simp

theorem ValType.type_zero (t : ValType) : t.zero.type = t := by cases t <;> rfl

end ContainerHost.Wasm
