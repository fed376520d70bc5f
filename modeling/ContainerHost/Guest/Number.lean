import ContainerHost.Decimal.Notation
import ContainerHost.Guest.Store
import ContainerHost.Json.Printer
import ContainerHost.Json.Record
/-!
# Numbers in JSON

A number that is passed to or returned from a guest is written as an object with its type and its
value. An integer may be read as a floating-point number, but not the other way round.

Correspondence: `WasmValue` as it is written ↔ `readNumber?`, `printNumber`; `as_i32`, `as_i64`,
`as_f64` ↔ `asI32?`, `asI64?`, `asF64?`.
-/

namespace ContainerHost.Guest

open Wasm (Value ValType)

/-- The bits of the nearest number of sixty-four bits to an integer. -/
def floatOfInt (i : Int) : Float :=
  let f := i.natAbs.toUInt64.toFloat
  if i < 0 then -f else f

/-- The bits of the nearest number of thirty-two bits to an integer. -/
def float32OfInt (i : Int) : Float32 :=
  let f := i.natAbs.toUInt64.toFloat32
  if i < 0 then -f else f

def numberType? (s : String) : Option ValType :=
  [ValType.i32, .i64, .f32, .f64].find? (·.name == s)

def numberOf? (t : ValType) (n : Json.Number) : Option Value :=
  match t, n with
  | .i32, .int i =>
    if -(1 <<< 31 : Nat) ≤ i && i < (1 <<< 31 : Nat) then some (.i32 (bits32 i)) else none
  | .i64, .int i =>
    if -(1 <<< 63 : Nat) ≤ i && i < (1 <<< 63 : Nat) then some (.i64 (bits64 i)) else none
  | .f32, .int i => some (.f32 (float32OfInt i).toBits)
  | .f32, .float bits => some (.f32 (Float.ofBits bits).toFloat32.toBits)
  | .f64, .int i => some (.f64 (floatOfInt i).toBits)
  | .f64, .float bits => some (.f64 bits)
  | _, _ => none

/-- Reads a number: an object with `type` and `value`, or an array of the two. -/
def readNumber? (d : Json.Document) : Option Value := do
  match ← d.fields? ["type", "value"] with
  | [some tag, some (.number (some n))] => numberOf? (← numberType? (← tag.alternative?)) n
  | _ => none

/-- The written form of a number's value. -/
def printNumber : Value → List Char
  | .i32 n => Json.printInt (signed32 n)
  | .i64 n => Json.printInt (signed64 n)
  | .f32 bits => (Decimal.NumberFormat.single.write? bits.toNat).getD ['n', 'u', 'l', 'l']
  | .f64 bits => (Decimal.NumberFormat.double.write? bits.toNat).getD ['n', 'u', 'l', 'l']
  | .nullFunc => ['n', 'u', 'l', 'l']

def numberText (v : Value) : String :=
  String.ofList <|
    ['\x7b'] ++ Json.printString "type".toList ++ [':'] ++ Json.printString v.type.name.toList ++
    [','] ++ Json.printString "value".toList ++ [':'] ++ printNumber v ++ ['\x7d']

/-- The number as an integer of thirty-two bits, if it is one. -/
def asI32? : Value → Option Int
  | .i32 n => some (signed32 n)
  | _ => none

/-- The number as an integer of sixty-four bits, if it is one. -/
def asI64? : Value → Option Int
  | .i64 n => some (signed64 n)
  | _ => none

/-- The number as a floating-point number of sixty-four bits, if it is a floating-point number. -/
def asF64? : Value → Option Float
  | .f32 bits => some (Float32.ofBits bits).toFloat
  | .f64 bits => some (Float.ofBits bits)
  | _ => none

end ContainerHost.Guest
