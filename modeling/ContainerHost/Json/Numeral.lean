/-!
# Numerals

A JSON number as it is written, and the number it stands for. A numeral without fraction and
exponent that fits sixty-four bits is an integer; every other one is a floating-point number, found
by scaling its leading digits by one power of ten at a time. `-0` is the negative zero among the
floating-point numbers. A numeral beyond the largest floating-point number stands for nothing.
-/

namespace ContainerHost.Json

/-- A number as it is written: digits before and after the point, and an exponent with its sign. -/
structure Numeral where
  negative : Bool
  whole : List Nat
  fraction : Option (List Nat)
  exponent : Option (Bool × List Nat)
  deriving DecidableEq, Repr

/-- What a numeral stands for. Floating-point numbers are given by their bits. -/
inductive Number where
  | int (value : Int)
  | float (bits : UInt64)
  deriving DecidableEq, Repr

/-- The number that a list of decimal digits spells. -/
def digitsValue (ds : List Nat) : Nat := ds.foldl (fun n d => n * 10 + d) 0

/-- The integers that count as such. -/
def Number.isWide (i : Int) : Bool := -(1 <<< 63 : Nat) ≤ i && i < (1 <<< 64 : Nat)

namespace Numeral

/-- Takes digits into a significand of sixty-four bits until one does not fit; returns the
significand, how many digits went in, and how many were left. -/
def gather (limit : Nat) : Nat → List Nat → Nat × Nat × Nat
  | significand, [] => (significand, 0, 0)
  | significand, d :: ds =>
    if significand * 10 + d < limit then
      let (s, used, left) := gather limit (significand * 10 + d) ds
      (s, used + 1, left)
    else (significand, 0, ds.length + 1)

/-- The leading digits of the numeral as a number of sixty-four bits, and the power of ten that
belongs to it before the written exponent is added. -/
def leading (n : Numeral) : Nat × Int :=
  let (s, _, dropped) := gather (1 <<< 64) 0 n.whole
  let (s', used, _) := gather (1 <<< 64) s (n.fraction.getD [])
  (s', (dropped : Int) - used)

/-- Scales a number by a power of ten; `none` beyond the largest number. -/
def scale (f : Float) (power : Int) : Nat → Option Float
  | 0 => some f
  | fuel + 1 =>
    if power.natAbs ≤ 308 then
      let factor := Float.ofScientific 1 false power.natAbs
      if power ≥ 0 then
        let g := f * factor
        if g.isInf then none else some g
      else some (f / factor)
    else if f == 0.0 then some f
    else if power ≥ 0 then none
    else scale (f / Float.ofScientific 1 false 308) (power + 308) fuel

def float? (n : Numeral) : Option Float :=
  let (significand, power) := n.leading
  let magnitude : Option Float :=
    match n.exponent with
    | none => scale significand.toUInt64.toFloat power 20
    | some (negative, ds) =>
      let e := digitsValue ds
      if e ≥ 1 <<< 31 then
        if significand == 0 || negative then some 0.0 else none
      else scale significand.toUInt64.toFloat (if negative then power - e else power + e) 20
  magnitude.map fun f => if n.negative then -f else f

def number? (n : Numeral) : Option Number :=
  let value := digitsValue n.whole
  let signed : Int := if n.negative then -value else value
  if n.fraction.isNone && n.exponent.isNone && Number.isWide signed && !(n.negative && value == 0)
  then some (.int signed)
  else n.float?.map fun f => .float f.toBits

end Numeral
end ContainerHost.Json
