/-!
# The shortest decimal of a binary number

A finite binary floating-point number `m · 2 ^ q` is named by every decimal that rounds to it.
`shortest` finds, among those with the fewest digits, the nearest one. It works in exact
arithmetic on natural numbers: for one, two, … seventeen digits it tests the two neighbours of the
value on that decimal grid, and the first grid with a hit wins.
-/

namespace ContainerHost.Decimal

/-- The widths of a binary interchange format. -/
structure BinaryFormat where
  fractionBits : Nat
  exponentBits : Nat

def binary64 : BinaryFormat := ⟨52, 11⟩

def binary32 : BinaryFormat := ⟨23, 8⟩

/-- What the bits of a floating-point number stand for. A finite number is `significand · 2 ^
power`; `narrow` says that its lower neighbour is only half as far away as its upper one. -/
inductive Parts where
  | nan
  | infinite (negative : Bool)
  | finite (negative : Bool) (significand : Nat) (power : Int) (narrow : Bool)
  deriving Repr, DecidableEq

namespace BinaryFormat

/-- Reads the fields of a number. -/
def parts (f : BinaryFormat) (bits : Nat) : Parts :=
  let fraction := bits % (1 <<< f.fractionBits)
  let field := bits >>> f.fractionBits % (1 <<< f.exponentBits)
  let negative := bits >>> (f.fractionBits + f.exponentBits) % 2 == 1
  let bias : Int := (1 <<< (f.exponentBits - 1) : Nat) - 1 + f.fractionBits
  if field == 1 <<< f.exponentBits - 1 then
    if fraction == 0 then .infinite negative else .nan
  else if field == 0 then .finite negative fraction (1 - bias) false
  else .finite negative (1 <<< f.fractionBits + fraction) (field - bias) (fraction == 0 && field > 1)

end BinaryFormat

/-- The number `digits · 10 ^ exponent`. -/
structure Scaled where
  digits : Nat
  exponent : Int
  deriving Repr, DecidableEq

/-- The decimal digits of a number, the highest first. -/
def digitsOf (n : Nat) : List Char := Nat.toDigits 10 n

/-- A fraction of natural numbers. -/
structure Ratio where
  num : Nat
  den : Nat

namespace Ratio

/-- `n · 2 ^ p`. -/
def ofBinary (n : Nat) (p : Int) : Ratio :=
  match p with
  | .ofNat k => ⟨n <<< k, 1⟩
  | .negSucc k => ⟨n, 1 <<< (k + 1)⟩

def scaleDown (r : Ratio) (p : Int) : Ratio :=
  match p with
  | .ofNat k => ⟨r.num, r.den * Nat.pow 10 k⟩
  | .negSucc k => ⟨r.num * Nat.pow 10 (k + 1), r.den⟩

/-- The least `j ≤ fuel` from `j₀` on with `num · 10 ^ j ≥ den`. -/
def liftBy (r : Ratio) : Nat → Nat → Nat
  | 0, j => j
  | fuel + 1, j => if r.num * Nat.pow 10 j ≥ r.den then j else liftBy r fuel (j + 1)

def leadingPlace (r : Ratio) : Int :=
  if r.num ≥ r.den then ((digitsOf (r.num / r.den)).length : Int) - 1
  else -(liftBy r 400 1 : Int)

end Ratio

/-- The numbers that round to a binary one, in quarters of its last place: `low ≤ x ≤ high`, the
ends counting only when `closed`. -/
structure Interval where
  low : Nat
  value : Nat
  high : Nat
  closed : Bool
  power : Int

/-- The interval of a finite number. -/
def Interval.of (significand : Nat) (power : Int) (narrow : Bool) : Interval :=
  ⟨4 * significand - (if narrow then 1 else 2), 4 * significand, 4 * significand + 2,
    significand % 2 == 0, power - 2⟩

/-- The decimal `d · 10 ^ p` lies in the interval. -/
def Interval.holds (i : Interval) (d : Nat) (p : Int) : Bool :=
  -- d · 10^p against e · 2^power, both sides over a common denominator
  let u : Ratio := (Ratio.ofBinary 1 i.power).scaleDown p
  -- d ⋚ e · u.num / u.den
  let left := d * u.den
  if i.closed then i.low * u.num ≤ left && left ≤ i.high * u.num
  else i.low * u.num < left && left < i.high * u.num

/-- The better of the two neighbours of the value on the grid of `10 ^ p` that lie in the interval;
of two, the nearer, and of two equally near, the even one. -/
def Interval.onGrid (i : Interval) (p : Int) : Option Nat :=
  let u : Ratio := (Ratio.ofBinary i.value i.power).scaleDown p
  let below := u.num / u.den
  let rest := u.num % u.den
  match i.holds below p && below != 0, i.holds (below + 1) p with
  | true, true =>
    if 2 * rest < u.den then some below
    else if 2 * rest > u.den then some (below + 1)
    else some (if below % 2 == 0 then below else below + 1)
  | true, false => some below
  | false, true => some (below + 1)
  | false, false => none

/-- Tries `n`, `n + 1`, … digits. -/
def Interval.search (i : Interval) (place : Int) : Nat → Nat → Option Scaled
  | 0, _ => none
  | fuel + 1, n =>
    let p := place - (n - 1 : Nat)
    match i.onGrid p with
    | some d => some ⟨d, p⟩
    | none => search i place fuel (n + 1)

/-- Moves trailing zeros of the digits into the exponent. -/
def Scaled.trim (s : Scaled) : Nat → Scaled
  | 0 => s
  | fuel + 1 =>
    if s.digits != 0 && s.digits % 10 == 0 then trim ⟨s.digits / 10, s.exponent + 1⟩ fuel else s

/-- The nearest of the shortest decimals that round to a positive finite number. -/
def shortest (significand : Nat) (power : Int) (narrow : Bool) : Scaled :=
  let i := Interval.of significand power narrow
  let place := (Ratio.ofBinary significand power).leadingPlace
  ((i.search place 20 1).getD ⟨significand, power⟩).trim 20

end ContainerHost.Decimal
