import ContainerHost.Decimal.Shortest
/-!
# Written forms of floating-point numbers

A `Notation` fixes where positional writing ends; `Notation.write` writes the shortest decimal of a
number by it. Whole numbers keep a `.0`, exponents carry a sign and no leading zeros, and there is
no form for infinities and NaN.
-/

namespace ContainerHost.Decimal

/-- How numbers of one binary format are written: positionally when the first digit stands at a
place from `lowest` to `highest`, and with an exponent otherwise. -/
structure NumberFormat where
  format : BinaryFormat
  lowest : Int
  highest : Int

/-- Numbers of sixty-four bits are positional from 1e-5 up to 1e16. -/
def NumberFormat.double : NumberFormat := ⟨binary64, -5, 15⟩

/-- Numbers of thirty-two bits are positional from 1e-6 up to 1e13. -/
def NumberFormat.single : NumberFormat := ⟨binary32, -6, 12⟩

/-- Digits with the point after the digit at place zero. -/
def positional (ds : List Char) (place : Int) : List Char :=
  match place with
  | .ofNat k =>
    let whole := ds.take (k + 1)
    let zeros := List.replicate (k + 1 - ds.length) '0'
    let fraction := ds.drop (k + 1)
    whole ++ zeros ++ ['.'] ++ (if fraction.isEmpty then ['0'] else fraction)
  | .negSucc k => ['0', '.'] ++ List.replicate k '0' ++ ds

def scientific (ds : List Char) (place : Int) : List Char :=
  let exponent := (if place < 0 then ['-'] else ['+']) ++ digitsOf place.natAbs
  match ds with
  | [] => []
  | [d] => [d, 'e'] ++ exponent
  | d :: rest => [d, '.'] ++ rest ++ ['e'] ++ exponent

def NumberFormat.write? (f : NumberFormat) (bits : Nat) : Option (List Char) :=
  match f.format.parts bits with
  | .nan => none
  | .infinite _ => none
  | .finite negative significand power narrow =>
    let sign := if negative then ['-'] else []
    if significand = 0 then some (sign ++ ['0', '.', '0'])
    else
      let s := shortest significand power narrow
      let ds := digitsOf s.digits
      let place := s.exponent + ((ds.length : Int) - 1)
      some <| sign ++
        if f.lowest ≤ place && place ≤ f.highest then positional ds place else scientific ds place

end ContainerHost.Decimal
