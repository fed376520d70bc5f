/-!
# Hexadecimal text

Bytes as pairs of digits, the upper half first. `length_encode` counts the digits.
-/

namespace ContainerHost.Text.Hex

/-- The digit of a value below sixteen, in lower case. -/
def digit (n : Nat) : Char :=
  if n < 10 then Char.ofNat (0x30 + n) else Char.ofNat (0x61 + (n - 10))

/-- The value of a digit, in either case. -/
def value? (c : Char) : Option Nat :=
  if '0' ≤ c && c ≤ '9' then some (c.toNat - 0x30)
  else if 'a' ≤ c && c ≤ 'f' then some (c.toNat - 0x61 + 10)
  else if 'A' ≤ c && c ≤ 'F' then some (c.toNat - 0x41 + 10)
  else none

def encode (bytes : List UInt8) : List Char :=
  bytes.flatMap fun b => [digit (b.toNat / 16), digit (b.toNat % 16)]

/-- Exactly `width` digits of a number, the highest first. -/
def padded (width n : Nat) : List Char :=
  ((List.range width).map fun i => digit (n >>> (4 * i) % 16)).reverse

/-- The bytes that pairs of digits stand for. -/
def decode? : List Char → Option (List UInt8)
  | [] => some []
  | hi :: lo :: rest => do
    let h ← value? hi
    let l ← value? lo
    let more ← decode? rest
    some (UInt8.ofNat (h * 16 + l) :: more)
  | [_] => none

/-- The number that a nonempty run of digits stands for. -/
def number? (cs : List Char) : Option Nat :=
  if cs.isEmpty then none
  else cs.foldl (fun acc c => do
    let n ← acc
    let d ← value? c
    some (n * 16 + d)) (some 0)

theorem length_encode (bytes : List UInt8) : (encode bytes).length = 2 * bytes.length := by
  induction bytes with
  | nil => rfl
  | cons b rest ih =>
    simp only [encode, List.flatMap_cons, List.length_append, List.length_cons, List.length_nil] at *
    omega

end ContainerHost.Text.Hex
