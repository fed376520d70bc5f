/-!
# Text in units of sixteen bits

A text as UTF-16 units and back. Reading never fails: a unit that belongs to no pair is read as
U+FFFD.
-/

namespace ContainerHost.Text.Utf16

def isHigh (u : UInt16) : Bool := 0xD800 ≤ u && u ≤ 0xDBFF

def isLow (u : UInt16) : Bool := 0xDC00 ≤ u && u ≤ 0xDFFF

/-- The character of a pair of units. -/
def pair (hi lo : UInt16) : Char :=
  Char.ofNat (0x10000 + (hi.toNat - 0xD800) * 0x400 + (lo.toNat - 0xDC00))

/-- The characters a list of units stands for. -/
def decode : List UInt16 → List Char
  | [] => []
  | u :: rest =>
    if isHigh u then
      match rest with
      | v :: rest' =>
        if isLow v then pair u v :: decode rest' else '\ufffd' :: decode (v :: rest')
      | [] => ['\ufffd']
    else if isLow u then '\ufffd' :: decode rest
    else Char.ofNat u.toNat :: decode rest

def units (c : Char) : List UInt16 :=
  if c.toNat < 0x10000 then [UInt16.ofNat c.toNat]
  else [UInt16.ofNat (0xD800 + (c.toNat - 0x10000) / 0x400),
        UInt16.ofNat (0xDC00 + (c.toNat - 0x10000) % 0x400)]

def encode (cs : List Char) : List UInt16 := cs.flatMap units

/-- The units that bytes in little-endian order hold; an odd last byte is no unit. -/
def ofBytes : List UInt8 → List UInt16
  | a :: b :: rest => (UInt16.ofNat a.toNat ||| (UInt16.ofNat b.toNat <<< 8)) :: ofBytes rest
  | _ => []

end ContainerHost.Text.Utf16
