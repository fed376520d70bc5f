import ContainerHost.Text.Hex
/-!
# SHA-256

The digest of a byte string by the Secure Hash Standard: padding to blocks of sixty-four bytes, a
schedule of sixty-four words a block, and sixty-four rounds on eight words. `length_digest` says
that a digest has thirty-two bytes.
-/

namespace ContainerHost.Sha256

/-- The round constants: the first thirty-two bits of the fractional parts of the cube roots of the
first sixty-four primes. -/
def roundConstants : Array UInt32 := #[
  0x428a2f98, 0x71374491, 0xb5c0fbcf, 0xe9b5dba5, 0x3956c25b, 0x59f111f1, 0x923f82a4, 0xab1c5ed5,
  0xd807aa98, 0x12835b01, 0x243185be, 0x550c7dc3, 0x72be5d74, 0x80deb1fe, 0x9bdc06a7, 0xc19bf174,
  0xe49b69c1, 0xefbe4786, 0x0fc19dc6, 0x240ca1cc, 0x2de92c6f, 0x4a7484aa, 0x5cb0a9dc, 0x76f988da,
  0x983e5152, 0xa831c66d, 0xb00327c8, 0xbf597fc7, 0xc6e00bf3, 0xd5a79147, 0x06ca6351, 0x14292967,
  0x27b70a85, 0x2e1b2138, 0x4d2c6dfc, 0x53380d13, 0x650a7354, 0x766a0abb, 0x81c2c92e, 0x92722c85,
  0xa2bfe8a1, 0xa81a664b, 0xc24b8b70, 0xc76c51a3, 0xd192e819, 0xd6990624, 0xf40e3585, 0x106aa070,
  0x19a4c116, 0x1e376c08, 0x2748774c, 0x34b0bcb5, 0x391c0cb3, 0x4ed8aa4a, 0x5b9cca4f, 0x682e6ff3,
  0x748f82ee, 0x78a5636f, 0x84c87814, 0x8cc70208, 0x90befffa, 0xa4506ceb, 0xbef9a3f7, 0xc67178f2]

/-- The eight working words. -/
structure State where
  a : UInt32
  b : UInt32
  c : UInt32
  d : UInt32
  e : UInt32
  f : UInt32
  g : UInt32
  h : UInt32

/-- The first thirty-two bits of the fractional parts of the square roots of the first eight
primes. -/
def State.initial : State :=
  ⟨0x6a09e667, 0xbb67ae85, 0x3c6ef372, 0xa54ff53a, 0x510e527f, 0x9b05688c, 0x1f83d9ab, 0x5be0cd19⟩

def State.add (s t : State) : State :=
  ⟨s.a + t.a, s.b + t.b, s.c + t.c, s.d + t.d, s.e + t.e, s.f + t.f, s.g + t.g, s.h + t.h⟩

def rotr (x : UInt32) (n : UInt32) : UInt32 := (x >>> n) ||| (x <<< (32 - n))

/-- One round with a constant and a word of the schedule. -/
def State.round (s : State) (k w : UInt32) : State :=
  let s1 := rotr s.e 6 ^^^ rotr s.e 11 ^^^ rotr s.e 25
  let ch := (s.e &&& s.f) ^^^ ((~~~ s.e) &&& s.g)
  let t1 := s.h + s1 + ch + k + w
  let s0 := rotr s.a 2 ^^^ rotr s.a 13 ^^^ rotr s.a 22
  let maj := (s.a &&& s.b) ^^^ (s.a &&& s.c) ^^^ (s.b &&& s.c)
  ⟨t1 + (s0 + maj), s.a, s.b, s.c, s.d + t1, s.e, s.f, s.g⟩

/-- The word of four bytes, the highest first. -/
def word (a b c d : UInt8) : UInt32 :=
  (a.toUInt32 <<< 24) ||| (b.toUInt32 <<< 16) ||| (c.toUInt32 <<< 8) ||| d.toUInt32

/-- The byte at a position, zero behind the end. -/
def byteAt (bytes : ByteArray) (i : Nat) : UInt8 := (bytes[i]?).getD 0

/-- The schedule of the block that starts at `offset`. -/
def schedule (bytes : ByteArray) (offset : Nat) : Array UInt32 :=
  let first := (Array.range 16).map fun i =>
    let p := offset + 4 * i
    word (byteAt bytes p) (byteAt bytes (p + 1)) (byteAt bytes (p + 2)) (byteAt bytes (p + 3))
  (List.range 48).foldl (fun w i =>
    let before (j : Nat) : UInt32 := (w[i + j]?).getD 0
    let x := before 1
    let y := before 14
    let s0 := rotr x 7 ^^^ rotr x 18 ^^^ (x >>> 3)
    let s1 := rotr y 17 ^^^ rotr y 19 ^^^ (y >>> 10)
    w.push (before 0 + s0 + before 9 + s1)) first

/-- The state after the block that starts at `offset`. -/
def State.absorb (s : State) (bytes : ByteArray) (offset : Nat) : State :=
  let w := schedule bytes offset
  let t := (List.range 64).foldl
    (fun t i => t.round ((roundConstants[i]?).getD 0) ((w[i]?).getD 0)) s
  s.add t

/-- The padding behind a message of `n` bytes: a one bit, zeros, and the bit count in eight
bytes. -/
def padding (n : Nat) : List UInt8 :=
  let zeros := (119 - n % 64) % 64
  let bits := n * 8
  let count := (List.range 8).map fun i => UInt8.ofNat (bits >>> (8 * (7 - i)))
  0x80 :: List.replicate zeros 0 ++ count

/-- The four bytes of a word, the highest first. -/
def wordBytes (w : UInt32) : List UInt8 :=
  [(w >>> 24).toUInt8, (w >>> 16).toUInt8, (w >>> 8).toUInt8, w.toUInt8]

def State.bytes (s : State) : List UInt8 :=
  [s.a, s.b, s.c, s.d, s.e, s.f, s.g, s.h].flatMap wordBytes

def digest (bytes : ByteArray) : List UInt8 :=
  let padded := (padding bytes.size).foldl ByteArray.push bytes
  ((List.range (padded.size / 64)).foldl (fun s i => s.absorb padded (64 * i)) State.initial).bytes

/-- The digest in hexadecimal digits. -/
def hexDigest (bytes : ByteArray) : String := String.ofList (Text.Hex.encode (digest bytes))

theorem length_digest (bytes : ByteArray) : (digest bytes).length = 32 := rfl

end ContainerHost.Sha256
