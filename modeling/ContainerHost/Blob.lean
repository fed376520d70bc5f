import ContainerHost.Digest.Sha256
/-!
# Bytes as they are delivered

The bytes of a module or a file. A run of zeros is kept as its length, so that sizes beyond what is
read can be dealt with.

Correspondence: `digest_hex` ↔ `Blob.digest`.
-/

namespace ContainerHost

inductive Blob where
  | bytes (b : ByteArray)
  | zeros (n : Nat)
  deriving Inhabited

namespace Blob

def size : Blob → Nat
  | bytes b => b.size
  | zeros n => n

def take (n : Nat) : Blob → ByteArray
  | bytes b => b.extract 0 n
  | zeros k => ⟨Array.replicate (min n k) 0⟩

def toBytes : Blob → ByteArray
  | bytes b => b
  | zeros n => ⟨Array.replicate n 0⟩

def ofString (s : String) : Blob := bytes s.toUTF8

def digest (b : Blob) : String := Sha256.hexDigest b.toBytes

end Blob
end ContainerHost
