import ContainerHost.Limits
/-!
# Linear memory

A memory is a row of pages of `Limits.pageSize` bytes. It grows by zero pages up to its own maximum
and a bound from outside, and its bytes are read and written by address. `pageCount_setByte` and
`pageCount_grow?` say what happens to its size, and `byteSize_eq` that the size is whole pages.
-/

namespace ContainerHost.Wasm

open Limits (pageSize)

structure Page where
  bytes : ByteArray
  size_eq : bytes.size = pageSize

namespace Page

def zero : Page := ⟨⟨Array.replicate pageSize 0⟩, Array.size_replicate⟩

instance : Inhabited Page := ⟨zero⟩

def get (p : Page) (i : Nat) (h : i < pageSize) : UInt8 := p.bytes.get i (by rw [p.size_eq]; exact h)

/-- The page with one byte replaced. -/
def set (p : Page) (i : Nat) (v : UInt8) (h : i < pageSize) : Page :=
  ⟨p.bytes.set i v (by rw [p.size_eq]; exact h), (Array.size_set ..).trans p.size_eq⟩

end Page

/-- A linear memory. -/
structure Memory where
  pages : Array Page
  max : Option Nat

namespace Memory

instance : Inhabited Memory := ⟨⟨#[], none⟩⟩

def zeros (min : Nat) (max : Option Nat) : Memory := ⟨Array.replicate min Page.zero, max⟩

def pageCount (m : Memory) : Nat := m.pages.size

def byteSize (m : Memory) : Nat := m.pageCount * pageSize

/-- The memory with `delta` more pages, if neither its maximum nor `bound` is passed. -/
def grow? (m : Memory) (bound delta : Nat) : Option Memory :=
  let size := m.pageCount + delta
  if size ≤ bound && size ≤ m.max.getD Limits.maxPages && size ≤ Limits.maxPages then
    some { m with pages := m.pages ++ Array.replicate delta Page.zero }
  else none

/-- The byte at an address; zero outside. -/
def byte (m : Memory) (a : Nat) : UInt8 :=
  match m.pages[a / pageSize]? with
  | some p => p.get (a % pageSize) (Nat.mod_lt _ (by decide))
  | none => 0

/-- The memory with one byte replaced; outside nothing changes. -/
def setByte (m : Memory) (a : Nat) (v : UInt8) : Memory :=
  { m with
    pages := m.pages.modify (a / pageSize) fun p =>
      p.set (a % pageSize) v (Nat.mod_lt _ (by decide)) }

/-- The range of `len` bytes at `a` lies inside. -/
def fits (m : Memory) (a len : Nat) : Bool := a + len ≤ m.byteSize

def slice (m : Memory) (a len : Nat) : List UInt8 := (List.range len).map fun i => m.byte (a + i)

/-- The memory with bytes replaced from `a` on. -/
def splice (m : Memory) (a : Nat) : List UInt8 → Memory
  | [] => m
  | b :: bs => (m.setByte a b).splice (a + 1) bs

/-- The memory with `n` bytes from `a` on replaced by one value. -/
def paint (m : Memory) (a : Nat) (v : UInt8) : Nat → Memory
  | 0 => m
  | n + 1 => (m.setByte a v).paint (a + 1) v n

/-- Reads a range that lies inside. -/
def read? (m : Memory) (a len : Nat) : Option (List UInt8) :=
  if m.fits a len then some (m.slice a len) else none

/-- The number that bytes spell, the lowest first. -/
def littleEndian : List UInt8 → Nat
  | [] => 0
  | b :: bs => b.toNat + 256 * littleEndian bs

/-- The `width` lowest bytes of a number, the lowest first. -/
def toLittleEndian : Nat → Nat → List UInt8
  | 0, _ => []
  | width + 1, n => UInt8.ofNat n :: toLittleEndian width (n / 256)

/-! ## Size -/

theorem byteSize_eq (m : Memory) : m.byteSize = m.pageCount * pageSize := rfl

@[simp] theorem pageCount_zeros (min : Nat) (max : Option Nat) : (zeros min max).pageCount = min := by
  simp [zeros, pageCount]

@[simp] theorem pageCount_setByte (m : Memory) (a : Nat) (v : UInt8) :
    (m.setByte a v).pageCount = m.pageCount := by
  simp [setByte, pageCount]

@[simp] theorem pageCount_splice (m : Memory) (a : Nat) (bs : List UInt8) :
    (m.splice a bs).pageCount = m.pageCount := by
  induction bs generalizing m a with
  | nil => rfl
  | cons b bs ih => simp [splice, ih]

@[simp] theorem pageCount_paint (m : Memory) (a : Nat) (v : UInt8) (n : Nat) :
    (m.paint a v n).pageCount = m.pageCount := by
  induction n generalizing m a with
  | zero => rfl
  | succ n ih => simp [paint, ih]

theorem pageCount_grow? {m m' : Memory} {bound delta : Nat} (h : m.grow? bound delta = some m') :
    m'.pageCount = m.pageCount + delta ∧ m'.pageCount ≤ bound := by
  simp only [grow?] at h
  split at h
  · next hc =>
    cases h
    simp only [Bool.and_eq_true, decide_eq_true_eq] at hc
    simp only [pageCount, Array.size_append, Array.size_replicate] at *
    exact ⟨trivial, hc.1.1⟩
  · cases h

end Memory
end ContainerHost.Wasm
