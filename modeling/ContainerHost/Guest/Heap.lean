import ContainerHost.Wasm.Memory
import ContainerHost.Wasm.Type
/-!
# What code works on

The memories, the global variables and the fuel of a guest: all that its code can change by itself.
`Sized` compares the sizes of memories, `Grows` says what may become of a request for more memory,
and `Works` what code may do between two of its pauses.
-/

namespace ContainerHost.Guest

open Wasm (Memory Value)
open Limits (pageSize)

structure Heap where
  memories : Array Memory
  globals : Array Value
  fuel : Nat
  deriving Inhabited

namespace Heap

def memory? (h : Heap) (address : Nat) : Option Memory := h.memories[address]?

def pages? (h : Heap) (address : Nat) : Option Nat := (h.memory? address).map Memory.pageCount

def modifyMemory (h : Heap) (address : Nat) (f : Memory → Memory) : Heap :=
  { h with memories := h.memories.modify address f }

def charge (h : Heap) (cost : Nat) : Heap := { h with fuel := h.fuel - cost }

/-- All memories of `t` have the sizes that those of `s` have. -/
def Sized (s t : Heap) : Prop := ∀ address, t.pages? address = s.pages? address

/-- A request for `delta` more pages at an address, with a limit in bytes, was answered: it is
refused with -1 and nothing changes, or it is within the limit, exactly as many pages are there
more, and the answer is how many there were. -/
def Grows (limit address delta : Nat) (s : Heap) (answer : UInt32) (t : Heap) : Prop :=
  (answer = 0xffffffff ∧ t.memories = s.memories) ∨
    ∃ n, s.pages? address = some n ∧ (n + delta) * pageSize ≤ limit ∧ answer = UInt32.ofNat n ∧
      ∀ a, t.pages? a = if a = address then some (n + delta) else s.pages? a

structure Works (s t : Heap) : Prop where
  sized : Sized s t
  fuel : t.fuel ≤ s.fuel

variable {s t u : Heap}

theorem Sized.refl (s : Heap) : Sized s s := fun _ => rfl

theorem Sized.trans (h : Sized s t) (k : Sized t u) : Sized s u :=
  fun address => (k address).trans (h address)

theorem sized_of_memories (h : t.memories = s.memories) : Sized s t := by
  intro address
  unfold pages? memory?
  rw [h]

theorem sized_modifyMemory (s : Heap) (address : Nat) {f : Memory → Memory}
    (hf : ∀ m, (f m).pageCount = m.pageCount) : Sized s (s.modifyMemory address f) := by
  intro a
  unfold pages? memory? modifyMemory
  dsimp only
  rw [Array.getElem?_modify]
  split
  · cases s.memories[a]? with
    | none => rfl
    | some m => exact congrArg some (hf m)
  · rfl

theorem Works.refl (s : Heap) : Works s s := ⟨.refl s, Nat.le_refl _⟩

theorem Works.trans (h : Works s t) (k : Works t u) : Works s u :=
  ⟨h.sized.trans k.sized, Nat.le_trans k.fuel h.fuel⟩

theorem works_fuel {fuel : Nat} (h : fuel ≤ s.fuel) : Works s { s with fuel := fuel } :=
  ⟨sized_of_memories rfl, h⟩

theorem works_charge (s : Heap) (cost : Nat) : Works s (s.charge cost) :=
  works_fuel (Nat.sub_le _ _)

end Heap
end ContainerHost.Guest
