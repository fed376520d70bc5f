import ContainerHost.Guest.Machine
/-!
# How memories grow

Memories grow where a machine is asked for more, and never shrink. `Grown` says what may become of
the sizes of memories under a bound in pages: each stays or becomes larger, and none passes the
bound. Work between two pauses and answered requests keep to that (`Sized.grown`, `Grows.grown`),
and a request that would pass the bound is refused (`Grows.refused`).
-/

namespace ContainerHost.Guest.Heap

open Wasm (Memory)
open Limits (pageSize)

/-- The memories of `t` have become larger than those of `s` if anything, but not over the bound. -/
def Grown (bound : Nat) (s t : Heap) : Prop :=
  ∀ address n, s.pages? address = some n →
    ∃ n', t.pages? address = some n' ∧ n ≤ n' ∧ n' ≤ max n bound

variable {bound address delta n : Nat} {answer : UInt32} {s t u : Heap}

theorem Sized.grown (h : Sized s t) : Grown bound s t := by
  intro address n hn
  exact ⟨n, (h address).trans hn, Nat.le_refl n, Nat.le_max_left n bound⟩

theorem Grown.refl (s : Heap) : Grown bound s s := (Sized.refl s).grown

theorem Grown.trans (h : Grown bound s t) (k : Grown bound t u) : Grown bound s u := by
  intro address n hn
  obtain ⟨n', hn', hle, hmax⟩ := h address n hn
  obtain ⟨n'', hn'', hle', hmax'⟩ := k address n' hn'
  exact ⟨n'', hn'', by omega, by omega⟩

theorem grown_of_memories (h : t.memories = s.memories) : Grown bound s t :=
  (sized_of_memories h).grown

theorem Grows.grown (h : Grows (bound * pageSize) address delta s answer t) : Grown bound s t := by
  rcases h with ⟨-, hsame⟩ | ⟨n, hn, hlimit, -, hpages⟩
  · exact grown_of_memories hsame
  · have hbound : n + delta ≤ bound := Nat.le_of_mul_le_mul_right hlimit (by decide)
    intro a m hm
    rw [hpages a]
    by_cases ha : a = address
    · subst ha
      obtain rfl : n = m := Option.some.inj (hn.symm.trans hm)
      exact ⟨n + delta, if_pos rfl, by omega, by omega⟩
    · exact ⟨m, by rw [if_neg ha, hm], Nat.le_refl m, Nat.le_max_left m bound⟩

/-- A request that would pass the bound gets -1, and the memories stay as they are. -/
theorem Grows.refused (h : Grows (bound * pageSize) address delta s answer t)
    (hn : s.pages? address = some n) (hpast : bound < n + delta) :
    answer = 0xffffffff ∧ t.memories = s.memories := by
  rcases h with hrefused | ⟨m, hm, hlimit, -⟩
  · exact hrefused
  · obtain rfl : n = m := Option.some.inj (hn.symm.trans hm)
    have hbound : n + delta ≤ bound := Nat.le_of_mul_le_mul_right hlimit (by decide)
    omega

/-! ## Bytes -/

def bytesAt (s : Heap) (address : Option Nat) : Nat :=
  ((address.bind s.pages?).getD 0) * pageSize

theorem Grown.bytesAt (h : Grown bound s t) {address : Option Nat}
    (present : ∀ a, address = some a → (s.pages? a).isSome) :
    s.bytesAt address ≤ t.bytesAt address := by
  unfold Heap.bytesAt
  cases address with
  | none => exact Nat.le_refl _
  | some a =>
    obtain ⟨n, hn⟩ := Option.isSome_iff_exists.mp (present a rfl)
    obtain ⟨n', hn', hle, -⟩ := h a n hn
    simp only [Option.bind_some, hn, hn', Option.getD_some]
    exact Nat.mul_le_mul_right _ hle

theorem Sized.bytesAt (h : Sized s t) (address : Option Nat) :
    t.bytesAt address = s.bytesAt address := by
  unfold Heap.bytesAt
  rw [funext h]

theorem bytesAt_of_memories (h : t.memories = s.memories) (address : Option Nat) :
    t.bytesAt address = s.bytesAt address := (sized_of_memories h).bytesAt address

end ContainerHost.Guest.Heap
