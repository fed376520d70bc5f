import ContainerHost.Proofs.Guest.Blind
import ContainerHost.Proofs.Guest.Bytes
import ContainerHost.Proofs.Guest.Sizes
/-!
# The memory that a host function reaches

A guest may have several memories, and a host function is to use one of them. To say so, the others
are exchanged: `Store.swapOthers` puts anything in the place of each memory but one. A function that
gives the same answer to the exchanged store, and leaves that store as it leaves the other one apart
from what was exchanged, has read none of the others and changed none.

What is proved: every host function is like that for the memory of its place, however it ends, and
if there is that memory then none ever says that there is none (`call_swapOthers`). `Beside` are the
two stores, and host functions are blind to it (`Beside.blind`).
-/

namespace ContainerHost.Guest

open Wasm (Memory Value)

/-! ## Other memories -/

namespace Store

/-- The store with every memory but one exchanged. -/
def swapOthers (s : Store) (kept : Option Nat) (swap : Nat → Memory → Memory) : Store :=
  { s with memories := s.memories.mapIdx fun i m => if kept = some i then m else swap i m }

variable (s : Store) (a : Nat) (swap : Nat → Memory → Memory)

theorem memory?_swapOthers : (s.swapOthers (some a) swap).memory? a = s.memory? a := by
  unfold Heap.memory? swapOthers
  dsimp only
  rw [Array.getElem?_mapIdx]
  simp

theorem modifyMemory_swapOthers (f : Memory → Memory) :
    (s.swapOthers (some a) swap).modifyMemory a f =
      (s.modifyMemory a f).swapOthers (some a) swap := by
  refine congrArg (fun memories => ({ s with memories := memories } : Store)) ?_
  refine Array.ext_getElem? fun i => ?_
  simp only [swapOthers, modifyMemory, Heap.modifyMemory, Array.getElem?_modify,
    Array.getElem?_mapIdx, Option.some.injEq]
  by_cases hi : a = i
  · subst hi
    cases s.memories[a]? <;> simp
  · simp [hi]

/-- What is drawn is told by the generator alone. -/
theorem draw_of_entropy {s t : Store} (h : t.entropy = s.entropy) :
    t.draw.1 = s.draw.1 ∧ t.draw.2 = { t with entropy := s.draw.2.entropy } := by
  unfold draw
  rw [h]
  exact ⟨rfl, rfl⟩

theorem isSome_modifyMemory (f : Memory → Memory) (b : Nat) :
    ((s.modifyMemory a f).memory? b).isSome = (s.memory? b).isSome := by
  unfold modifyMemory Heap.modifyMemory Heap.memory?
  rw [Array.getElem?_modify]
  split <;> simp

end Store

/-- Two stores that have the memory of a place in common, and may differ in the others. -/
structure Beside (p : Place) (swap : Nat → Memory → Memory) (s t : Store) : Prop where
  eq : t = s.swapOthers p.hostMemory swap
  found : (s.hostMemory? p).isSome

namespace Beside

variable {p : Place} {swap : Nat → Memory → Memory} {s t : Store}

/-- What is changed beside the memories is changed in both. -/
theorem keep (h : Beside p swap s t) {s' t' : Store} (hs : s'.memories = s.memories)
    (ht : t' = s'.swapOthers p.hostMemory swap) : Beside p swap s' t' := by
  refine ⟨ht, ?_⟩
  have hfound := h.found
  unfold Store.hostMemory? Heap.memory? at hfound ⊢
  rwa [hs]

theorem memoryOf (h : Beside p swap s t) :
    Alike (· ≠ .noMemory) (fun x y => x = y ∧ p.hostMemory = some x.1)
      (Guest.memoryOf p s) (Guest.memoryOf p t) := by
  obtain ⟨rfl, hfound⟩ := h
  unfold Guest.memoryOf
  cases ha : p.hostMemory with
  | none => simp [Store.hostMemory?, ha] at hfound
  | some a =>
    dsimp only
    rw [Store.memory?_swapOthers]
    cases hm : s.memory? a with
    | none => simp [Store.hostMemory?, ha, hm] at hfound
    | some m => exact .ok ⟨rfl, rfl⟩

theorem modifyMemory (h : Beside p swap s t) {a : Nat} (ha : p.hostMemory = some a)
    (f : Memory → Memory) : Beside p swap (s.modifyMemory a f) (t.modifyMemory a f) := by
  obtain ⟨rfl, hfound⟩ := h
  rw [ha]
  refine ⟨?_, ?_⟩
  · rw [ha, Store.modifyMemory_swapOthers]
  · simp only [Store.hostMemory?, ha, Option.bind_some] at hfound ⊢
    rwa [Store.isSome_modifyMemory]

theorem draw (h : Beside p swap s t) :
    t.draw.1 = s.draw.1 ∧ Beside p swap s.draw.2 t.draw.2 := by
  have hentropy : t.entropy = s.entropy := by
    rw [h.eq]
    rfl
  obtain ⟨hvalue, hstore⟩ := Store.draw_of_entropy hentropy
  obtain ⟨e, he⟩ := s.draw_snd
  refine ⟨hvalue, ?_⟩
  rw [hstore, he, h.eq]
  exact h.keep rfl rfl

/-- The memory is there, so that none says that there is none. -/
theorem blind (p : Place) (swap : Nat → Memory → Memory) :
    Blind p (· ≠ .noMemory) (Beside p swap) where
  other _ he := he
  memoryOf := memoryOf
  modifyMemory h ha f := h.modifyMemory ha f
  look h := by
    obtain rfl := h.eq
    exact ⟨rfl, h.keep rfl rfl⟩
  draw := draw
  made h := by
    obtain rfl := h.eq
    rfl
  asked h := by
    obtain rfl := h.eq
    rfl
  ask h c := by
    obtain rfl := h.eq
    exact h.keep rfl rfl
  storage h := by
    obtain rfl := h.eq
    rfl
  store h storage := by
    obtain rfl := h.eq
    exact h.keep rfl rfl
  fuel h := by
    obtain rfl := h.eq
    rfl
  charge h cost := by
    obtain rfl := h.eq
    exact h.keep rfl rfl

end Beside

/-- With its memory there, a host function uses that one alone and does not miss it. -/
theorem call_swapOthers {p : Place} {s : Store} (hfound : (s.hostMemory? p).isSome)
    (swap : Nat → Memory → Memory) (f : HostFunc) (args : List Value) :
    f.call p (s.swapOthers p.hostMemory swap) args =
        (f.call p s args).map (fun r => (r.1.swapOthers p.hostMemory swap, r.2)) ∧
      f.call p s args ≠ .error (.refused .noMemory) := by
  have hbeside : Beside p swap s (s.swapOthers p.hostMemory swap) := ⟨rfl, hfound⟩
  have hcall := (Beside.blind p swap).call hbeside f args
  generalize f.call p s args = x at hcall ⊢
  generalize f.call p (s.swapOthers p.hostMemory swap) args = y at hcall ⊢
  cases hcall with
  | ok hst =>
    rename_i a b
    obtain ⟨a, results⟩ := a
    obtain ⟨b, results'⟩ := b
    obtain ⟨⟨rfl, -⟩, rfl⟩ := hst
    exact ⟨rfl, nofun⟩
  | error he =>
    refine ⟨rfl, fun heq => ?_⟩
    cases heq
    exact he rfl

end ContainerHost.Guest
