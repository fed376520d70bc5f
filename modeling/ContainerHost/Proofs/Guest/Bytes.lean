import ContainerHost.Guest.Store
/-!
# The bytes of a memory

A memory is made of pages, and host functions read and write ranges of bytes in it wherever these
fall. Here a range that was written is described byte by byte: inside are the new bytes, and outside
those that were there (`byte_splice`). What host functions use is the one memory of their place
(`Store.byteAt`), and `Wrote` says that a store differs from another by some bytes there and by
nothing else.

What is proved: reading and writing come back exactly if the range is inside (`exactly_readBytes`,
`exactly_writeBytes`).
-/

open ContainerHost.Limits (pageSize)

namespace ContainerHost.Wasm

theorem Page.get_set (p : Page) {i j : Nat} (hi : i < pageSize) (hj : j < pageSize) (v : UInt8) :
    (p.set i v hi).get j hj = if j = i then v else p.get j hj := by
  obtain ⟨⟨bytes⟩, hsize⟩ := p
  have hlt : i < bytes.size := Nat.lt_of_lt_of_eq hi hsize.symm
  refine (Array.getElem_set hlt _).trans ?_
  by_cases hplace : j = i
  · rw [if_pos hplace, if_pos hplace.symm]
  · rw [if_neg hplace, if_neg (Ne.symm hplace)]
    rfl

namespace Memory

theorem page_of_address {a : Nat} (m : Memory) (h : a < m.byteSize) :
    a / pageSize < m.pages.size := by
  have hlt : a < pageSize * m.pages.size := by
    rw [Nat.mul_comm]
    exact h
  exact Nat.div_lt_of_lt_mul hlt

theorem eq_of_page {a i : Nat} (hpage : a / pageSize = i / pageSize)
    (hplace : i % pageSize = a % pageSize) : i = a := by
  rw [← Nat.div_add_mod i pageSize, ← hpage, hplace, Nat.div_add_mod]

/-- A byte that is written stands at its address, and the others where they were. -/
theorem byte_setByte (m : Memory) {a : Nat} (h : a < m.byteSize) (v : UInt8) (i : Nat) :
    (m.setByte a v).byte i = if i = a then v else m.byte i := by
  have hpage := m.page_of_address h
  unfold byte setByte
  simp only [Array.getElem?_modify]
  by_cases hsame : a / pageSize = i / pageSize
  · rw [if_pos hsame, ← hsame, Array.getElem?_eq_getElem hpage, Option.map_some]
    dsimp only
    rw [Page.get_set]
    by_cases hi : i = a
    · rw [if_pos hi, if_pos (by rw [hi])]
    · rw [if_neg hi, if_neg fun hplace => hi (eq_of_page hsame hplace)]
  · have hne : i ≠ a := fun heq => hsame (heq ▸ rfl)
    rw [if_neg hsame, if_neg hne]

@[simp] theorem byteSize_setByte (m : Memory) (a : Nat) (v : UInt8) :
    (m.setByte a v).byteSize = m.byteSize := by
  simp [byteSize_eq]

@[simp] theorem byteSize_splice (m : Memory) (a : Nat) (bytes : List UInt8) :
    (m.splice a bytes).byteSize = m.byteSize := by
  simp [byteSize_eq]

@[simp] theorem max_splice (m : Memory) (a : Nat) (bytes : List UInt8) :
    (m.splice a bytes).max = m.max := by
  induction bytes generalizing m a with
  | nil => rfl
  | cons b bytes ih => exact ih (m.setByte a b) (a + 1)

/-- A range that is written holds the bytes, and outside it nothing changes. -/
theorem byte_splice (m : Memory) {a : Nat} {bytes : List UInt8}
    (h : a + bytes.length ≤ m.byteSize) (i : Nat) :
    (m.splice a bytes).byte i =
      if a ≤ i ∧ i < a + bytes.length then bytes.getD (i - a) 0 else m.byte i := by
  induction bytes generalizing m a with
  | nil =>
    rw [if_neg (by simp only [List.length_nil]; omega)]
    rfl
  | cons b bytes ih =>
    rw [List.length_cons] at h ⊢
    rw [splice, ih (m.setByte a b) (by rw [byteSize_setByte]; omega),
      byte_setByte m (by omega)]
    -- the first byte, those behind it, and all others
    rcases Nat.lt_trichotomy i a with hlt | rfl | hgt
    · rw [if_neg (by omega), if_neg (by omega), if_neg (by omega)]
    · rw [if_neg (by omega), if_pos rfl, if_pos (by omega), Nat.sub_self]
      rfl
    · by_cases hin : i < a + 1 + bytes.length
      · obtain ⟨k, rfl⟩ := Nat.exists_eq_add_of_lt hgt
        rw [if_pos (by omega), if_pos (by omega), show a + k + 1 - (a + 1) = k by omega,
          show a + k + 1 - a = k + 1 by omega]
        rfl
      · rw [if_neg (by omega), if_neg (by omega), if_neg (by omega)]

/-- Filling a range is writing the same byte all over it. -/
theorem paint_eq (m : Memory) (a : Nat) (v : UInt8) (n : Nat) :
    m.paint a v n = m.splice a (List.replicate n v) := by
  induction n generalizing m a with
  | zero => rfl
  | succ n ih => exact ih (m.setByte a v) (a + 1)

end Memory
end ContainerHost.Wasm

namespace ContainerHost.Guest

open Wasm (Memory)

namespace Store

def hostMemory? (s : Store) (p : Place) : Option Memory := p.hostMemory.bind s.memory?

/-- A byte of that memory; zero outside. -/
def byteAt (s : Store) (p : Place) (i : Nat) : UInt8 := ((s.hostMemory? p).map (·.byte i)).getD 0

def bytesFrom (s : Store) (p : Place) (ptr len : Nat) : List UInt8 :=
  (List.range len).map fun i => s.byteAt p (ptr + i)

/-- The range of `len` bytes at `ptr` lies inside that memory, and neither number is negative. -/
def Inside (s : Store) (p : Place) (ptr len : Int) : Prop :=
  0 ≤ ptr ∧ 0 ≤ len ∧ ∃ m, s.hostMemory? p = some m ∧ ptr + len ≤ m.byteSize

end Store

open Store

/-- `t` differs from `s` by these bytes at `ptr` in the memory that host functions use, and by
nothing else. -/
structure Wrote (p : Place) (s t : Store) (ptr : Nat) (bytes : List UInt8) : Prop where
  bytes : ∀ i, t.byteAt p i =
    if ptr ≤ i ∧ i < ptr + bytes.length then bytes.getD (i - ptr) 0 else s.byteAt p i
  shape : (t.hostMemory? p).map (fun m => (m.pageCount, m.max)) =
    (s.hostMemory? p).map fun m => (m.pageCount, m.max)
  others : ∀ a, p.hostMemory ≠ some a → t.memory? a = s.memory? a
  rest : t = { s with memories := t.memories }

/-- It comes back exactly if something is so, and then with a result of this kind. -/
structure Exactly {ε α : Type} (r : Except ε α) (fine : Prop) (P : α → Prop) : Prop where
  comes : fine → ∃ a, r = .ok a ∧ P a
  fails : ¬ fine → ∃ e, r = .error e

namespace Exactly

variable {ε α β : Type} {r : Except ε α} {fine B : Prop} {P : α → Prop} {Q : β → Prop}

theorem ok {a : α} (h : P a) : Exactly (.ok a : Except ε α) True P :=
  ⟨fun _ => ⟨a, rfl, h⟩, fun hfalse => (hfalse trivial).elim⟩

theorem spec (h : Exactly r fine P) {a : α} (hok : r = .ok a) : P a := by
  by_cases hfine : fine
  · obtain ⟨a', ha', hP⟩ := h.comes hfine
    rw [hok] at ha'
    cases ha'
    exact hP
  · obtain ⟨e, he⟩ := h.fails hfine
    rw [hok] at he
    cases he

theorem bind {f : α → Except ε β} (h : Exactly r fine P)
    (hf : ∀ a, P a → Exactly (f a) B Q) : Exactly (r >>= f) (fine ∧ B) Q := by
  refine ⟨fun ⟨hfine, hmore⟩ => ?_, fun hnot => ?_⟩
  · obtain ⟨a, rfl, ha⟩ := h.comes hfine
    exact (hf a ha).comes hmore
  · by_cases hfine : fine
    · obtain ⟨a, rfl, ha⟩ := h.comes hfine
      exact (hf a ha).fails fun hmore => hnot ⟨hfine, hmore⟩
    · obtain ⟨e, rfl⟩ := h.fails hfine
      exact ⟨e, rfl⟩

theorem congr (h : Exactly r fine P) (hfine : fine ↔ B) : Exactly r B P :=
  ⟨fun hmore => h.comes (hfine.mpr hmore), fun hnot => h.fails fun hf => hnot (hfine.mp hf)⟩

end Exactly

variable {p : Place} {s : Store}

/-- Either there is no memory for host functions, or there is one. -/
theorem memoryOf_cases (p : Place) (s : Store) :
    (s.hostMemory? p = none ∧ memoryOf p s = .error .noMemory) ∨
      ∃ a m, p.hostMemory = some a ∧ s.memory? a = some m ∧ s.hostMemory? p = some m ∧
        memoryOf p s = .ok (a, m) := by
  unfold memoryOf hostMemory?
  cases p.hostMemory with
  | none => exact .inl ⟨rfl, rfl⟩
  | some a =>
    cases hm : s.memory? a with
    | none => exact .inl ⟨hm, by simp only [hm]⟩
    | some m => exact .inr ⟨a, m, rfl, hm, hm, by simp only [hm]⟩

theorem inside_iff {m : Memory} (hm : s.hostMemory? p = some m) (ptr len : Int) :
    s.Inside p ptr len ↔ 0 ≤ ptr ∧ 0 ≤ len ∧ ptr + len ≤ m.byteSize := by
  unfold Inside
  rw [hm]
  simp

theorem not_inside_of_none (hnone : s.hostMemory? p = none) (ptr len : Int) :
    ¬ s.Inside p ptr len := by
  rintro ⟨-, -, m, hm, -⟩
  rw [hnone] at hm
  cases hm

theorem bytesFrom_eq {m : Memory} (h : s.hostMemory? p = some m) (ptr len : Nat) :
    s.bytesFrom p ptr len = m.slice ptr len := by
  unfold bytesFrom byteAt
  rw [h]
  rfl

@[simp] theorem length_bytesFrom (s : Store) (p : Place) (ptr len : Nat) :
    (s.bytesFrom p ptr len).length = len := by
  simp [bytesFrom]

/-- Reading comes back exactly if the range is inside, and then with its bytes. -/
theorem exactly_readBytes (p : Place) (s : Store) (ptr len : Int) :
    Exactly (readBytes p s ptr len) (s.Inside p ptr len)
      (· = s.bytesFrom p ptr.toNat len.toNat) := by
  unfold readBytes
  rcases memoryOf_cases p s with ⟨hnone, herror⟩ | ⟨a, m, -, -, hm, hok⟩
  · rw [herror]
    exact ⟨fun h => (not_inside_of_none hnone _ _ h).elim, fun _ => ⟨_, rfl⟩⟩
  · rw [hok]
    simp only [bind, Except.bind]
    refine Exactly.congr ?_ (inside_iff hm ptr len).symm
    refine ⟨fun ⟨hptr, hlen, hend⟩ => ?_, fun hnot => ?_⟩
    · have hfits : m.fits ptr.toNat len.toNat = true := by
        rw [Memory.fits, decide_eq_true_eq]
        omega
      refine ⟨m.slice ptr.toNat len.toNat, ?_, (bytesFrom_eq hm _ _).symm⟩
      rw [if_neg (by omega), if_neg (by omega), Memory.read?, if_pos hfits]
    · split
      · exact ⟨_, rfl⟩
      · split
        · exact ⟨_, rfl⟩
        · have hfits : ¬ m.fits ptr.toNat len.toNat = true := by
            rw [Memory.fits, decide_eq_true_eq]
            omega
          exact ⟨_, by rw [Memory.read?, if_neg hfits]⟩

/-- A range of the memory that host functions use is written. -/
theorem wrote_splice {a ptr : Nat} {m : Memory} {bytes : List UInt8} (ha : p.hostMemory = some a)
    (hm : s.memory? a = some m) (hend : ptr + bytes.length ≤ m.byteSize) :
    Wrote p s (s.modifyMemory a fun m => m.splice ptr bytes) ptr bytes := by
  have hbefore : s.hostMemory? p = some m := by rw [hostMemory?, ha, Option.bind_some, hm]
  have hafter : (s.modifyMemory a fun m => m.splice ptr bytes).hostMemory? p =
      some (m.splice ptr bytes) := by
    rw [hostMemory?, ha, Option.bind_some, Heap.memory?, modifyMemory, Heap.modifyMemory,
      Array.getElem?_modify,
      if_pos rfl]
    exact congrArg _ hm
  refine ⟨fun i => ?_, ?_, fun a' ha' => ?_, rfl⟩
  · simp only [byteAt, hbefore, hafter, Option.map_some, Option.getD_some]
    exact m.byte_splice hend i
  · simp [hbefore, hafter]
  · have hne : a ≠ a' := fun heq => ha' (heq ▸ ha)
    rw [Heap.memory?, modifyMemory, Heap.modifyMemory, Array.getElem?_modify, if_neg hne]
    rfl

/-- Writing comes back exactly if the range is inside, and then the bytes stand there. -/
theorem exactly_writeBytes (p : Place) (s : Store) (ptr : Int) (bytes : List UInt8) :
    Exactly (writeBytes p s ptr bytes) (s.Inside p ptr bytes.length)
      (Wrote p s · ptr.toNat bytes) := by
  unfold writeBytes
  rcases memoryOf_cases p s with ⟨hnone, herror⟩ | ⟨a, m, ha, hma, hm, hok⟩
  · rw [herror]
    exact ⟨fun h => (not_inside_of_none hnone _ _ h).elim, fun _ => ⟨_, rfl⟩⟩
  · rw [hok]
    simp only [bind, Except.bind]
    refine Exactly.congr ?_ (inside_iff hm ptr bytes.length).symm
    refine ⟨fun ⟨hptr, _, hend⟩ => ?_, fun hnot => ?_⟩
    · have hfits : m.fits ptr.toNat bytes.length = true := by
        rw [Memory.fits, decide_eq_true_eq]
        omega
      exact ⟨_, by rw [if_neg (by omega), if_pos hfits], wrote_splice ha hma (by omega)⟩
    · split
      · exact ⟨_, rfl⟩
      · have hfits : ¬ m.fits ptr.toNat bytes.length = true := by
          rw [Memory.fits, decide_eq_true_eq]
          omega
        exact ⟨_, by rw [if_neg hfits]⟩

theorem fillBytes_eq (p : Place) (s : Store) (ptr : Int) (len : Nat) (v : UInt8) :
    fillBytes p s ptr len v = writeBytes p s ptr (List.replicate len v) := by
  simp only [fillBytes, writeBytes, Memory.paint_eq, List.length_replicate]

end ContainerHost.Guest
