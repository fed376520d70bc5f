import ContainerHost.Guest.HostFunc
/-!
# What host functions leave alone

Host functions write to the memory of their guest, look at its clock and draw from its generator.
What is kept whenever one of these is done is kept by a host function, however often it does them
(`Allows.call`); the functions that charge fuel or change the storage are the only ones that do
more. What is said of results that may not come is said with `Post`, which passes through the steps
of a host function one by one.

What is proved with it: each memory has as many pages afterwards as before (`sized_call`), only one
function changes the fuel (`fuel_call`), and only two the storage (`storage_call`).
-/

namespace ContainerHost.Guest

open Wasm (Memory Value)

/-- If there is a result, it is of this kind. -/
def Post {ε α : Type} (P : α → Prop) (r : Except ε α) : Prop := ∀ a, r = .ok a → P a

namespace Post

variable {ε α β : Type} {P : α → Prop} {Q : β → Prop}

theorem ok {a : α} (h : P a) : Post P (.ok a : Except ε α) := by
  intro a' ha
  cases ha
  exact h

theorem error (e : ε) : Post P (.error e : Except ε α) := by
  intro a ha
  cases ha

theorem bind {r : Except ε α} {f : α → Except ε β} (h : Post P r) (hf : ∀ a, P a → Post Q (f a)) :
    Post Q (r >>= f) := by
  cases r with
  | error e => exact error e
  | ok a => exact hf a (h a rfl)

/-- What is only read on the way may be anything. -/
theorem read {r : Except ε α} {f : α → Except ε β} (hf : ∀ a, Post Q (f a)) : Post Q (r >>= f) :=
  bind (P := fun _ => True) (fun _ _ => trivial) fun a _ => hf a

theorem map {r : Except ε α} {f : α → β} (h : Post P r) (hf : ∀ a, P a → Q (f a)) :
    Post Q (r.map f) := by
  cases r with
  | error e => exact error e
  | ok a => exact ok (hf a (h a rfl))

theorem foldlM {f : α → β → Except ε α} (hf : ∀ a b, P a → Post P (f a b)) {a : α} (h : P a)
    (l : List β) : Post P (l.foldlM f a) := by
  induction l generalizing a with
  | nil => exact ok h
  | cons b l ih => exact (hf a b h).bind fun a' ha => ih ha

end Post

/-! ## Stores -/

namespace Store

theorem draw_snd (s : Store) : ∃ entropy, s.draw.2 = { s with entropy := entropy } := ⟨_, rfl⟩

theorem toHeap_draw (s : Store) : s.draw.2.toHeap = s.toHeap := by
  obtain ⟨entropy, hdrawn⟩ := s.draw_snd
  rw [hdrawn]

end Store

/-! ## Writing -/

/-- Writing to a memory, looking at the clock, drawing a chance value and asking the system keep to
`R`. -/
structure Allows (R : Store → Store → Prop) : Prop where
  refl : ∀ s, R s s
  trans : ∀ {s t u}, R s t → R t u → R s u
  splice : ∀ (s : Store) (address ptr : Nat) (bytes : List UInt8),
    R s (s.modifyMemory address fun m => m.splice ptr bytes)
  paint : ∀ (s : Store) (address ptr : Nat) (v : UInt8) (len : Nat),
    R s (s.modifyMemory address fun m => m.paint ptr v len)
  look : ∀ s : Store, R s s.look.2
  draw : ∀ s : Store, R s s.draw.2
  ask : ∀ (s : Store) (c : SystemCall), R s (s.ask c)

namespace Allows

open HostFunc

variable {R : Store → Store → Prop} (hR : Allows R) (p : Place) (s : Store)

include hR

theorem writeBytes (ptr : Int) (bytes : List UInt8) :
    Post (R s) (Guest.writeBytes p s ptr bytes) := by
  unfold Guest.writeBytes
  refine .read fun am => ?_
  dsimp only
  split
  · exact .error _
  · split
    · exact .ok (hR.splice s _ _ bytes)
    · exact .error _

theorem fillBytes (ptr : Int) (len : Nat) (v : UInt8) :
    Post (R s) (Guest.fillBytes p s ptr len v) := by
  unfold Guest.fillBytes
  refine .read fun am => ?_
  dsimp only
  split
  · exact .error _
  · split
    · exact .ok (hR.paint s _ _ v len)
    · exact .error _

theorem copyOut (value : List UInt8) (out cap : Int) :
    Post (fun r => R s r.1) (Guest.copyOut p s value out cap) := by
  unfold Guest.copyOut
  exact (hR.writeBytes p s out _).bind fun t ht => .ok ht

/-- Reads a range, makes something of it and writes that. -/
theorem transfer (ptr len out : Int) (f : List UInt8 → List UInt8) :
    Post (R s) (do
      let n ← bounded len
      let bytes ← readBytes p s ptr n
      Guest.writeBytes p s out (f bytes)) :=
  .read fun _ => .read fun bytes => hR.writeBytes p s out (f bytes)

theorem runBufferCopy (dst src len : Int) : Post (R s) (runBufferCopy p s dst src len) :=
  hR.transfer p s src len dst id

theorem runBufferFill (dst : Int) (value : UInt32) (len : Int) :
    Post (R s) (runBufferFill p s dst value len) := by
  unfold HostFunc.runBufferFill
  exact .read fun n => hR.fillBytes p s dst n value.toUInt8

theorem runSha256 (ptr len out : Int) : Post (R s) (runSha256 p s ptr len out) := by
  unfold HostFunc.runSha256
  exact hR.transfer p s ptr len out fun bytes => Sha256.digest ⟨bytes.toArray⟩

theorem drawBytes (n : Nat) (bytes : List UInt8) : R s (drawBytes n bytes s).2 := by
  induction n generalizing bytes s with
  | zero => exact hR.refl s
  | succ n ih =>
    have hdrawn := hR.draw s
    unfold HostFunc.drawBytes
    generalize s.draw = drawn at hdrawn ⊢
    exact hR.trans hdrawn (ih drawn.2 _)

theorem runRandomFill (ptr len : Int) : Post (R s) (runRandomFill p s ptr len) := by
  unfold HostFunc.runRandomFill
  refine .read fun n => .read fun am => ?_
  dsimp only
  split
  · exact .error _
  · split
    -- the bytes are drawn before they are written, from the store that this leaves
    · intro t ht
      exact hR.trans (hR.drawBytes s n []) (hR.writeBytes p _ ptr _ t ht)
    · exact .error _

theorem runEnvGet (kptr klen out cap : Int) :
    Post (fun r => R s r.1) (runEnvGet p s kptr klen out cap) := by
  unfold HostFunc.runEnvGet
  refine .read fun key => ?_
  cases p.environment.get? key with
  | none => exact .ok (hR.refl s)
  | some value => exact hR.copyOut p s value.toUTF8.toList out cap

theorem runStorageGet (kptr klen out cap : Int) :
    Post (fun r => R s r.1) (runStorageGet p s kptr klen out cap) := by
  unfold HostFunc.runStorageGet
  refine .read fun key => ?_
  cases s.storage.get? key with
  | none => exact .ok (hR.refl s)
  | some value => exact hR.copyOut p s value out cap

theorem writeExported (writes : List (Nat × List UInt8)) :
    Post (R s) (writeExported p s writes) := by
  unfold HostFunc.writeExported
  split
  · refine Post.foldlM (P := R s) ?_ (hR.refl s) writes
    intro t w ht u hu
    exact hR.trans ht (hR.writeBytes p t _ _ u hu)
  · exact .ok (hR.refl s)

theorem runSystem (name : String) (args : List Value) :
    Post (fun a => R s a.1) (runSystem p s name args) := by
  have hlooked := hR.look s
  unfold HostFunc.runSystem
  -- the clock is looked at, a chance value is drawn, and the call is remembered
  generalize s.look = looked at hlooked ⊢
  have hdrawn := hR.trans hlooked (hR.draw looked.2)
  dsimp only
  generalize looked.2.draw = drawn at hdrawn ⊢
  split
  · split
    · rename_i hwritten
      exact .ok (hR.trans (hR.trans hdrawn (hR.ask _ _)) (hR.writeExported p _ _ _ hwritten))
    · exact .error _
  · exact .error _
  · exact .error _

end Allows

/-! ## Calls -/

section

variable {R : Store → Store → Prop} (p : Place) (s : Store)

namespace HostFunc

theorem post_gives {r : Except Refusal Store} (h : Post (R s) r) :
    Post (fun a => R s a.1) (gives r) := by
  cases r with
  | error e => exact .error _
  | ok t => exact .ok (h t rfl)

theorem post_gives32 {r : Except Refusal (Store × Int)} (h : Post (fun a => R s a.1) r) :
    Post (fun a => R s a.1) (gives32 r) := by
  cases r with
  | error e => exact .error _
  | ok t => exact .ok (h t rfl)

theorem post_taking {α : Type} {P : Store × List Value → Prop} (kind : List Value → Option α)
    (args : List Value) {f : α → Answer} (h : ∀ a, Post P (f a)) :
    Post P (taking kind args f) := by
  unfold taking
  cases kind args with
  | none => exact .error _
  | some a => exact h a

end HostFunc

open HostFunc Heap

/-- A host function that neither charges fuel nor changes the storage keeps to what `Allows` is
about. -/
theorem Allows.call (hR : Allows R) {f : HostFunc} (hfuel : f ≠ .fuelConsume)
    (hset : f ≠ .storageSet) (hremove : f ≠ .storageRemove) (args : List Value) :
    Post (fun a => R s a.1) (f.call p s args) := by
  have hself : R s s := hR.refl s
  have hlooked := hR.look s
  have hdrawn := hR.draw s
  unfold HostFunc.call
  -- of what the clock and the generator leave nothing else matters
  generalize s.look = looked at hlooked ⊢
  generalize s.draw = drawn at hdrawn ⊢
  cases f with
  | abort => exact post_taking words4 args fun _ => .error _
  | trace => exact .ok hself
  | math g => exact post_taking float args fun x => .ok hself
  | math2 g => exact post_taking floats args fun (x, y) => .ok hself
  | seed | nowMs | performanceNow | hrtime => exact post_taking noArgs args fun _ => .ok hlooked
  | random => exact post_taking noArgs args fun _ => .ok hdrawn
  | system name type => exact hR.runSystem p s name args
  | randomFill => exact post_taking words2 args fun _ => post_gives s (hR.runRandomFill p s _ _)
  | sha256 => exact post_taking words3 args fun _ => post_gives s (hR.runSha256 p s _ _ _)
  | envGet => exact post_taking words4 args fun _ => post_gives32 s (hR.runEnvGet p s _ _ _ _)
  | bufferCopy => exact post_taking words3 args fun _ => post_gives s (hR.runBufferCopy p s _ _ _)
  | bufferFill => exact post_taking words3 args fun _ => post_gives s (hR.runBufferFill p s _ _ _)
  | consoleLog =>
    refine post_taking words2 args fun (ptr, len) => post_gives s ?_
    exact .map (P := fun _ => True) (fun _ _ => trivial) fun _ _ => hself
  | storageGet =>
    exact post_taking words4 args fun _ => post_gives32 s (hR.runStorageGet p s _ _ _ _)
  | storageSet => exact absurd rfl hset
  | storageRemove => exact absurd rfl hremove
  | fuelConsume => exact absurd rfl hfuel
  | fetchAllowed | fuelRemaining | budgetMs =>
    exact post_taking noArgs args fun _ => .ok hself

/-- A host function that changes the storage changes nothing else. -/
theorem HostFunc.storage_only (f : HostFunc) (hf : f = .storageSet ∨ f = .storageRemove)
    (args : List Value) :
    Post (fun a => ∃ storage, a.1 = { s with storage := storage }) (f.call p s args) := by
  unfold HostFunc.call
  rcases hf with rfl | rfl
  · exact post_taking words4 args fun _ => post_gives
      (R := fun s t => ∃ storage, t = { s with storage := storage }) s
      (.read fun _ => .read fun _ => .ok ⟨_, rfl⟩)
  · exact post_taking words2 args fun _ => post_gives32
      (R := fun s t => ∃ storage, t = { s with storage := storage }) s
      (.read fun _ => .ok ⟨_, rfl⟩)

/-- A host function that charges fuel changes nothing else. -/
theorem HostFunc.fuel_only (args : List Value) :
    Post (fun a => ∃ fuel, a.1 = { s with fuel := fuel }) (HostFunc.fuelConsume.call p s args) := by
  unfold HostFunc.call
  refine post_taking long args fun n => post_gives32
    (R := fun s t => ∃ fuel, t = { s with fuel := fuel }) s (.ok ?_)
  unfold runFuelConsume
  split
  · exact ⟨_, rfl⟩
  · exact ⟨_, rfl⟩

/-! ## What is kept -/

/-- No host function changes the size of a memory. -/
theorem HostFunc.sized_call (f : HostFunc) (args : List Value) :
    Post (fun a => Sized s.toHeap a.1.toHeap) (f.call p s args) := by
  have hallows : Allows fun s t => Sized s.toHeap t.toHeap := {
    refl := fun s => .refl s.toHeap
    trans := Sized.trans
    splice := fun s address ptr bytes =>
      sized_modifyMemory s.toHeap address fun m => m.pageCount_splice ptr bytes
    paint := fun s address ptr v len =>
      sized_modifyMemory s.toHeap address fun m => m.pageCount_paint ptr v len
    look := fun s => .refl s.toHeap
    draw := fun s => by
      rw [s.toHeap_draw]
      exact .refl s.toHeap
    ask := fun s _ => .refl s.toHeap }
  by_cases hfuel : f = .fuelConsume
  · intro a ha
    subst hfuel
    obtain ⟨fuel, hfuel⟩ := HostFunc.fuel_only p s args a ha
    exact sized_of_memories (by rw [hfuel])
  · by_cases hstorage : f = .storageSet ∨ f = .storageRemove
    · intro a ha
      obtain ⟨storage, hstorage⟩ := HostFunc.storage_only p s f hstorage args a ha
      exact sized_of_memories (by rw [hstorage])
    · rw [not_or] at hstorage
      exact hallows.call p s hfuel hstorage.1 hstorage.2 args

/-- Only one host function changes the fuel. -/
theorem HostFunc.fuel_call {f : HostFunc} (hf : f ≠ .fuelConsume) (args : List Value) :
    Post (fun a => a.1.fuel = s.fuel) (f.call p s args) := by
  have hallows : Allows fun s t => t.fuel = s.fuel := {
    refl := fun _ => rfl
    trans := fun h k => k.trans h
    splice := fun _ _ _ _ => rfl
    paint := fun _ _ _ _ _ => rfl
    look := fun _ => rfl
    draw := fun s => by
      obtain ⟨entropy, hdrawn⟩ := s.draw_snd
      rw [hdrawn]
    ask := fun _ _ => rfl }
  by_cases hstorage : f = .storageSet ∨ f = .storageRemove
  · intro a ha
    obtain ⟨storage, hstorage⟩ := HostFunc.storage_only p s f hstorage args a ha
    rw [hstorage]
  · rw [not_or] at hstorage
    exact hallows.call p s hf hstorage.1 hstorage.2 args

/-- Only two host functions change the storage. -/
theorem HostFunc.storage_call {f : HostFunc} (hset : f ≠ .storageSet) (hremove : f ≠ .storageRemove)
    (args : List Value) : Post (fun a => a.1.storage = s.storage) (f.call p s args) := by
  have hallows : Allows fun s t => t.storage = s.storage := {
    refl := fun _ => rfl
    trans := fun h k => k.trans h
    splice := fun _ _ _ _ => rfl
    paint := fun _ _ _ _ _ => rfl
    look := fun _ => rfl
    draw := fun s => by
      obtain ⟨entropy, hdrawn⟩ := s.draw_snd
      rw [hdrawn]
    ask := fun _ _ => rfl }
  by_cases hfuel : f = .fuelConsume
  · intro a ha
    subst hfuel
    obtain ⟨fuel, hfuel⟩ := HostFunc.fuel_only p s args a ha
    rw [hfuel]
  · exact hallows.call p s hfuel hset hremove args

end

end ContainerHost.Guest
