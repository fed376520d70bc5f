import ContainerHost.Guest.HostFunc
/-!
# What host functions do not see

Two stores may differ in something that host functions neither look at nor change. A host function
that is called with the one and with the other then gives the same answer, and leaves two stores
that differ in the same way; or it fails with both, for the same reason. `Blind` is what has to be
so of a relation between stores for that: what is asked of the relation is about the few things that
host functions are made of.

What is proved: every host function is blind to such a relation (`Blind.call`). `Alike` is what is
said of two results; it passes through the steps of a host function one by one.
-/

namespace ContainerHost.Guest

open Wasm (Memory Value)

/-! ## Two results -/

/-- Both come, and are of this kind together, or both fail for the same reason, which is of that
kind. -/
inductive Alike {ε α β : Type} (E : ε → Prop) (R : α → β → Prop) :
    Except ε α → Except ε β → Prop where
  | ok {a : α} {b : β} (h : R a b) : Alike E R (.ok a) (.ok b)
  | error {e : ε} (h : E e) : Alike E R (.error e) (.error e)

namespace Alike

variable {ε α β γ δ : Type} {E : ε → Prop} {R : α → β → Prop} {Q : γ → δ → Prop}
  {x : Except ε α} {y : Except ε β}

theorem bind (h : Alike E R x y) {f : α → Except ε γ} {g : β → Except ε δ}
    (hfg : ∀ a b, R a b → Alike E Q (f a) (g b)) : Alike E Q (x >>= f) (y >>= g) := by
  cases h with
  | ok hab => exact hfg _ _ hab
  | error he => exact .error he

theorem map (h : Alike E R x y) {f : α → γ} {g : β → δ} (hfg : ∀ a b, R a b → Q (f a) (g b)) :
    Alike E Q (x.map f) (y.map g) := by
  cases h with
  | ok hab => exact .ok (hfg _ _ hab)
  | error he => exact .error he

/-- Results that are the same, with what follows from each. -/
theorem bind_eq {z w : Except ε α} (h : Alike E Eq z w) {f : α → Except ε γ} {g : α → Except ε δ}
    (hfg : ∀ a, Alike E Q (f a) (g a)) : Alike E Q (z >>= f) (w >>= g) := by
  refine h.bind ?_
  rintro a b rfl
  exact hfg a

theorem eq {z w : Except ε α} (h : Alike E Eq z w) : w = z := by
  cases h with
  | ok hab => rw [hab]
  | error he => rfl

end Alike

/-! ## What host functions do not see -/

/-- What has to be so for host functions not to see how two stores differ that are related by `R`:
the memory of the place is the same in both and changes in both, what they look at beside the
memories is the same in both, and what they change of it they change in both. `E` is to hold of
every refusal but that there is no memory. -/
structure Blind (p : Place) (E : Refusal → Prop) (R : Store → Store → Prop) : Prop where
  other : ∀ e, e ≠ .noMemory → E e
  memoryOf : ∀ {s t}, R s t →
    Alike E (fun x y => x = y ∧ p.hostMemory = some x.1) (memoryOf p s) (memoryOf p t)
  modifyMemory : ∀ {s t a}, R s t → p.hostMemory = some a → ∀ f : Memory → Memory,
    R (s.modifyMemory a f) (t.modifyMemory a f)
  look : ∀ {s t}, R s t → t.look.1 = s.look.1 ∧ R s.look.2 t.look.2
  draw : ∀ {s t}, R s t → t.draw.1 = s.draw.1 ∧ R s.draw.2 t.draw.2
  made : ∀ {s t}, R s t → t.made = s.made
  asked : ∀ {s t}, R s t → t.asked = s.asked
  ask : ∀ {s t}, R s t → ∀ c, R (s.ask c) (t.ask c)
  storage : ∀ {s t}, R s t → t.storage = s.storage
  store : ∀ {s t}, R s t → ∀ storage, R { s with storage := storage } { t with storage := storage }
  fuel : ∀ {s t}, R s t → t.fuel = s.fuel
  charge : ∀ {s t}, R s t → ∀ cost, R (s.charge cost) (t.charge cost)

/-- The ends of a host function with these refusals. None of them is a trap of the machine. -/
def Stop.Of (E : Refusal → Prop) : Stop → Prop
  | .refused e => E e
  | .exit _ => True
  | .trap _ => False

/-- A store and an answer: the stores are related, and the answers are the same. -/
def With {α : Type} (R : Store → Store → Prop) (x y : Store × α) : Prop := R x.1 y.1 ∧ x.2 = y.2

namespace Blind

open HostFunc

variable {p : Place} {E : Refusal → Prop} {R : Store → Store → Prop} (hR : Blind p E R)
  {s t : Store}

include hR

/-! ### Bytes -/

theorem readBytes (h : R s t) (ptr len : Int) :
    Alike E Eq (Guest.readBytes p s ptr len) (Guest.readBytes p t ptr len) := by
  unfold Guest.readBytes
  refine (hR.memoryOf h).bind ?_
  rintro ⟨a, m⟩ _ ⟨rfl, -⟩
  dsimp only
  split
  · exact .error (hR.other _ nofun)
  · split
    · exact .error (hR.other _ nofun)
    · cases m.read? ptr.toNat len.toNat with
      | none => exact .error (hR.other _ nofun)
      | some bytes => exact .ok rfl

theorem writeBytes (h : R s t) (ptr : Int) (bytes : List UInt8) :
    Alike E R (Guest.writeBytes p s ptr bytes) (Guest.writeBytes p t ptr bytes) := by
  unfold Guest.writeBytes
  refine (hR.memoryOf h).bind ?_
  rintro ⟨a, m⟩ _ ⟨rfl, ha⟩
  dsimp only
  split
  · exact .error (hR.other _ nofun)
  · split
    · exact .ok (hR.modifyMemory h ha _)
    · exact .error (hR.other _ nofun)

theorem fillBytes (h : R s t) (ptr : Int) (len : Nat) (v : UInt8) :
    Alike E R (Guest.fillBytes p s ptr len v) (Guest.fillBytes p t ptr len v) := by
  unfold Guest.fillBytes
  refine (hR.memoryOf h).bind ?_
  rintro ⟨a, m⟩ _ ⟨rfl, ha⟩
  dsimp only
  split
  · exact .error (hR.other _ nofun)
  · split
    · exact .ok (hR.modifyMemory h ha _)
    · exact .error (hR.other _ nofun)

theorem readText (h : R s t) (ptr len : Int) :
    Alike E Eq (Guest.readText p s ptr len) (Guest.readText p t ptr len) :=
  (hR.readBytes h ptr _).bind_eq fun _ => .ok rfl

theorem readPrefixedText? (h : R s t) (ptr : Int) :
    Guest.readPrefixedText? p t ptr = Guest.readPrefixedText? p s ptr := by
  have hread (ptr len : Int) : Guest.readBytes p t ptr len = Guest.readBytes p s ptr len :=
    (hR.readBytes h ptr len).eq
  unfold Guest.readPrefixedText?
  simp only [hread]

theorem copyOut (h : R s t) (value : List UInt8) (out cap : Int) :
    Alike E (With R) (Guest.copyOut p s value out cap) (Guest.copyOut p t value out cap) :=
  (hR.writeBytes h out _).bind fun _ _ hst => .ok ⟨hst, rfl⟩

/-! ### Host functions -/

theorem bounded (len : Int) : Alike E Eq (bounded len) (bounded len) := by
  unfold HostFunc.bounded
  split
  · exact .ok rfl
  · exact .error (hR.other _ nofun)

theorem runAbort (h : R s t) (message file line column : Int) :
    runAbort p t message file line column = runAbort p s message file line column := by
  unfold HostFunc.runAbort
  rw [hR.readPrefixedText? h, hR.readPrefixedText? h]

theorem transfer (h : R s t) (ptr len out : Int) (f : List UInt8 → List UInt8) :
    Alike E R
      (do
        let n ← HostFunc.bounded len
        let bytes ← Guest.readBytes p s ptr n
        Guest.writeBytes p s out (f bytes))
      (do
        let n ← HostFunc.bounded len
        let bytes ← Guest.readBytes p t ptr n
        Guest.writeBytes p t out (f bytes)) :=
  (hR.bounded len).bind_eq fun n => (hR.readBytes h ptr n).bind_eq fun bytes =>
    hR.writeBytes h out (f bytes)

theorem runBufferCopy (h : R s t) (dst src len : Int) :
    Alike E R (runBufferCopy p s dst src len) (runBufferCopy p t dst src len) :=
  hR.transfer h src len dst id

theorem runSha256 (h : R s t) (ptr len out : Int) :
    Alike E R (runSha256 p s ptr len out) (runSha256 p t ptr len out) :=
  hR.transfer h ptr len out fun bytes => Sha256.digest ⟨bytes.toArray⟩

theorem runBufferFill (h : R s t) (dst : Int) (v : UInt32) (len : Int) :
    Alike E R (runBufferFill p s dst v len) (runBufferFill p t dst v len) :=
  (hR.bounded len).bind_eq fun n => hR.fillBytes h dst n v.toUInt8

theorem drawBytes (h : R s t) (n : Nat) (bytes : List UInt8) :
    (drawBytes n bytes t).1 = (drawBytes n bytes s).1 ∧
      R (HostFunc.drawBytes n bytes s).2 (HostFunc.drawBytes n bytes t).2 := by
  induction n generalizing bytes s t with
  | zero => exact ⟨rfl, h⟩
  | succ n ih =>
    obtain ⟨hvalue, hdrawn⟩ := hR.draw h
    unfold HostFunc.drawBytes
    dsimp only
    rw [hvalue]
    exact ih hdrawn _

theorem runRandomFill (h : R s t) (ptr len : Int) :
    Alike E R (runRandomFill p s ptr len) (runRandomFill p t ptr len) := by
  unfold HostFunc.runRandomFill
  refine (hR.bounded len).bind_eq fun n => (hR.memoryOf h).bind ?_
  rintro ⟨a, m⟩ _ ⟨rfl, -⟩
  obtain ⟨hbytes, hdrawn⟩ := hR.drawBytes h n []
  dsimp only
  rw [hbytes]
  split
  · exact .error (hR.other _ nofun)
  · split
    · exact hR.writeBytes hdrawn ptr _
    · exact .error (hR.other _ nofun)

theorem runEnvGet (h : R s t) (k n out cap : Int) :
    Alike E (With R) (runEnvGet p s k n out cap) (runEnvGet p t k n out cap) := by
  unfold HostFunc.runEnvGet
  refine (hR.readText h k n).bind_eq fun key => ?_
  cases p.environment.get? key with
  | none => exact .ok ⟨h, rfl⟩
  | some value => exact hR.copyOut h _ out cap

theorem runStorageGet (h : R s t) (k n out cap : Int) :
    Alike E (With R) (runStorageGet p s k n out cap) (runStorageGet p t k n out cap) := by
  unfold HostFunc.runStorageGet
  rw [hR.storage h]
  refine (hR.readText h k n).bind_eq fun key => ?_
  cases s.storage.get? key with
  | none => exact .ok ⟨h, rfl⟩
  | some value => exact hR.copyOut h _ out cap

theorem runStorageSet (h : R s t) (k n v m : Int) :
    Alike E R (runStorageSet p s k n v m) (runStorageSet p t k n v m) := by
  unfold HostFunc.runStorageSet
  rw [hR.storage h]
  exact (hR.readText h k n).bind_eq fun key => (hR.readBytes h v m).bind_eq fun value =>
    .ok (hR.store h _)

theorem runStorageRemove (h : R s t) (k n : Int) :
    Alike E (With R) (runStorageRemove p s k n) (runStorageRemove p t k n) := by
  unfold HostFunc.runStorageRemove
  rw [hR.storage h]
  exact (hR.readText h k n).bind_eq fun key => .ok ⟨hR.store h _, rfl⟩

theorem runFuelConsume (h : R s t) (amount : Int) :
    With R (runFuelConsume s amount) (runFuelConsume t amount) := by
  unfold HostFunc.runFuelConsume
  rw [hR.fuel h]
  split
  · exact ⟨hR.charge h _, rfl⟩
  · exact ⟨h, rfl⟩

theorem exportedMemory? (h : R s t) : exportedMemory? p t = exportedMemory? p s := by
  have hmemory := hR.memoryOf h
  unfold HostFunc.exportedMemory?
  generalize Guest.memoryOf p s = x at hmemory ⊢
  generalize Guest.memoryOf p t = y at hmemory ⊢
  cases hmemory with
  | ok heq => rw [heq.1]
  | error he => rfl

theorem writeExported (h : R s t) (writes : List (Nat × List UInt8)) :
    Alike E R (writeExported p s writes) (writeExported p t writes) := by
  unfold HostFunc.writeExported
  split
  · induction writes generalizing s t with
    | nil => exact .ok h
    | cons w writes ih =>
      rw [List.foldlM_cons, List.foldlM_cons]
      exact (hR.writeBytes h _ w.2).bind fun _ _ hwritten => ih hwritten
  · exact .ok h

/-- The system is shown the same, and so answers the same. -/
theorem runSystem (h : R s t) (name : String) (args : List Value) :
    Alike (Stop.Of E) (With R) (runSystem p s name args) (runSystem p t name args) := by
  obtain ⟨hlook, hlooked⟩ := hR.look h
  obtain ⟨hdraw, hdrawn⟩ := hR.draw hlooked
  unfold HostFunc.runSystem
  dsimp only
  rw [hR.exportedMemory? h, hlook, hdraw, hR.made hdrawn, hR.asked hdrawn]
  split
  · rename_i errno writes _
    have hwritten := hR.writeExported (hR.ask hdrawn
      ⟨name, args, p.environment, p.preopened, HostFunc.exportedMemory? p s,
        s.look.2.draw.2.made + s.look.1, s.look.2.draw.1⟩) writes
    generalize HostFunc.writeExported p (s.look.2.draw.2.ask _) writes = x at hwritten ⊢
    generalize HostFunc.writeExported p (t.look.2.draw.2.ask _) writes = y at hwritten ⊢
    cases hwritten with
    | ok hst => exact .ok ⟨hst, rfl⟩
    | error he => exact .error he
  · exact .error trivial
  · exact .error (hR.other _ nofun)

/-! ### Calls -/

omit hR in
theorem alike_gives {x y : Except Refusal Store} (h : Alike E R x y) :
    Alike (Stop.Of E) (With R) (gives x) (gives y) := by
  cases h with
  | ok hst => exact .ok ⟨hst, rfl⟩
  | error he => exact .error he

omit hR in
theorem alike_gives32 {x y : Except Refusal (Store × Int)} (h : Alike E (With R) x y) :
    Alike (Stop.Of E) (With R) (gives32 x) (gives32 y) := by
  cases h with
  | ok hst =>
    refine .ok ⟨hst.1, ?_⟩
    dsimp only
    rw [hst.2]
  | error he => exact .error he

theorem alike_taking {α : Type} (kind : List Value → Option α) (args : List Value)
    {f g : α → Answer} (h : ∀ a, Alike (Stop.Of E) (With R) (f a) (g a)) :
    Alike (Stop.Of E) (With R) (taking kind args f) (taking kind args g) := by
  unfold taking
  cases kind args with
  | none => exact .error (hR.other _ nofun)
  | some a => exact h a

/-- One case for each host function, with the same steps on both sides. -/
theorem call (h : R s t) (f : HostFunc) (args : List Value) :
    Alike (Stop.Of E) (With R) (f.call p s args) (f.call p t args) := by
  -- the clock and chance are the same on both sides
  obtain ⟨hlook, hlooked⟩ := hR.look h
  obtain ⟨hdraw, hdrawn⟩ := hR.draw h
  unfold HostFunc.call
  cases f with
  | abort =>
    refine hR.alike_taking words4 args fun (m, file, line, column) => ?_
    dsimp only
    rw [hR.runAbort h]
    exact .error (hR.other _ nofun)
  | trace => exact .ok ⟨h, rfl⟩
  | math g => exact hR.alike_taking float args fun x => .ok ⟨h, rfl⟩
  | math2 g => exact hR.alike_taking floats args fun (x, y) => .ok ⟨h, rfl⟩
  | seed | nowMs =>
    refine hR.alike_taking noArgs args fun _ => ?_
    dsimp only
    unfold wallMillis
    rw [hlook, hR.made hlooked]
    exact .ok ⟨hlooked, rfl⟩
  | performanceNow | hrtime =>
    refine hR.alike_taking noArgs args fun _ => ?_
    dsimp only
    rw [hlook]
    exact .ok ⟨hlooked, rfl⟩
  | random =>
    refine hR.alike_taking noArgs args fun _ => ?_
    dsimp only
    rw [hdraw]
    exact .ok ⟨hdrawn, rfl⟩
  | system name type => exact hR.runSystem h name args
  | randomFill => exact hR.alike_taking words2 args fun _ => alike_gives (hR.runRandomFill h _ _)
  | sha256 => exact hR.alike_taking words3 args fun _ => alike_gives (hR.runSha256 h _ _ _)
  | envGet => exact hR.alike_taking words4 args fun _ => alike_gives32 (hR.runEnvGet h _ _ _ _)
  | bufferCopy => exact hR.alike_taking words3 args fun _ => alike_gives (hR.runBufferCopy h _ _ _)
  | bufferFill => exact hR.alike_taking words3 args fun _ => alike_gives (hR.runBufferFill h _ _ _)
  | consoleLog =>
    exact hR.alike_taking words2 args fun (ptr, len) => alike_gives <|
      (hR.readText h _ _).map fun _ _ _ => h
  | storageGet =>
    exact hR.alike_taking words4 args fun _ => alike_gives32 (hR.runStorageGet h _ _ _ _)
  | storageSet =>
    exact hR.alike_taking words4 args fun _ => alike_gives (hR.runStorageSet h _ _ _ _)
  | storageRemove =>
    exact hR.alike_taking words2 args fun _ => alike_gives32 (hR.runStorageRemove h _ _)
  | fuelConsume =>
    exact hR.alike_taking long args fun n => alike_gives32 (.ok (hR.runFuelConsume h _))
  | fuelRemaining =>
    refine hR.alike_taking noArgs args fun _ => ?_
    rw [hR.fuel h]
    exact .ok ⟨h, rfl⟩
  | fetchAllowed | budgetMs => exact hR.alike_taking noArgs args fun _ => .ok ⟨h, rfl⟩

end Blind

end ContainerHost.Guest
