import ContainerHost.Interpreter.Machine
import ContainerHost.Proofs.Guest.HostCalls
import ContainerHost.Proofs.Guest.Reach
/-!
# The memory of a guest

A host function finds its memory when it is called: the one that the module exports, or else the
host's. The memory that a container accounts for is found when the guest is made: the one that the
module exports, or else the host's if the module imports it. Here the two are compared for all host
functions that a guest calls from its start on, those that fail among them: `Served` are all that a
guest has asked for.

What is proved (`memory_of_imports`): for a module that has a memory the two are one, so that what a
host function reads and writes is what is accounted for. A module that has none is served with the
host's memory all the same: nothing is accounted for, the code of the guest cannot reach that memory,
and no host function says that there is none.
-/

namespace ContainerHost.Guest

open Wasm (Memory Module Op Value)

/-! ## What a guest asks for -/

namespace Ask

/-- The function uses no memory but the one at an address: with others in the place of the others,
it answers the same and leaves them as they are. Without an address it uses none at all. -/
def Uses (k : Ask) (p : Place) (address : Option Nat) : Prop :=
  ∀ swap, k.func.call p (k.store.swapOthers address swap) k.args =
    (k.answer p).map fun r => (r.1.swapOthers address swap, r.2)

/-- The function cannot do without a memory: if there were none, it would say so. -/
def Needs (k : Ask) (p : Place) : Prop :=
  k.answer { p with hostMemory := none } = .error (.refused .noMemory)

/-- The function goes by the memory that is accounted for: it uses no other, and if none is and it
cannot do without, it says so. -/
structure Finds (k : Ask) (p : Place) (tracked : Option Nat) : Prop where
  uses : k.Uses p tracked
  refused : tracked = none → k.Needs p → k.answer p = .error (.refused .noMemory)

end Ask

/-- The host functions that a guest calls while a function is called. One that is called from outside
itself is not called by the guest. -/
def Instance.asks (g : Instance) (function : String) (args : List Value) (watch : Watch) : List Ask :=
  match g.approach function args (watch.signal 0) with
  | (.ok (.own f), store) => enterAsks g.wiring watch.signal store (.own f) args
  | (.ok (.host _), _) | (.error _, _) => []

/-- A guest was made and has been called, and these are the host functions that it has called from
its start on. -/
inductive Sandbox.Served (b : Sandbox) (env : Surroundings) (c : Compiled) (id : String) :
    List Ask → Instance → Prop where
  | made {g : Instance} (h : b.instantiate env c id = .ok g) :
    Served b env c id (b.startAsks env c.module id) g
  | call {asked : List Ask} {g : Instance} (h : Served b env c id asked g) (function : String)
    (args : List Value) (watch : Watch) :
    Served b env c id (asked ++ g.asks function args watch) (g.call function args watch).2

/-! ## The memories are there -/

/-- The memories up to an address are there. -/
def Heap.Has (h : Heap) (n : Nat) : Prop := ∀ a ≤ n, (h.pages? a).isSome

theorem Heap.Has.grown {s t : Heap} {n bound : Nat} (h : s.Has n) (hst : Heap.Grown bound s t) :
    t.Has n := by
  intro a ha
  obtain ⟨pages, hpages⟩ := Option.isSome_iff_exists.mp (h a ha)
  obtain ⟨pages', hpages', -⟩ := hst a pages hpages
  rw [hpages']
  rfl

theorem Heap.Has.memory {h : Heap} {n a : Nat} (hh : h.Has n) (ha : a ≤ n) :
    ∃ m, h.memory? a = some m := by
  have hsome := hh a ha
  unfold Heap.pages? at hsome
  rwa [Option.isSome_map, Option.isSome_iff_exists] at hsome

variable {w : Wiring} {n bound : Nat}

theorem store_of_ask {what : Pause} {s : Store} {k : Ask} (h : what.ask? s = some k) :
    k.store = s := by
  cases what with
  | call f args =>
    cases h
    rfl
  | checkpoint | grow => cases h

theorem has_asks (hbound : w.memoryLimit = bound * Limits.pageSize) (watch : Nat → Signal)
    (time : Nat) {h : Heap} {e : Execution} (he : e.Lawful w.toLinks h) (hh : h.Has n)
    (k : HostState) : ∀ a ∈ asks w watch time e k, a.store.toHeap.Has n := by
  induction he generalizing time k with
  | ended _ => nofun
  | @paused s t what next hpause _ ih =>
    have hsame : Heap.Grown bound s t := hpause.works.sized.grown
    have hnow : t.Has n := hh.grown hsame
    intro a ha
    unfold asks at ha
    rcases List.mem_append.mp ha with ha | ha
    · rw [store_of_ask (Option.mem_toList.mp ha)]
      exact hnow
    · split at ha
      · rename_i u k' results hanswer
        have hgrown := (chain_answer hbound hanswer).grown Own.grown
        exact ih results u (time + 1) (hnow.grown hgrown) k' a ha
      · cases ha

theorem has_enterAsks (hbound : w.memoryLimit = bound * Limits.pageSize) (watch : Nat → Signal)
    {s : Store} (h : s.toHeap.Has n) (callee : Callee) (args : List Value) :
    ∀ a ∈ enterAsks w watch s callee args, a.store.toHeap.Has n := by
  cases callee with
  | host f =>
    intro a ha
    obtain rfl := List.mem_singleton.mp ha
    exact h
  | own f => exact has_asks hbound watch 0 (w.machine.enter_spec w.toLinks f args s.toHeap) h _

namespace Sandbox

variable {b : Sandbox} {env : Surroundings} {c : Compiled} {id : String} {asked : List Ask}
  {g : Instance}

/-- What is known of a guest and of all that it has asked for: it is wired as it was linked, and all
memories of its module are there. -/
structure Settled (b : Sandbox) (c : Compiled) (id : String) (asked : List Ask) (g : Instance) :
    Prop where
  linked : ∃ found, b.link c.module.imports = .ok found ∧ g.wiring = b.wiring c.module id found
  tracked : g.tracked = trackedMemory c.module
  has : g.store.toHeap.Has c.module.memories.length
  asked : ∀ k ∈ asked, k.store.toHeap.Has c.module.memories.length

theorem Settled.memoryLimit (h : Settled b c id asked g) :
    g.wiring.memoryLimit = b.config.maxPages * Limits.pageSize := by
  obtain ⟨found, -, hw⟩ := h.linked
  rw [hw]
  rfl

theorem settled_made (h : b.instantiate env c id = .ok g) :
    Settled b c id (b.startAsks env c.module id) g := by
  have hmade := made_of_instantiate h
  obtain ⟨found, made, hlink, hw, hallocated, hs⟩ := start_cases hmade.started
  have hlimit := hmade.memoryLimit
  have hfresh : (b.freshStore env id made.1 made.2).toHeap.Has c.module.memories.length := by
    intro a ha
    obtain ⟨pages, hpages, -⟩ := pages_freshStore hlimit hallocated ha
    rw [hpages]
    rfl
  refine ⟨⟨found, hlink, hw⟩, hmade.tracked, ?_, ?_⟩
  · obtain ⟨-, hpages⟩ := start_spec hmade.started
    intro a ha
    obtain ⟨pages, hsome, -⟩ := hpages a ha
    rw [hsome]
    rfl
  · unfold startAsks
    split at hs
    · rw [hs.1]
      nofun
    · rw [hs.1]
      exact has_enterAsks hlimit _ hfresh _ []

/-- A guest stays settled whatever is called. -/
theorem Settled.call (h : Settled b c id asked g) (function : String) (args : List Value)
    (watch : Watch) :
    Settled b c id (asked ++ g.asks function args watch) (g.call function args watch).2 := by
  have hsame : Heap.Grown 0 g.store.toHeap (g.approach function args (watch.signal 0)).2.toHeap :=
    Heap.grown_of_memories (g.memories_approach function args (watch.signal 0))
  have hbefore : (g.approach function args (watch.signal 0)).2.toHeap.Has
      c.module.memories.length := h.has.grown hsame
  have hafter := h.has.grown (g.grown_call function args watch h.memoryLimit)
  obtain ⟨store, hcall⟩ := g.exists_call function args watch
  rw [hcall] at hafter ⊢
  refine ⟨h.linked, h.tracked, hafter, ?_⟩
  intro k hk
  rcases List.mem_append.mp hk with hk | hk
  · exact h.asked k hk
  · unfold Instance.asks at hk
    generalize g.approach function args (watch.signal 0) = approached at hbefore hk
    obtain ⟨e | f | f, s⟩ := approached
    · cases hk
    · cases hk
    · exact has_enterAsks h.memoryLimit _ hbefore (.own f) args k hk

theorem Served.settled (h : b.Served env c id asked g) : Settled b c id asked g := by
  induction h with
  | made h => exact settled_made h
  | call _ function args watch ih => exact ih.call function args watch

/-! ## The two ways to a memory -/

/-- The module exports a memory of its own or the host's under the name by which hosts look for it,
or it imports the host's. -/
def HasMemory (m : Module) : Prop :=
  (exportedAddress? m).isSome ∨ m.importsName memoryName.1 memoryName.2 = true

variable {m : Module}

theorem hostMemory_le {a : Nat} (h : hostMemory m = some a) : a ≤ m.memories.length := by
  unfold hostMemory at h
  cases hexported : exportedAddress? m with
  | none =>
    rw [hexported] at h
    cases h
    exact Nat.zero_le _
  | some a' =>
    rw [hexported] at h
    cases h
    exact exportedAddress?_le hexported

/-- With a memory of its own or the host's, a module gets the same one both ways. -/
theorem hostMemory_of_has (h : HasMemory m) : hostMemory m = trackedMemory m := by
  unfold hostMemory trackedMemory
  cases hexported : exportedAddress? m with
  | some a => rfl
  | none =>
    have himports : m.importsName memoryName.1 memoryName.2 = true := by
      rcases h with h | h
      · rw [hexported] at h
        cases h
      · exact h
    rw [if_pos himports]
    rfl

/-- Without, the host's memory is used and nothing is accounted for. -/
theorem hostMemory_of_not_has (h : ¬ HasMemory m) :
    hostMemory m = some 0 ∧ trackedMemory m = none := by
  unfold HasMemory at h
  rw [not_or, Option.not_isSome_iff_eq_none] at h
  obtain ⟨hexported, himports⟩ := h
  unfold hostMemory trackedMemory
  rw [hexported]
  exact ⟨rfl, if_neg himports⟩

theorem importedMemories_of_link {found : List Provided} (hlink : b.link m.imports = .ok found)
    (h : m.importsName memoryName.1 memoryName.2 = false) : m.importedMemories = [] := by
  unfold Module.importsName at h
  unfold Module.importedMemories
  rw [List.filterMap_eq_nil_iff]
  intro i hi
  cases htype : i.type with
  | func t => rfl
  | other kind => rfl
  | memory l =>
    -- only the host's memory will do for a memory
    exfalso
    obtain ⟨p, hp, hfits⟩ := fits_of_link hlink i hi
    have hother : (i.space, i.name) ≠ memoryName := by
      intro heq
      have hname := List.any_eq_false.mp h i hi
      simp [← heq] at hname
    unfold provided? at hp
    rw [if_neg hother, Option.map_eq_some_iff] at hp
    obtain ⟨f, -, rfl⟩ := hp
    simp [mismatch?, htype] at hfits

theorem zero_notMem_memories {found : List Provided} (hlink : b.link m.imports = .ok found)
    (h : m.importsName memoryName.1 memoryName.2 = false) : 0 ∉ memoryAddresses m := by
  unfold memoryAddresses
  rw [importedMemories_of_link hlink h]
  simp

namespace Settled

/-- The memory that host functions use is there for each of them. -/
theorem found (h : Settled b c id asked g) {k : Ask} (hk : k ∈ asked) :
    (k.store.hostMemory? g.wiring.place).isSome := by
  obtain ⟨found, -, hw⟩ := h.linked
  have hplace : g.wiring.place.hostMemory = hostMemory c.module := by
    rw [hw]
    rfl
  obtain ⟨a, ha⟩ : ∃ a, hostMemory c.module = some a := ⟨_, rfl⟩
  obtain ⟨m, hm⟩ := (h.asked k hk).memory (hostMemory_le ha)
  unfold Store.hostMemory?
  rw [hplace, ha, Option.bind_some, hm]
  rfl

/-- Each host function uses the memory of the guest's place alone, and does not miss it. -/
theorem uses (h : Settled b c id asked g) {k : Ask} (hk : k ∈ asked) :
    k.Uses g.wiring.place g.wiring.place.hostMemory ∧
      k.answer g.wiring.place ≠ .error (.refused .noMemory) :=
  ⟨fun swap => (call_swapOthers (h.found hk) swap k.func k.args).1,
    (call_swapOthers (h.found hk) (fun _ m => m) k.func k.args).2⟩

end Settled

/-- Which memory the host functions use that a guest calls, from its start on and whatever becomes of
them.
  - If its module has a memory, by exporting or by importing it, then they use the one that is
    accounted for and no other; it is there, and its size is the one that is reported.
  - If it has none, then nothing is accounted for, the code of the guest has no way to the host's
    memory, and yet that one is there and is what they use. None of them says that there is no memory,
    although those that cannot do without should.
-/
theorem memory_of_imports (h : b.Served env c id asked g) :
    let p := g.wiring.place
    (HasMemory c.module →
      (∃ a m, g.tracked = some a ∧ g.store.memory? a = some m ∧ g.memorySize = m.byteSize) ∧
      ∀ k ∈ asked, k.Finds p g.tracked ∧ k.answer p ≠ .error (.refused .noMemory)) ∧
    (¬ HasMemory c.module →
      g.tracked = none ∧ g.memorySize = 0 ∧ 0 ∉ g.wiring.memories ∧
      (∃ m, g.store.memory? 0 = some m) ∧
      ∀ k ∈ asked, k.Uses p (some 0) ∧ k.answer p ≠ .error (.refused .noMemory) ∧
        (k.Needs p → ¬ k.Finds p g.tracked)) := by
  intro p
  have hsettled := h.settled
  obtain ⟨found, hlink, hw⟩ := hsettled.linked
  have hplace : p.hostMemory = hostMemory c.module := by
    rw [show p = g.wiring.place from rfl, hw]
    rfl
  refine ⟨fun hhas => ?_, fun hnone => ?_⟩
  · have hsame : p.hostMemory = g.tracked := by
      rw [hplace, hsettled.tracked, hostMemory_of_has hhas]
    obtain ⟨a, ha⟩ : ∃ a, hostMemory c.module = some a := ⟨_, rfl⟩
    have htracked : g.tracked = some a := by rw [← hsame, hplace, ha]
    obtain ⟨m, hm⟩ := hsettled.has.memory (hostMemory_le ha)
    refine ⟨⟨a, m, htracked, hm, ?_⟩, fun k hk => ?_⟩
    · simp only [Instance.memorySize, htracked, Option.bind_some, hm]
    · obtain ⟨huses, hanswer⟩ := hsettled.uses hk
      refine ⟨⟨hsame ▸ huses, fun heq => ?_⟩, hanswer⟩
      rw [htracked] at heq
      cases heq
  · -- without a memory of its own the guest is given the host's by its host functions
    obtain ⟨hzero, huntracked⟩ := hostMemory_of_not_has hnone
    have htracked : g.tracked = none := hsettled.tracked.trans huntracked
    have himports : c.module.importsName memoryName.1 memoryName.2 = false :=
      Bool.eq_false_iff.mpr fun htrue => hnone (.inr htrue)
    refine ⟨htracked, ?_, ?_, hsettled.has.memory (Nat.zero_le _), fun k hk => ?_⟩
    · simp only [Instance.memorySize, htracked, Option.bind_none]
    · have hwired : g.wiring.memories = (memoryAddresses c.module).toArray := by
        rw [hw]
        rfl
      rw [hwired, List.mem_toArray]
      exact zero_notMem_memories hlink himports
    · obtain ⟨huses, hanswer⟩ := hsettled.uses hk
      refine ⟨?_, hanswer, fun hneeds hfinds => hanswer (hfinds.refused htracked hneeds)⟩
      rw [← hzero, ← hplace]
      exact huses

/-- Something that is computed by making a guest and calling it holds of a guest and all that it has
asked for. -/
theorem exists_served (b : Sandbox) (env : Surroundings) (c : Compiled) (id : String)
    (function : String) (args : List Value) (watch : Watch) {P : List Ask → Instance → Prop}
    [∀ asked g, Decidable (P asked g)] (h : (b.instantiate env c id).toOption.any (fun g =>
      P (b.startAsks env c.module id ++ g.asks function args watch)
        (g.call function args watch).2) = true) :
    ∃ asked g, b.Served env c id asked g ∧ P asked g := by
  cases hg : b.instantiate env c id with
  | error e =>
    rw [hg] at h
    cases h
  | ok g =>
    rw [hg] at h
    exact ⟨_, _, (Served.made hg).call function args watch, of_decide_eq_true h⟩

/-- A module without a memory, whose function has four bytes filled. -/
def pourer : Module :=
  { Module.empty with
    imports := [⟨"host", "buffer_fill", .func ⟨[.i32, .i32, .i32], []⟩⟩]
    funcs := [⟨⟨[], []⟩, [], #[.const (.i32 0), .const (.i32 7), .const (.i32 4), .call 0], #[]⟩]
    exports := [⟨"pour", .func 1⟩] }

/-- The same module with a page, which is filled for the first time when it is started. -/
def basin : Module :=
  { pourer with
    memories := [⟨1, none⟩]
    exports := [⟨"pour", .func 1⟩, ⟨"memory", .memory 0⟩]
    start := some 1 }

def hosting : Sandbox := ⟨.host, 1, .standard, none, Interpreter.interpreter⟩

/-- The page that is filled, at the start and by a call, is the one that is accounted for. -/
theorem memory_of_imports_basin :
    ∃ asked g, hosting.Served default ⟨1, basin⟩ "unit-1" asked g ∧ HasMemory basin ∧
      asked.map Ask.func = [.bufferFill, .bufferFill] ∧ g.tracked = some 1 ∧
      (∀ k ∈ asked, k.Finds g.wiring.place (some 1)) ∧
      ∃ m, g.store.memory? 1 = some m ∧ g.memorySize = m.byteSize := by
  obtain ⟨asked, g, hserved, hfuncs, htracked⟩ := hosting.exists_served default ⟨1, basin⟩ "unit-1"
    "pour" [] .quiet
    (P := fun asked g => asked.map Ask.func = [.bufferFill, .bufferFill] ∧ g.tracked = some 1)
    (by decide +kernel)
  have hhas : HasMemory basin := .inl rfl
  obtain ⟨⟨a, m, ha, hm, hsize⟩, hfinds⟩ := (memory_of_imports hserved).1 hhas
  obtain rfl : a = 1 := Option.some.inj (ha.symm.trans htracked)
  exact ⟨asked, g, hserved, hhas, hfuncs, htracked, fun k hk => htracked ▸ (hfinds k hk).1, m, hm,
    hsize⟩

/-- Four bytes are filled for a guest that has no memory; the host function cannot do without one, and
does not say that there is none. -/
theorem unaccounted_memory :
    ∃ asked g k, hosting.Served default ⟨1, pourer⟩ "unit-1" asked g ∧ ¬ HasMemory pourer ∧ k ∈ asked ∧
      k.Needs g.wiring.place ∧ k.answer g.wiring.place ≠ .error (.refused .noMemory) ∧
      ¬ k.Finds g.wiring.place g.tracked := by
  obtain ⟨asked, g, hserved, hran, htracked⟩ := hosting.exists_served default ⟨1, pourer⟩ "unit-1"
    "pour" [] .quiet
    (P := fun asked g => asked.map (fun k =>
        (k.func, k.args, (k.answer g.wiring.place).toOption.map Prod.snd)) =
        [(.bufferFill, [.i32 0, .i32 7, .i32 4], some [])] ∧ g.tracked = none)
    (by decide +kernel)
  obtain ⟨k, rest, rfl, hk, -⟩ := List.map_eq_cons_iff.mp hran
  simp only [Prod.mk.injEq] at hk
  obtain ⟨hfunc, hargs, hresults⟩ := hk
  have hnone : ¬ HasMemory pourer := by
    unfold HasMemory
    decide
  have hneeds : k.Needs g.wiring.place := by
    unfold Ask.Needs Ask.answer
    rw [hfunc, hargs]
    rfl
  have hanswer : k.answer g.wiring.place ≠ .error (.refused .noMemory) := by
    intro heq
    rw [heq] at hresults
    cases hresults
  exact ⟨_, g, k, hserved, hnone, List.mem_cons_self, hneeds, hanswer,
    fun hfinds => hanswer (hfinds.refused htracked hneeds)⟩

end Sandbox
end ContainerHost.Guest
