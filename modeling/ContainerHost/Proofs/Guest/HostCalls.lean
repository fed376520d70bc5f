import ContainerHost.Proofs.Guest.Imports
import ContainerHost.Proofs.Guest.Steps
/-!
# What becomes of a guest

A guest is made and then called, any number of times. `approach` is what stands before a call enters
the guest, and `hostCalls` are the host functions that are called and come back in the course of it.

What is proved: a call is a chain from the store that it finds to the one that it leaves
(`Instance.chain_call`), and so is the start of a guest (`Sandbox.chain_start`), which begins with
memories within the bound and an empty storage (`Sandbox.start_spec`). `Lived` is all that a guest
has called since it was made.
-/

namespace ContainerHost.Guest

open Wasm (Memory Module Value)
open Limits (pageSize)

/-! ## Calls -/

namespace Instance

/-- What stands before a call enters the guest: what it would call, and the store that it finds. -/
def approach (g : Instance) (function : String) (args : List Value) (signal : Signal) :
    Except Error Callee × Store :=
  if signal.raised then
    (.error (g.interrupted function), { g.store with deadline := signal.epoch + 1 })
  else
    match (g.exported.find? (·.1 == function)).bind fun e => g.wiring.funcs[e.2]? with
    | none => (.error (.functionNotFound g.containerId function), g.prepared signal)
    | some callee =>
      ((g.checkArgs function callee.type.params args).map fun () => callee, g.prepared signal)

def hostCalls (g : Instance) (function : String) (args : List Value) (watch : Watch) :
    List HostCall :=
  match g.approach function args (watch.signal 0) with
  | (.error _, _) => []
  | (.ok callee, store) =>
    enterCalls g.wiring g.wiring.place.outside watch.signal store callee args

variable (g : Instance) (function : String) (args : List Value) (watch : Watch)

theorem call_eq :
    g.call function args watch =
      match g.approach function args (watch.signal 0) with
      | (.error e, store) => (.error e, { g with store := store })
      | (.ok callee, store) =>
        let (outcome, store) :=
          enter g.wiring g.wiring.place.outside watch.signal store callee args
        (g.judge function outcome, { g with store := store }) := by
  unfold call approach
  dsimp only
  split
  · rfl
  · cases (g.exported.find? (·.1 == function)).bind fun e => g.wiring.funcs[e.2]? with
    | none => rfl
    | some callee =>
      dsimp only
      cases g.checkArgs function callee.type.params args with
      | error e => rfl
      | ok u => rfl

theorem memories_approach (signal : Signal) :
    (g.approach function args signal).2.memories = g.store.memories := by
  unfold approach
  split
  · rfl
  · split
    · rfl
    · rfl

theorem storage_approach (signal : Signal) :
    (g.approach function args signal).2.storage = g.store.storage := by
  unfold approach
  split
  · rfl
  · split
    · rfl
    · rfl

theorem hostCalls_of_refused {e : Error}
    (h : (g.approach function args (watch.signal 0)).1 = .error e) :
    g.hostCalls function args watch = [] := by
  unfold hostCalls
  generalize g.approach function args (watch.signal 0) = approached at h
  obtain ⟨refused | callee, store⟩ := approached
  · rfl
  · cases h

/-- Nothing of a guest but its store changes by a call. -/
theorem exists_call : ∃ store, (g.call function args watch).2 = { g with store := store } := by
  rw [call_eq]
  generalize g.approach function args (watch.signal 0) = approached
  obtain ⟨e | callee, store⟩ := approached
  · exact ⟨store, rfl⟩
  · exact ⟨_, rfl⟩

/-- A call is a chain from the store that it finds to the one that it leaves. -/
theorem chain_call {bound : Nat} (hbound : g.wiring.memoryLimit = bound * pageSize) :
    Chain (Own bound) (g.approach function args (watch.signal 0)).2
      (g.hostCalls function args watch) (g.call function args watch).2.store := by
  rw [call_eq]
  unfold hostCalls
  generalize g.approach function args (watch.signal 0) = approached
  obtain ⟨e | callee, store⟩ := approached
  · exact .own (.refl store)
  · exact chain_enter hbound _ watch.signal store callee args

theorem grown_call {bound : Nat} (hbound : g.wiring.memoryLimit = bound * pageSize) :
    Heap.Grown bound g.store.toHeap (g.call function args watch).2.store.toHeap :=
  (Heap.grown_of_memories (g.memories_approach function args (watch.signal 0))).trans
    ((g.chain_call function args watch hbound).grown Own.grown)

/-- What has become of a guest by calls. -/
inductive Later (g : Instance) : Instance → Prop where
  | same : Later g g
  | call {g' : Instance} (h : Later g g') (function : String) (args : List Value) (watch : Watch) :
    Later g (g'.call function args watch).2

namespace Later

variable {g g' g'' : Instance}

theorem trans (h : g.Later g') (k : g'.Later g'') : g.Later g'' := by
  induction k with
  | same => exact h
  | call _ function args watch ih => exact ih.call function args watch

/-- Nothing of a guest but its store changes by calls. -/
theorem eq_store (h : g.Later g') : ∃ store, g' = { g with store := store } := by
  induction h with
  | same => exact ⟨g.store, rfl⟩
  | @call g' _ function args watch ih =>
    obtain ⟨store, rfl⟩ := ih
    exact exists_call _ function args watch

theorem wiring (h : g.Later g') : g'.wiring = g.wiring := by
  obtain ⟨store, rfl⟩ := h.eq_store
  rfl

theorem tracked (h : g.Later g') : g'.tracked = g.tracked := by
  obtain ⟨store, rfl⟩ := h.eq_store
  rfl

theorem fuelBudget (h : g.Later g') : g'.fuelBudget = g.fuelBudget := by
  obtain ⟨store, rfl⟩ := h.eq_store
  rfl

/-- Memories have grown by calls if anything, and not over the bound. -/
theorem grown {bound : Nat} (hbound : g.wiring.memoryLimit = bound * pageSize) (h : g.Later g') :
    Heap.Grown bound g.store.toHeap g'.store.toHeap := by
  induction h with
  | same => exact .refl _
  | @call g' h function args watch ih =>
    exact ih.trans (g'.grown_call function args watch (by rw [h.wiring, hbound]))

end Later
end Instance

/-! ## Guests that were made -/

namespace Sandbox

variable {b : Sandbox} {env : Surroundings} {m : Module} {id : String} {w : Wiring} {s : Store}

/-- The start function of a module that can be linked and has its memories, with the store that it
finds. -/
def startCallee? (b : Sandbox) (env : Surroundings) (m : Module) (id : String) :
    Option (Wiring × Store × Callee) :=
  match b.link m.imports with
  | .error _ => none
  | .ok found =>
    let w := b.wiring m id found
    match b.machine.allocate w.memoryLimit m b.providedMemory with
    | .error _ => none
    | .ok (memories, globals) =>
      (m.start.bind fun i => w.funcs[i]?).map (w, b.freshStore env id memories globals, ·)

/-- The host functions that a module calls while it is started. -/
def startAsks (b : Sandbox) (env : Surroundings) (m : Module) (id : String) : List Ask :=
  match b.startCallee? env m id with
  | none => []
  | some (w, s, callee) => enterAsks w Watch.quiet.signal s callee []

def startCalls (b : Sandbox) (env : Surroundings) (m : Module) (id : String) : List HostCall :=
  match b.startCallee? env m id with
  | none => []
  | some (w, s, callee) => enterCalls w w.place Watch.quiet.signal s callee []

/-- A guest that has started was linked and has its memories, and its start function has come
back. -/
theorem start_cases (h : b.start env m id = .ok (w, s)) :
    ∃ found made, b.link m.imports = .ok found ∧ w = b.wiring m id found ∧
      b.machine.allocate w.memoryLimit m b.providedMemory = .ok made ∧
      match m.start.bind fun i => w.funcs[i]? with
      | none => b.startCallee? env m id = none ∧ s = b.freshStore env id made.1 made.2
      | some callee =>
        b.startCallee? env m id = some (w, b.freshStore env id made.1 made.2, callee) ∧
          s = (enter w w.place Watch.quiet.signal (b.freshStore env id made.1 made.2) callee []).2 := by
  unfold start at h
  simp only [bind, Except.bind] at h
  split at h
  · cases h
  · rename_i found hfound
    split at h
    · cases h
    · rename_i made hmade
      split at h
      · rename_i hnone
        cases h
        refine ⟨found, made, hfound, rfl, hmade, ?_⟩
        simp only [startCallee?, hfound, hmade, hnone]
        exact ⟨rfl, trivial⟩
      · rename_i callee hcallee
        split at h
        · rename_i results s' hentered
          cases h
          refine ⟨found, made, hfound, rfl, hmade, ?_⟩
          simp only [startCallee?, hfound, hmade, hcallee, hentered]
          exact ⟨rfl, trivial⟩
        · cases h

theorem pages_freshStore {limit : Nat} (hlimit : limit = b.config.maxPages * pageSize)
    {made : Array Memory × Array Value}
    (h : b.machine.allocate limit m b.providedMemory = .ok made) {a : Nat}
    (ha : a ≤ m.memories.length) :
    ∃ n, (b.freshStore env id made.1 made.2).pages? a = some n ∧ n ≤ b.config.maxPages := by
  have hallocated := b.machine.allocate_spec h
  cases a with
  | zero =>
    refine ⟨b.providedMemory.pageCount, hallocated.host, ?_⟩
    exact Nat.le_trans (Nat.le_of_eq (Memory.pageCount_zeros ..)) (Nat.min_le_right _ _)
  | succ a =>
    have hlt : a + 1 < made.1.size := by
      rw [hallocated.size]
      omega
    have hmemory : made.1[a + 1]? = some made.1[a + 1] := Array.getElem?_eq_getElem hlt
    refine ⟨made.1[a + 1].pageCount, congrArg (Option.map Memory.pageCount) hmemory, ?_⟩
    have hwithin := hallocated.within a _ hmemory
    rw [hlimit] at hwithin
    exact Nat.le_of_mul_le_mul_right hwithin (by decide)

/-- A guest starts with an empty storage and memories within the bound, and becomes what its start
function makes of it. -/
theorem chain_start (h : b.start env m id = .ok (w, s)) :
    ∃ t : Store, t.storage = .empty ∧
      (∀ a ≤ m.memories.length, ∃ n, t.pages? a = some n ∧ n ≤ b.config.maxPages) ∧
      Chain (Own b.config.maxPages) t (b.startCalls env m id) s := by
  obtain ⟨found, made, -, hw, hmade, hs⟩ := start_cases h
  have hlimit : w.memoryLimit = b.config.maxPages * pageSize := by
    rw [hw]
    rfl
  refine ⟨b.freshStore env id made.1 made.2, rfl, fun a ha => pages_freshStore hlimit hmade ha, ?_⟩
  unfold startCalls
  split at hs
  · obtain ⟨hentry, rfl⟩ := hs
    rw [hentry]
    exact .own (.refl _)
  · obtain ⟨hentry, rfl⟩ := hs
    rw [hentry]
    exact chain_enter hlimit w.place Watch.quiet.signal _ _ []

/-- A guest starts with memories that are within the bound of its configuration. -/
theorem start_spec (h : b.start env m id = .ok (w, s)) :
    w.memoryLimit = b.config.maxPages * pageSize ∧
      ∀ a ≤ m.memories.length, ∃ n, s.pages? a = some n ∧ n ≤ b.config.maxPages := by
  obtain ⟨found, made, -, hw, -, -⟩ := start_cases h
  obtain ⟨t, -, hpages, hchain⟩ := chain_start h
  have hgrown := hchain.grown Own.grown
  refine ⟨by rw [hw]; rfl, ?_⟩
  intro a ha
  obtain ⟨n, hn, hle⟩ := hpages a ha
  obtain ⟨n', hn', -, hmax⟩ := hgrown a n hn
  exact ⟨n', hn', by omega⟩

theorem Made.memoryLimit {c : Compiled} {g : Instance} (h : b.Made env c id g) :
    g.wiring.memoryLimit = b.config.maxPages * pageSize := (start_spec h.started).1

theorem memoryAddresses_le {a : Nat} (h : a ∈ memoryAddresses m) : a ≤ m.memories.length := by
  unfold memoryAddresses at h
  simp only [List.mem_append, List.mem_map, List.mem_range] at h
  rcases h with ⟨l, -, rfl⟩ | ⟨i, hi, rfl⟩
  · exact Nat.zero_le _
  · exact hi

theorem exportedAddress?_le {a : Nat} (h : exportedAddress? m = some a) :
    a ≤ m.memories.length := by
  unfold exportedAddress? at h
  obtain ⟨i, -, hi⟩ := Option.bind_eq_some_iff.mp h
  exact memoryAddresses_le (List.mem_of_getElem? hi)

theorem trackedMemory_le {a : Nat} (h : trackedMemory m = some a) : a ≤ m.memories.length := by
  unfold trackedMemory at h
  split at h
  · rename_i a' ha'
    cases h
    exact exportedAddress?_le ha'
  · split at h
    · cases h
      exact Nat.zero_le _
    · cases h

/-- A guest was made and has been called, and `log` are the host functions that it has called and
that have come back, from its start on. -/
inductive Lived (b : Sandbox) (env : Surroundings) (c : Compiled) (id : String) :
    List HostCall → Instance → Prop where
  | made {g : Instance} (h : b.instantiate env c id = .ok g) :
    Lived b env c id (b.startCalls env c.module id) g
  | call {log : List HostCall} {g : Instance} (h : Lived b env c id log g) (function : String)
    (args : List Value) (watch : Watch) :
    Lived b env c id (log ++ g.hostCalls function args watch) (g.call function args watch).2

theorem Lived.later {c : Compiled} {log : List HostCall} {g : Instance}
    (h : b.Lived env c id log g) : ∃ g₀, b.instantiate env c id = .ok g₀ ∧ g₀.Later g := by
  induction h with
  | made h => exact ⟨_, h, .same⟩
  | call _ function args watch ih =>
    obtain ⟨g₀, hmade, hlater⟩ := ih
    exact ⟨g₀, hmade, hlater.call function args watch⟩

end Sandbox
end ContainerHost.Guest
