import ContainerHost.Interpreter.Laws
import ContainerHost.Interpreter.System
import ContainerHost.Wasm.Reader
/-!
# The interpreter as a machine

`interpreter` is a machine that everything relied on of machines is proved of: it reads modules from
text and runs them by turns. The number of turns that `Stack.execute` is given bounds nothing:
`execute_of_rank_lt` says that the execution is the same with any more.
-/

namespace ContainerHost.Interpreter

open Guest
open Wasm (Value Func Memory Module)
open Limits (pageSize)

/-! ## Executions -/

namespace Stack

def execute (l : Links) : Nat → Stack → Heap → Execution
  | 0, _, h => .ended (.trapped .stackExhausted) h
  | turns + 1, k, h =>
    match k.turn l h with
    | .more k h => execute l turns k h
    | .ended how h => .ended how h
    | .paused what k h =>
      let fuel := h.fuel
      .paused what h fun results u =>
        execute l turns (k.receive results) { u with fuel := min u.fuel fuel }

variable {l : Links} {k : Stack} {h : Heap} {width : Nat}

theorem lawful_execute (turns : Nat) (k : Stack) (h : Heap) : (execute l turns k h).Lawful l h := by
  induction turns generalizing k h with
  | zero => exact .ended ⟨.refl h, nofun, nofun⟩
  | succ turns ih =>
    have hturn := lawful_turn k l h
    unfold execute
    generalize k.turn l h = turn at hturn
    cases turn with
    | more k' t => exact (ih k' t).after hturn
    | ended how t => exact .ended hturn
    | paused what k' t =>
      exact .paused hturn fun results u =>
        .after (Heap.works_fuel (Nat.min_le_left _ _)) (ih (k'.receive results) _)

theorem execute_of_rank_lt (hlinks : ∀ f, .own f ∈ l.funcs → f.ops.size ≤ width) {turns more : Nat}
    (hk : k.Within width) (hturns : k.rank width h < turns) (hmore : k.rank width h < more) :
    execute l turns k h = execute l more k h := by
  induction turns generalizing k h more with
  | zero => omega
  | succ turns ih =>
    obtain ⟨more, rfl⟩ : ∃ n, more = n + 1 := ⟨more - 1, by omega⟩
    have hbelow := below_turn (h := h) hk hlinks
    unfold execute
    generalize k.turn l h = turn at hbelow
    cases turn with
    | more k' t => exact ih hbelow.1 (by have := hbelow.2; omega) (by have := hbelow.2; omega)
    | ended how t => rfl
    | paused what k' t =>
      dsimp only
      congr 1
      funext results u
      have hrank : (k'.receive results).rank width { u with fuel := min u.fuel t.fuel } ≤
          k'.rank width t := rank_mono (Nat.min_le_right _ _)
      have hless := hbelow.2
      exact ih (within_receive results hbelow.1) (by omega) (by omega)

end Stack

/-- The operations of the longest function, `f` among those that are linked. -/
def widthOf (l : Links) (f : Func) : Nat :=
  (l.funcs.toList.map fun callee => match callee with
    | .host _ => 0
    | .own g => g.ops.size).foldr max f.ops.size

theorem le_widthOf (l : Links) (f : Func) :
    f.ops.size ≤ widthOf l f ∧ ∀ g, .own g ∈ l.funcs → g.ops.size ≤ widthOf l f := by
  unfold widthOf
  have hfoldr (ns : List Nat) (n : Nat) :
      n ≤ ns.foldr max n ∧ ∀ m ∈ ns, m ≤ ns.foldr max n := by
    induction ns with
    | nil => simp
    | cons m ns ih =>
      rw [List.foldr_cons]
      refine ⟨by omega, fun m' hm' => ?_⟩
      rcases List.mem_cons.mp hm' with rfl | hm'
      · omega
      · have := ih.2 m' hm'
        omega
  refine ⟨(hfoldr _ _).1, fun g hg => (hfoldr _ _).2 _ ?_⟩
  exact List.mem_map.mpr ⟨.own g, hg.val, rfl⟩

/-- The execution of a function that is called from outside: it begins with a checkpoint, which is
charged. -/
def enter (l : Links) (f : Func) (args : List Value) (h : Heap) : Execution :=
  let h := h.charge 1
  if h.fuel = 0 then .ended (.trapped .outOfFuel) h
  else
    let fuel := h.fuel
    let k : Stack := ⟨Frame.enter f args, []⟩
    let turns := k.rank (widthOf l f) h + 1
    .paused .checkpoint h fun _ u => k.execute l turns { u with fuel := min u.fuel fuel }

theorem lawful_enter (l : Links) (f : Func) (args : List Value) (h : Heap) :
    (enter l f args h).Lawful l h := by
  unfold enter
  have hworks := Heap.works_charge h 1
  dsimp only
  split
  · exact .ended ⟨hworks, fun _ => ‹_›, nofun⟩
  · exact .paused ⟨hworks, fun _ => Nat.pos_of_ne_zero ‹_›, nofun⟩ fun results u =>
      .after (Heap.works_fuel (Nat.min_le_left _ _)) (Stack.lawful_execute _ _ _)

/-- A function that is called goes on by turns to its own end. -/
theorem execute_enter (l : Links) (f : Func) (args : List Value) {h u : Heap}
    (hfuel : u.fuel ≤ h.fuel) {more : Nat}
    (hmore : Stack.rank (widthOf l f) ⟨Frame.enter f args, []⟩ h < more) :
    Stack.execute l (Stack.rank (widthOf l f) ⟨Frame.enter f args, []⟩ h + 1)
      ⟨Frame.enter f args, []⟩ u = Stack.execute l more ⟨Frame.enter f args, []⟩ u := by
  have hrank : Stack.rank (widthOf l f) ⟨Frame.enter f args, []⟩ u ≤
      Stack.rank (widthOf l f) ⟨Frame.enter f args, []⟩ h := Stack.rank_mono hfuel
  refine Stack.execute_of_rank_lt (le_widthOf l f).2 ?_ (by omega) (by omega)
  intro f' hf'
  obtain rfl := List.mem_singleton.mp hf'
  exact (le_widthOf l f).1

/-! ## Memories -/

def putData (first : Nat) (memories : Array Memory) (data : List Wasm.Segment) :
    Except String (Array Memory) :=
  data.foldlM (fun memories d =>
    if (memories[first]?).any (·.fits d.offset d.bytes.length) then
      .ok (memories.modify first fun m => m.splice d.offset d.bytes)
    else .error Trap.outOfBounds.reason) memories

/-- Makes the memories of a module behind the host's, and puts its data into the first one that it
has. -/
def allocate (limit : Nat) (m : Module) (host : Memory) :
    Except String (Array Memory × Array Value) :=
  match m.memories.find? fun l => l.min * pageSize > limit with
  | some l => .error s!"memory minimum size of {l.min} pages exceeds memory limits"
  | none =>
    let memories := (host :: m.memories.map fun l => Memory.zeros l.min l.max).toArray
    (putData (if m.importedMemories.isEmpty then 1 else 0) memories m.data).map
      (·, (m.globals.map (·.init)).toArray)

/-- Data changes no size. -/
theorem sizes_putData {first : Nat} {memories filled : Array Memory} {data : List Wasm.Segment}
    (h : putData first memories data = .ok filled) :
    filled.map Memory.pageCount = memories.map Memory.pageCount := by
  unfold putData at h
  induction data generalizing memories with
  | nil =>
    cases h
    rfl
  | cons d data ih =>
    rw [List.foldlM_cons] at h
    split at h
    · have hmodify : (memories.modify first fun m => m.splice d.offset d.bytes).map
          Memory.pageCount = memories.map Memory.pageCount := by
        refine Array.ext_getElem? fun i => ?_
        rw [Array.getElem?_map, Array.getElem?_map, Array.getElem?_modify]
        split
        · cases memories[i]? <;> simp
        · rfl
      exact (ih h).trans hmodify
    · cases h

theorem allocate_spec {limit : Nat} {m : Module} {host : Memory} {r : Array Memory × Array Value}
    (h : allocate limit m host = .ok r) : Allocated limit m host r.1 := by
  unfold allocate at h
  split at h
  · cases h
  · rename_i hfits
    dsimp only at h
    generalize hput : putData _ _ m.data = put at h
    cases put with
    | error e => cases h
    | ok filled =>
      have hr : r.1 = filled := by rw [← Except.ok.inj h]
      have hsizes := sizes_putData hput
      rw [← hr] at hsizes
      have hpages (a : Nat) : (r.1[a]?).map Memory.pageCount =
          ((host :: m.memories.map fun l => Memory.zeros l.min l.max)[a]?).map Memory.pageCount := by
        have hget := congrArg (·[a]?) hsizes
        simpa only [Array.getElem?_map, List.getElem?_toArray] using hget
      refine ⟨?_, ?_, ?_⟩
      · have hlength := congrArg Array.size hsizes
        simpa using hlength
      · exact (hpages 0).trans rfl
      · intro a memory hmemory
        have hcount := hpages (a + 1)
        rw [hmemory, List.getElem?_cons_succ, List.getElem?_map] at hcount
        cases hl : m.memories[a]? with
        | none => simp [hl] at hcount
        | some l =>
          have hle := List.find?_eq_none.mp hfits l (List.mem_of_getElem? hl)
          simp only [hl, Option.map_some, Memory.pageCount_zeros, Option.some.injEq] at hcount
          rw [Memory.byteSize, hcount]
          simpa using hle

/-- Grows a memory, if neither the limit nor its own maximum is passed. -/
def grow (limit address delta : Nat) (h : Heap) : UInt32 × Heap :=
  match h.memory? address with
  | none => (0xffffffff, h)
  | some m =>
    match m.grow? (limit / pageSize) delta with
    | none => (0xffffffff, h)
    | some m' =>
      (UInt32.ofNat m.pageCount, { h with memories := h.memories.setIfInBounds address m' })

theorem grow_spec (limit address delta : Nat) (h : Heap) :
    h.Grows limit address delta (grow limit address delta h).1 (grow limit address delta h).2 ∧
      (grow limit address delta h).2.fuel ≤ h.fuel := by
  unfold grow
  split
  · exact ⟨.inl ⟨rfl, rfl⟩, Nat.le_refl _⟩
  · rename_i m hm
    split
    · exact ⟨.inl ⟨rfl, rfl⟩, Nat.le_refl _⟩
    · rename_i m' hgrow
      obtain ⟨hcount, hbound⟩ := Memory.pageCount_grow? hgrow
      refine ⟨.inr ⟨m.pageCount, ?_, ?_, rfl, fun a => ?_⟩, Nat.le_refl _⟩
      · rw [Heap.pages?, hm, Option.map_some]
      · rw [← hcount]
        exact (Nat.le_div_iff_mul_le (by decide)).mp hbound
      · obtain ⟨hlt, -⟩ := Array.getElem?_eq_some_iff.mp hm
        unfold Heap.pages? Heap.memory?
        rw [Array.getElem?_setIfInBounds]
        by_cases ha : a = address
        · subst ha
          simp [hlt, hcount]
        · rw [if_neg (Ne.symm ha), if_neg ha]

/-! ## The machine -/

/-- How many times a guest pauses in a millisecond, roughly. -/
def pausesPerMilli : Nat := 20000

def interpreter : Machine where
  compile b :=
    match b with
    | .bytes bytes => (Module.ofBytes? bytes).elim (.error "not a module") .ok
    | .zeros _ => .error "not a module"
  allocate := allocate
  enter := enter
  grow := grow
  system := system
  -- a budget is used up long before the caller's time is over
  pace budget limit := budget.elim (limit.wholeMillis * pausesPerMilli) (· + 1)
  context _ _ := ""
  allocate_spec := allocate_spec
  enter_spec := lawful_enter
  grow_spec := grow_spec

end ContainerHost.Interpreter
