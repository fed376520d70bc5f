import ContainerHost.Container.Resources
import ContainerHost.Interpreter.Machine
import ContainerHost.Proofs.Guest.HostCalls
/-!
# The size of a memory, as it is and as it is reported

A guest may be asked for the size of its memory while a call is inside. The call has the store then,
so that the size which was noted last is reported instead; a call notes the size when it comes out,
and so does a look that finds the store free. `Shared` is a guest with what is noted, `act` the next
thing that is done with it, and a call takes as many steps as it needs. The calls of a guest are what
these steps make of it (`run_call`).

What is proved: `memory_bounded`, for a guest that was made in a sandbox on any machine, and whatever
is done with it. `Sound.onward_act` is one action. That no memory is made larger than the limit and
none grows over it is what is relied on of machines (`Machine.allocate_spec`, `Machine.grow_spec`);
how the limit comes of the configuration, which memory is accounted for and what is noted of it is
not.

Correspondence: `GuestInstance::memory_size` ↔ `Shared.look`, with `memory_bytes` ↔ `Shared.noted`;
the end of `GuestInstance::call_interruptible` ↔ `Shared.leave`.
-/

namespace ContainerHost.Guest

open Wasm (Memory Value)
open Limits (pageSize)
open Store

/-- A call that is inside a guest, with the configuration that it has come to. -/
structure EnteredCall where
  function : String
  watch : Watch
  time : Nat
  config : Config

/-- A guest that several callers share. `noted` is the size of its memory as it was last written
down, and `answers` are what calls have ended with. -/
structure Shared where
  guest : Instance
  inside : Option EnteredCall
  noted : Nat
  answers : List (Except Error (List Value))

namespace Shared

/-- Something that is done with a guest. -/
inductive Action where
  | call (function : String) (args : List Value) (watch : Watch)
  | step
  | look

def opened (g : Instance) : Shared := ⟨g, none, g.memorySize, []⟩

def store (s : Shared) : Store :=
  match s.inside with
  | none => s.guest.store
  | some e => e.config.store

def size (s : Shared) : Nat := Instance.memorySize { s.guest with store := s.store }

def leave (s : Shared) (function : String) (outcome : Outcome) (store : Store) : Shared :=
  let guest := { s.guest with store := store }
  { guest := guest
    inside := none
    noted := if guest.tracked.isSome then guest.memorySize else s.noted
    answers := s.answers ++ [s.guest.judge function outcome] }

/-- A call begins. It waits for the store if another one has it; one that does not enter the guest
notes nothing. -/
def call (s : Shared) (function : String) (args : List Value) (watch : Watch) : Shared :=
  if s.inside.isSome then s
  else match s.guest.approach function args (watch.signal 0) with
    | (.error e, store) =>
      { s with guest := { s.guest with store := store }, answers := s.answers ++ [.error e] }
    | (.ok (.host f), store) =>
      match f.call s.guest.wiring.place.outside store args with
      | .ok (store, results) => s.leave function (.returned results) store
      | .error why => s.leave function (.stopped why) store
    | (.ok (.own f), ⟨h, k⟩) =>
      let w := s.guest.wiring
      { s with inside := some ⟨function, watch, 0, w.machine.enter w.toLinks f args h, k⟩ }

def step (s : Shared) : Shared :=
  match s.inside with
  | none => s
  | some e =>
    match Guest.step s.guest.wiring (e.watch.signal e.time) e.config with
    | .more c => { s with inside := some { e with time := e.time + 1, config := c } }
    | .out outcome store => s.leave e.function outcome store

def look (s : Shared) : Nat × Shared :=
  if s.guest.tracked.isSome && s.inside.isNone then
    (s.guest.memorySize, { s with noted := s.guest.memorySize })
  else (s.noted, s)

def act (s : Shared) : Action → Shared
  | .call function args watch => s.call function args watch
  | .step => s.step
  | .look => s.look.2

def run (s : Shared) (actions : List Action) : Shared := actions.foldl act s

@[simp] theorem run_nil (s : Shared) : s.run [] = s := rfl

@[simp] theorem run_cons (s : Shared) (u : Action) (us : List Action) :
    s.run (u :: us) = (s.act u).run us := rfl

theorem run_append (s : Shared) (us vs : List Action) : s.run (us ++ vs) = (s.run us).run vs :=
  List.foldl_append

theorem memorySize_eq (g : Instance) : g.memorySize = g.store.bytesAt g.tracked := by
  unfold Instance.memorySize Heap.bytesAt Heap.pages?
  cases g.tracked with
  | none => simp
  | some a =>
    cases hm : g.store.memory? a with
    | none => simp [hm]
    | some m => simp [hm, Memory.byteSize]

theorem size_eq (s : Shared) : s.size = s.store.bytesAt s.guest.tracked := memorySize_eq _

/-! ## One action -/

/-- What a guest that is shared keeps to: the memory that is accounted for is there and within the
bound, what is noted is its size as soon as the store is free, and what is relied on of a call that
is inside is so. -/
structure Sound (bound : Nat) (s : Shared) : Prop where
  limit : s.guest.wiring.memoryLimit = bound * pageSize
  within : ∀ a, s.guest.tracked = some a → ∃ n, s.store.pages? a = some n ∧ n ≤ bound
  noted : s.noted ≤ s.size
  free : s.inside = none → s.noted = s.size
  lawful : ∀ e, s.inside = some e → ∃ h, e.config.execution.Lawful s.guest.wiring.toLinks h

/-- `t` is what becomes of `s`: the memories have grown if anything, and either what is noted has
stayed or it has been noted just now. -/
structure Onward (bound : Nat) (s t : Shared) : Prop where
  tracked : t.guest.tracked = s.guest.tracked
  wiring : t.guest.wiring = s.guest.wiring
  grown : Heap.Grown bound s.store.toHeap t.store.toHeap
  noted : t.noted = s.noted ∨ t.noted = t.size
  free : t.inside = none → t.noted = t.size
  lawful : ∀ e, t.inside = some e → ∃ h, e.config.execution.Lawful t.guest.wiring.toLinks h

variable {s t : Shared} {bound : Nat}

theorem Sound.present (h : s.Sound bound) (a : Nat) (ha : s.guest.tracked = some a) :
    (s.store.pages? a).isSome := by
  obtain ⟨n, hn, -⟩ := h.within a ha
  rw [hn]
  rfl

theorem Sound.size_le (h : s.Sound bound) (k : Onward bound s t) : s.size ≤ t.size := by
  rw [size_eq, size_eq, k.tracked]
  exact k.grown.bytesAt h.present

theorem Sound.onward (h : s.Sound bound) (k : Onward bound s t) : t.Sound bound := by
  refine ⟨?_, ?_, ?_, k.free, k.lawful⟩
  · rw [k.wiring]
    exact h.limit
  · intro a ha
    obtain ⟨n, hn, hle⟩ := h.within a (k.tracked ▸ ha)
    obtain ⟨n', hn', -, hmax⟩ := k.grown a n hn
    exact ⟨n', hn', by omega⟩
  · rcases k.noted with hsame | hnow
    · rw [hsame]
      exact Nat.le_trans h.noted (h.size_le k)
    · exact Nat.le_of_eq hnow

theorem Sound.bounded (h : s.Sound bound) : s.size ≤ bound * pageSize := by
  rw [size_eq]
  unfold Heap.bytesAt
  cases ha : s.guest.tracked with
  | none => simp
  | some a =>
    obtain ⟨n, hn, hle⟩ := h.within a ha
    simp only [Option.bind_some, hn, Option.getD_some]
    exact Nat.mul_le_mul_right _ hle

theorem Sound.onward_leave (h : s.Sound bound) (function : String) (outcome : Outcome)
    {store : Store} (hgrown : Heap.Grown bound s.store.toHeap store.toHeap) :
    Onward bound s (s.leave function outcome store) := by
  have hnoted : (s.leave function outcome store).noted = (s.leave function outcome store).size := by
    cases ha : s.guest.tracked with
    | some a =>
      simp only [leave, ha, Option.isSome_some, if_true]
      rfl
    | none =>
      -- nothing is accounted for, and zero was noted from the beginning
      have hzero : s.noted = 0 := by
        have hle := h.noted
        rw [size_eq, ha] at hle
        simpa [Heap.bytesAt] using hle
      rw [size_eq]
      simp [leave, ha, Heap.bytesAt, hzero]
  exact ⟨rfl, rfl, hgrown, .inr hnoted, fun _ => hnoted, fun e he => (by cases he)⟩

theorem Sound.onward_same (h : s.Sound bound) : Onward bound s s :=
  ⟨rfl, rfl, .refl _, .inl rfl, h.free, h.lawful⟩

/-- A call that does not enter the guest notes nothing, and changes no size. -/
theorem Sound.onward_refused (h : s.Sound bound) (hinside : s.inside = none) {store : Store}
    (hmemories : store.memories = s.store.memories) (answers : List (Except Error (List Value))) :
    Onward bound s ⟨{ s.guest with store := store }, none, s.noted, answers⟩ := by
  have hnoted : s.noted = store.bytesAt s.guest.tracked :=
    calc s.noted = s.size := h.free hinside
      _ = s.store.bytesAt s.guest.tracked := s.size_eq
      _ = store.bytesAt s.guest.tracked := (Heap.bytesAt_of_memories hmemories _).symm
  refine ⟨rfl, rfl, Heap.grown_of_memories hmemories, .inl rfl, fun _ => ?_,
    fun e he => (by cases he)⟩
  rw [size_eq]
  exact hnoted

theorem Sound.onward_call (h : s.Sound bound) (function : String) (args : List Value)
    (watch : Watch) : Onward bound s (s.call function args watch) := by
  unfold call
  -- a call waits while another one is inside; one that is refused leaves the memories alone
  cases hinside : s.inside with
  | some e =>
    simp only [Option.isSome_some, if_true]
    exact h.onward_same
  | none =>
    have hstore : s.store = s.guest.store := by simp only [Shared.store, hinside]
    have hmemories := s.guest.memories_approach function args (watch.signal 0)
    rw [← hstore] at hmemories
    have hgrown : Heap.Grown bound s.store.toHeap _ := Heap.grown_of_memories hmemories
    simp only [Option.isSome_none, Bool.false_eq_true, if_false]
    generalize s.guest.approach function args (watch.signal 0) = approached at hmemories hgrown ⊢
    obtain ⟨e | f | f, store⟩ := approached
    · exact hinside ▸ h.onward_refused hinside hmemories _
    · have hcall := HostFunc.sized_call s.guest.wiring.place.outside store f args
      dsimp only
      generalize f.call s.guest.wiring.place.outside store args = answer at hcall ⊢
      cases answer with
      | error why => exact h.onward_leave function _ hgrown
      | ok r => exact h.onward_leave function _ (hgrown.trans (hcall r rfl).grown)
    · have hlawful := s.guest.wiring.machine.enter_spec s.guest.wiring.toLinks f args store.toHeap
      refine ⟨rfl, rfl, hgrown.trans hlawful.works.sized.grown, .inl rfl, fun hfree => (by cases hfree),
        fun e he => ?_⟩
      cases he
      exact ⟨_, hlawful⟩

theorem Sound.onward_step (h : s.Sound bound) : Onward bound s s.step := by
  unfold step
  cases hinside : s.inside with
  | none => exact h.onward_same
  | some e =>
    have hstore : s.store = e.config.store := by simp only [Shared.store, hinside]
    have hlawful := h.lawful e hinside
    have hstep := grown_step h.limit (e.watch.signal e.time) hlawful
    rw [← hstore] at hstep
    dsimp only
    cases hnext : Guest.step s.guest.wiring (e.watch.signal e.time) e.config with
    | more c =>
      rw [hnext] at hstep
      refine ⟨rfl, rfl, hstep, .inl rfl, fun hfree => (by cases hfree), fun e' he' => ?_⟩
      cases he'
      exact lawful_step hlawful hnext
    | out outcome store =>
      rw [hnext] at hstep
      exact h.onward_leave e.function outcome hstep

theorem Sound.onward_look (h : s.Sound bound) : Onward bound s s.look.2 := by
  unfold look
  split
  · rename_i hfree
    have hinside : s.inside = none := by
      simp only [Bool.and_eq_true, Option.isNone_iff_eq_none] at hfree
      exact hfree.2
    have hsize : s.guest.memorySize = s.size := by
      simp only [size, Shared.store, hinside]
    exact ⟨rfl, rfl, .refl _, .inr hsize, fun _ => hsize, h.lawful⟩
  · exact h.onward_same

theorem Sound.onward_act (h : s.Sound bound) (u : Action) : Onward bound s (s.act u) := by
  cases u with
  | call function args watch => exact h.onward_call function args watch
  | step => exact h.onward_step
  | look => exact h.onward_look

/-! ## Any number of actions -/

theorem sound_run (h : s.Sound bound) (actions : List Action) : (s.run actions).Sound bound := by
  induction actions generalizing s with
  | nil => exact h
  | cons u actions ih => exact ih (h.onward (h.onward_act u))

theorem Sound.size_le_run (h : s.Sound bound) (actions : List Action) :
    s.size ≤ (s.run actions).size := by
  induction actions generalizing s with
  | nil => exact Nat.le_refl _
  | cons u actions ih =>
    have honward := h.onward_act u
    exact Nat.le_trans (h.size_le honward) (ih (h.onward honward))

theorem tracked_run (h : s.Sound bound) (actions : List Action) :
    (s.run actions).guest.tracked = s.guest.tracked ∧
      (s.run actions).guest.wiring = s.guest.wiring := by
  induction actions generalizing s with
  | nil => exact ⟨rfl, rfl⟩
  | cons u actions ih =>
    have honward := h.onward_act u
    obtain ⟨htracked, hwiring⟩ := ih (h.onward honward)
    exact ⟨htracked.trans honward.tracked, hwiring.trans honward.wiring⟩

theorem sound_opened {b : Sandbox} {env : Surroundings} {c : Compiled} {id : String} {g : Instance}
    (h : b.instantiate env c id = .ok g) : (opened g).Sound b.config.maxPages := by
  have hmade := Sandbox.made_of_instantiate h
  obtain ⟨hlimit, hpages⟩ := Sandbox.start_spec hmade.started
  refine ⟨hlimit, ?_, Nat.le_refl _, fun _ => rfl, fun e he => (by cases he)⟩
  intro a ha
  have htracked : Sandbox.trackedMemory c.module = some a := hmade.tracked ▸ ha
  exact hpages a (Sandbox.trackedMemory_le htracked)

/-- What is reported is never more than the size, and the size itself as soon as no call is
inside. -/
theorem Sound.look_spec (h : s.Sound bound) :
    s.look.1 ≤ s.size ∧ (s.inside = none → s.look.1 = s.size) := by
  unfold look
  split
  · rename_i hfree
    have hinside : s.inside = none := by
      simp only [Bool.and_eq_true, Option.isNone_iff_eq_none] at hfree
      exact hfree.2
    have hsize : s.guest.memorySize = s.size := by
      simp only [size, Shared.store, hinside]
    exact ⟨Nat.le_of_eq hsize, fun _ => hsize⟩
  · exact ⟨h.noted, h.free⟩

theorem Sound.size_spec (h : s.Sound bound) :
    match s.guest.tracked with
    | none => s.size = 0
    | some a => ∃ m, s.store.memory? a = some m ∧ s.size = m.byteSize := by
  rw [size_eq]
  unfold Heap.bytesAt
  cases ha : s.guest.tracked with
  | none => simp
  | some a =>
    obtain ⟨n, hn, -⟩ := h.within a ha
    obtain ⟨m, hm, hcount⟩ := Option.map_eq_some_iff.mp hn
    refine ⟨m, hm, ?_⟩
    simp only [Option.bind_some, hn, Option.getD_some, Memory.byteSize, hcount]

/-! ## Whole calls -/

/-- The steps of a call are those of its run. -/
theorem run_steps (x : Execution) {s : Shared} {function : String} {watch : Watch} {time : Nat}
    {k : HostState} (h : s.inside = some ⟨function, watch, time, x, k⟩) :
    ∃ n, s.run (List.replicate n .step) = s.leave function
      (Guest.run s.guest.wiring watch.signal time x k).1
      (Guest.run s.guest.wiring watch.signal time x k).2 := by
  induction x generalizing s time k with
  | ended how heap =>
    refine ⟨1, ?_⟩
    simp only [List.replicate_one, run_cons, run_nil, act, step, h, Guest.step, Guest.run]
  | paused what heap next ih =>
    simp only [Guest.run]
    cases hanswer : what.answer s.guest.wiring (watch.signal time) ⟨heap, k⟩ with
    | error why =>
      refine ⟨1, ?_⟩
      simp only [List.replicate_one, run_cons, run_nil, act, step, h, Guest.step, hanswer]
    | ok r =>
      obtain ⟨⟨u, k'⟩, results⟩ := r
      obtain ⟨n, hn⟩ := ih results u
        (s := { s with inside := some ⟨function, watch, time + 1, next results u, k'⟩ }) rfl
      refine ⟨n + 1, ?_⟩
      have hstep : s.act .step =
          { s with inside := some ⟨function, watch, time + 1, next results u, k'⟩ } := by
        simp only [act, step, h, Guest.step, hanswer]
      rw [List.replicate_succ, run_cons, hstep]
      exact hn

/-- A call of a guest is a call that begins and takes its steps: it comes out with the guest and the
answer that the call has. -/
theorem run_call (g : Instance) (function : String) (args : List Value) (watch : Watch) :
    let called := g.call function args watch
    ∃ n, let s := (opened g).run (.call function args watch :: List.replicate n .step)
      s.inside = none ∧ s.guest = called.2 ∧ s.answers = [called.1] := by
  intro called
  have hcalled : called = g.call function args watch := rfl
  clear_value called
  rw [Instance.call_eq] at hcalled
  have hfree : (opened g).inside.isSome = false := rfl
  have hguest : (opened g).guest = g := rfl
  simp only [run_cons, act, call, hfree, hguest, Bool.false_eq_true, if_false]
  generalize g.approach function args (watch.signal 0) = approached at hcalled ⊢
  obtain ⟨e | f | f, store⟩ := approached
  · exact ⟨0, rfl, hcalled ▸ rfl, hcalled ▸ rfl⟩
  · simp only [enter] at hcalled
    dsimp only
    generalize f.call g.wiring.place.outside store args = answer at hcalled ⊢
    cases answer with
    | error why => exact ⟨0, rfl, hcalled ▸ rfl, hcalled ▸ rfl⟩
    | ok r => exact ⟨0, rfl, hcalled ▸ rfl, hcalled ▸ rfl⟩
  · obtain ⟨heap, k⟩ := store
    dsimp only
    obtain ⟨n, hn⟩ := run_steps (g.wiring.machine.enter g.wiring.toLinks f args heap)
      (s := ⟨g, some ⟨function, watch, 0, g.wiring.machine.enter g.wiring.toLinks f args heap, k⟩,
        (opened g).noted, (opened g).answers⟩) rfl
    refine ⟨n, ?_⟩
    rw [hn, hcalled]
    exact ⟨rfl, rfl, rfl⟩

/-! ## Growing over the bound -/

/-- A call that is inside and asks for more memory than the bound allows gets -1 with the memories
that it had, and the size stays. -/
theorem step_grow_past (h : s.Sound bound) {e : EnteredCall} (hinside : s.inside = some e)
    {address delta n : Nat} {heap : Heap} {next : List Value → Heap → Execution}
    (hpaused : e.config.execution = .paused (.grow address delta) heap next)
    (hn : heap.pages? address = some n) (hpast : bound < n + delta) :
    ∃ e' heap', s.step.inside = some e' ∧ e'.config.execution = next [.i32 0xffffffff] heap' ∧
      heap'.memories = heap.memories ∧ s.step.size = s.size := by
  obtain ⟨function, watch, time, x, k⟩ := e
  obtain rfl : x = .paused (.grow address delta) heap next := hpaused
  obtain ⟨u, hlawful⟩ := h.lawful _ hinside
  have hgrows := (s.guest.wiring.machine.grow_spec s.guest.wiring.memoryLimit address delta heap).1
  rw [h.limit] at hgrows
  obtain ⟨hanswer, hmemories⟩ := hgrows.refused hn hpast
  rw [← h.limit] at hanswer hmemories
  have hstep : s.step = { s with inside := some ⟨function, watch, time + 1,
      next [.i32 0xffffffff]
        (s.guest.wiring.machine.grow s.guest.wiring.memoryLimit address delta heap).2, k⟩ } := by
    simp only [step, hinside, Guest.step, Pause.answer, hanswer]
  rw [hstep]
  refine ⟨_, _, rfl, rfl, hmemories, ?_⟩
  cases hlawful with
  | paused _ hnext =>
    have hworks := (hnext [.i32 0xffffffff]
      (s.guest.wiring.machine.grow s.guest.wiring.memoryLimit address delta heap).2).works
    have hsized : Heap.Sized heap _ := (Heap.sized_of_memories hmemories).trans hworks.sized
    rw [size_eq, size_eq]
    simp only [store, hinside]
    exact hsized.bytesAt s.guest.tracked

/-! ## Guests that calls have gone through -/

theorem onward_later {g g' : Instance} (hlimit : g.wiring.memoryLimit = bound * pageSize)
    (h : g.Later g') : Onward bound (opened g) (opened g') :=
  ⟨h.tracked, h.wiring, h.grown hlimit, .inr rfl, fun _ => rfl, fun e he => (by cases he)⟩

/-! ## Looks of a container -/

theorem observeMemory_spec {c : Container} {g : Instance} (h : c.guest = some g) :
    ∃ u, c.observeMemory.1 = .ok u ∧ u.used = g.memorySize ∧
      u.allocated = c.config.maxPages * pageSize := by
  unfold Container.observeMemory
  rw [h]
  dsimp only
  split
  · split
    · exact ⟨_, rfl, rfl, rfl⟩
    · exact ⟨_, rfl, rfl, rfl⟩
  · exact ⟨_, rfl, rfl, rfl⟩

theorem size_of_free (h : s.inside = none) : s.size = s.guest.memorySize := by
  simp only [size, Shared.store, h]

/-! ## The sizes of a guest -/

/-- Whatever is done with a guest that was made, on any machine, at every time and whatever its calls
come to:
  - its size is that of the memory that the module exports, or else of the host's if the module
    imports it, or else nothing;
  - the size is whole pages, never shrinks, and stays within the pages of the configuration;
  - what is noted is the size as soon as no call is inside, and so is what is reported then;
  - a call that asks for more memory than that gets -1, with the memories as they were;
  - a container of that guest reports the size as used and the bound as allocated;
  - guests that calls have gone through keep to the bound and do not shrink. -/
theorem memory_bounded {b : Sandbox} {env : Surroundings} {c : Compiled} {id : String}
    {g : Instance} (h : b.instantiate env c id = .ok g) (actions : List Action) :
    let s := (opened g).run actions
    (match Sandbox.trackedMemory c.module with
      | none => s.size = 0
      | some a => ∃ m, s.store.memory? a = some m ∧ s.size = m.byteSize) ∧
    (s.size % pageSize = 0 ∧ s.size ≤ b.config.maxPages * pageSize ∧
      ∀ more, s.size ≤ (s.run more).size) ∧
    (s.inside = none → s.noted = s.size ∧ s.look.1 = s.size) ∧
    (∀ e address delta n heap next, s.inside = some e →
      e.config.execution = .paused (.grow address delta) heap next →
      heap.pages? address = some n → b.config.maxPages < n + delta →
      ∃ e' heap', (s.act .step).inside = some e' ∧
        e'.config.execution = next [.i32 0xffffffff] heap' ∧
        heap'.memories = heap.memories ∧ (s.act .step).size = s.size) ∧
    (∀ container : Container, container.sandbox = b → container.guest = some s.guest →
      s.inside = none → ∃ u, container.observeMemory.1 = .ok u ∧ u.used = s.size ∧
        u.allocated = b.config.maxPages * pageSize) ∧
    ∀ g' g'', g.Later g' → g'.Later g'' →
      g''.memorySize % pageSize = 0 ∧ g'.memorySize ≤ g''.memorySize ∧
        g''.memorySize ≤ b.config.maxPages * pageSize := by
  intro s
  have hopened := sound_opened h
  have hsound : s.Sound b.config.maxPages := sound_run hopened actions
  have htracked : s.guest.tracked = Sandbox.trackedMemory c.module :=
    (tracked_run hopened actions).1.trans (Sandbox.made_of_instantiate h).tracked
  have hpages (t : Shared) : t.size % pageSize = 0 := by
    rw [size_eq]
    exact Nat.mul_mod_left _ _
  refine ⟨?_, ⟨hpages s, hsound.bounded, hsound.size_le_run⟩, ?_, ?_, ?_, ?_⟩
  · rw [← htracked]
    exact hsound.size_spec
  · intro hinside
    exact ⟨hsound.free hinside, hsound.look_spec.2 hinside⟩
  · intro e address delta n heap next hinside hpaused hn hpast
    exact step_grow_past hsound hinside hpaused hn hpast
  · rintro container rfl hguest hinside
    rw [size_of_free hinside]
    exact observeMemory_spec hguest
  · intro g' g'' h' h''
    have honward' := onward_later hopened.limit h'
    have hsound' := hopened.onward honward'
    have honward := onward_later hsound'.limit h''
    exact ⟨hpages (opened g''), hsound'.size_le honward, (hsound'.onward honward).bounded⟩

/-- A module with one page of memory, which its function makes larger. -/
def growing : Wasm.Module :=
  { Wasm.Module.empty with
    funcs := [⟨⟨[.i32], [.i32]⟩, [], #[.localGet 0, .memoryGrow], #[]⟩]
    memories := [⟨1, none⟩]
    exports := [⟨"grow", .func 0⟩, ⟨"memory", .memory 0⟩] }

/-- A sandbox whose limit takes up two pages. -/
def narrow : Sandbox :=
  ⟨.host, 1, { ContainerConfig.standard with maxMemory := 100000 }, none, Interpreter.interpreter⟩

def onePageMore : List Action := [.call "grow" [.i32 1] .quiet, .step, .step, .step]

/-- The second page is given, and the third one is refused. -/
theorem third_page_refused :
    ∃ g, narrow.instantiate default ⟨1, growing⟩ "unit-1" = .ok g ∧
      let s := (opened g).run (onePageMore ++ onePageMore)
      s.answers.map Except.toOption = [some [.i32 1], some [.i32 0xffffffff]] ∧
      s.size = 131072 ∧ s.size ≤ narrow.config.maxPages * pageSize ∧ s.noted = s.size := by
  have hran : (narrow.instantiate default ⟨1, growing⟩ "unit-1").toOption.any (fun g =>
      let s := (opened g).run (onePageMore ++ onePageMore)
      s.answers.map Except.toOption = [some [.i32 1], some [.i32 0xffffffff]] &&
        s.size == 131072 && s.inside.isNone) = true := by
    decide +kernel
  cases hg : narrow.instantiate default ⟨1, growing⟩ "unit-1" with
  | error e => simp [hg, Except.toOption] at hran
  | ok g =>
    rw [hg] at hran
    simp only [Except.toOption, Option.any_some, Bool.and_eq_true, decide_eq_true_eq,
      beq_iff_eq, Option.isNone_iff_eq_none] at hran
    obtain ⟨⟨hanswers, hsize⟩, hinside⟩ := hran
    obtain ⟨-, ⟨-, hbound, -⟩, hnoted, -⟩ := memory_bounded hg (onePageMore ++ onePageMore)
    exact ⟨g, rfl, hanswers, hsize, hbound, (hnoted hinside).1⟩

end Shared

end ContainerHost.Guest
