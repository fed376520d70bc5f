import ContainerHost.Guest.Run
import ContainerHost.Proofs.Guest.Growth
import ContainerHost.Proofs.Guest.Sizes
/-!
# What happens to a store while a guest runs

Three things happen to the store of a guest that runs: its code works on the heap from one pause to
the next, its host lets it pass a checkpoint or gives it memory, and host functions do what they do.
`Own` is all of it without the host functions. `asks` are the host functions that a run calls,
whatever comes of them, and `hostCalls` those that come back, each with the store before and after
it. `Chain` is the way of a store from one of them to the next.

What is proved: the store that a run leaves comes of the store that it began with by such a chain
(`chain_run`), on any machine. What becomes of the sizes of memories, of the fuel and of the storage
is read off the chain. The induction is on the execution, and what is relied on of machines
(`Execution.Lawful`) goes with it.
-/

namespace ContainerHost.Guest

open Wasm (Value)

/-! ## Host functions that are called -/

/-- A host function that is called, with the store that it finds, whatever comes of it. -/
structure Ask where
  func : HostFunc
  args : List Value
  store : Store

/-- A host function that was called and came back; `place` is where it was called from. -/
structure HostCall where
  place : Place
  func : HostFunc
  args : List Value
  before : Store
  after : Store
  results : List Value

/-- The function did what it does. -/
def HostCall.Took (c : HostCall) : Prop :=
  c.func.call c.place c.before c.args = .ok (c.after, c.results)

namespace Ask

def answer (k : Ask) (p : Place) : HostFunc.Answer := k.func.call p k.store k.args

def comesBack? (k : Ask) (p : Place) : Option HostCall :=
  match k.answer p with
  | .ok (t, results) => some ⟨p, k.func, k.args, k.store, t, results⟩
  | .error _ => none

variable {k : Ask} {p : Place}

theorem comesBack?_of_ok {t : Store} {results : List Value} (h : k.answer p = .ok (t, results)) :
    k.comesBack? p = some ⟨p, k.func, k.args, k.store, t, results⟩ := by
  simp only [comesBack?, h]

theorem comesBack?_of_error {why : Stop} (h : k.answer p = .error why) : k.comesBack? p = none := by
  simp only [comesBack?, h]

end Ask

/-- The host function that a pause is for, if it is for one. -/
def Pause.ask? (what : Pause) (s : Store) : Option Ask :=
  match what with
  | .call f args => some ⟨f, args, s⟩
  | .checkpoint | .grow .. => none

/-- The host functions that a run calls. -/
def asks (w : Wiring) (watch : Nat → Signal) (time : Nat) : Execution → HostState → List Ask
  | .ended .., _ => []
  | .paused what h next, k =>
    (what.ask? ⟨h, k⟩).toList ++
      match what.answer w (watch time) ⟨h, k⟩ with
      | .ok (⟨h, k⟩, results) => asks w watch (time + 1) (next results h) k
      | .error _ => []

def hostCalls (w : Wiring) (watch : Nat → Signal) (time : Nat) (e : Execution) (k : HostState) :
    List HostCall := (asks w watch time e k).filterMap (·.comesBack? w.place)

/-- The host functions that are called when a function is. -/
def enterAsks (w : Wiring) (watch : Nat → Signal) (s : Store) (callee : Callee)
    (args : List Value) : List Ask :=
  match callee with
  | .host f => [⟨f, args, s⟩]
  | .own f =>
    match s with
    | ⟨h, k⟩ => asks w watch 0 (w.machine.enter w.toLinks f args h) k

/-- The place that the host functions of a callee are called from; `p` is the place of the call
itself. -/
def Callee.place (callee : Callee) (w : Wiring) (p : Place) : Place :=
  match callee with
  | .host _ => p
  | .own _ => w.place

def enterCalls (w : Wiring) (p : Place) (watch : Nat → Signal) (s : Store) (callee : Callee)
    (args : List Value) : List HostCall :=
  (enterAsks w watch s callee args).filterMap (·.comesBack? (callee.place w p))

/-! ## What a guest does on its own -/

/-- A guest has gone from `s` to `t` without host functions: memories have grown within the bound if
anything, fuel was used up if anything, and its host keeps what it has kept, but for the deadline. -/
structure Own (bound : Nat) (s t : Store) : Prop where
  grown : Heap.Grown bound s.toHeap t.toHeap
  fuel : t.fuel ≤ s.fuel
  kept : t.toHostState = { s.toHostState with deadline := t.deadline }

namespace Own

variable {bound : Nat} {s t u : Store}

theorem refl (s : Store) : Own bound s s := ⟨.refl s.toHeap, Nat.le_refl _, rfl⟩

theorem trans (h : Own bound s t) (k : Own bound t u) : Own bound s u := by
  refine ⟨h.grown.trans k.grown, Nat.le_trans k.fuel h.fuel, ?_⟩
  rw [k.kept, h.kept]

theorem storage (h : Own bound s t) : t.storage = s.storage := by
  rw [h.kept]

theorem of_works {h h' : Heap} (k : HostState) (hworks : Heap.Works h h') :
    Own bound ⟨h, k⟩ ⟨h', k⟩ := ⟨hworks.sized.grown, hworks.fuel, rfl⟩

theorem of_deadline (s : Store) (deadline : Nat) : Own bound s { s with deadline := deadline } :=
  ⟨.refl s.toHeap, Nat.le_refl _, rfl⟩

theorem of_grow (m : Machine) (address delta : Nat) (h : Heap) (k : HostState) :
    Own bound ⟨h, k⟩ ⟨(m.grow (bound * Limits.pageSize) address delta h).2, k⟩ :=
  have hspec := m.grow_spec (bound * Limits.pageSize) address delta h
  ⟨hspec.1.grown, hspec.2, rfl⟩

end Own

/-- A checkpoint that is passed changes the deadline at most. -/
theorem checkpoint_cases {s t : Store} {signal : Signal} (h : s.checkpoint signal = .ok t) :
    ∃ deadline, t = { s with deadline := deadline } := by
  unfold Store.checkpoint at h
  split at h
  · cases h
    exact ⟨_, rfl⟩
  · split at h
    · cases h
    · cases h
      exact ⟨_, rfl⟩

/-! ## Chains -/

/-- `t` comes of `s` by these calls of host functions, and by what is done before, between and after
them, which is within `R`. -/
inductive Chain (R : Store → Store → Prop) : Store → List HostCall → Store → Prop where
  | own {s t : Store} (h : R s t) : Chain R s [] t
  | call {s t : Store} {c : HostCall} {rest : List HostCall} (h : R s c.before) (htook : c.Took)
    (hrest : Chain R c.after rest t) : Chain R s (c :: rest) t

namespace Chain

variable {R Q : Store → Store → Prop} {s t u : Store} {l l' : List HostCall}

theorem mono (h : ∀ {s t}, R s t → Q s t) (hc : Chain R s l t) : Chain Q s l t := by
  induction hc with
  | own hst => exact .own (h hst)
  | call hst htook _ ih => exact .call (h hst) htook ih

/-- Something that is done before the first call. -/
theorem before (htrans : ∀ {s t u}, R s t → R t u → R s u) (h : R s t) (hc : Chain R t l u) :
    Chain R s l u := by
  cases hc with
  | own htu => exact .own (htrans h htu)
  | call htc htook hrest => exact .call (htrans h htc) htook hrest

theorem append (htrans : ∀ {s t u}, R s t → R t u → R s u) (hc : Chain R s l t)
    (hd : Chain R t l' u) : Chain R s (l ++ l') u := by
  induction hc with
  | own hst => exact before htrans hst hd
  | call hst htook _ ih => exact .call hst htook (ih hd)

/-- A chain can be taken apart at any of its calls. -/
theorem split {c : HostCall} (hc : Chain R s (l ++ c :: l') t) :
    Chain R s l c.before ∧ c.Took ∧ Chain R c.after l' t := by
  induction l generalizing s with
  | nil =>
    cases hc with
    | call hsc htook hrest => exact ⟨.own hsc, htook, hrest⟩
  | cons d l ih =>
    cases hc with
    | call hsd htook hrest =>
      obtain ⟨hbefore, hc', hafter⟩ := ih hrest
      exact ⟨.call hsd htook hbefore, hc', hafter⟩

/-- Host functions change no size, so that memories grow along a chain as they do between its
calls. -/
theorem grown {bound : Nat} (h : ∀ {s t}, R s t → Heap.Grown bound s.toHeap t.toHeap)
    (hc : Chain R s l t) : Heap.Grown bound s.toHeap t.toHeap := by
  induction hc with
  | own hst => exact h hst
  | call hst htook _ ih =>
    exact (h hst).trans ((HostFunc.sized_call _ _ _ _ _ htook).grown.trans ih)

end Chain

theorem chain_ask {R : Store → Store → Prop} (hrefl : ∀ s, R s s) {k : Ask} {p : Place} {t : Store}
    {results : List Value} (h : k.answer p = .ok (t, results)) :
    Chain R k.store (k.comesBack? p).toList t := by
  rw [Ask.comesBack?_of_ok h]
  exact .call (hrefl _) h (.own (hrefl t))

/-! ## Runs -/

variable {w : Wiring} {bound : Nat}

theorem chain_answer (hbound : w.memoryLimit = bound * Limits.pageSize) {what : Pause}
    {signal : Signal} {s t : Store} {results : List Value}
    (h : what.answer w signal s = .ok (t, results)) :
    Chain (Own bound) s ((what.ask? s).toList.filterMap (·.comesBack? w.place)) t := by
  cases what with
  | checkpoint =>
    simp only [Pause.answer] at h
    cases hpoint : s.checkpoint signal with
    | error why => simp [hpoint, Except.map] at h
    | ok u =>
      simp only [hpoint, Except.map, Except.ok.injEq, Prod.mk.injEq] at h
      obtain ⟨rfl, -⟩ := h
      obtain ⟨deadline, rfl⟩ := checkpoint_cases hpoint
      exact .own (.of_deadline s deadline)
  | grow address delta =>
    simp only [Pause.answer, Except.ok.injEq, Prod.mk.injEq] at h
    obtain ⟨rfl, -⟩ := h
    rw [hbound]
    exact .own (.of_grow w.machine address delta s.toHeap s.toHostState)
  | call f args =>
    have hanswer : Ask.answer ⟨f, args, s⟩ w.place = .ok (t, results) := h
    have hchain := chain_ask (@Own.refl bound) hanswer
    rw [Ask.comesBack?_of_ok hanswer] at hchain
    simp only [Pause.ask?, Option.toList_some, List.filterMap_cons, List.filterMap_nil,
      Ask.comesBack?_of_ok hanswer]
    exact hchain

/-- A host function that does not come back is none of the calls. -/
theorem comesBack?_of_stopped {what : Pause} {signal : Signal} {s : Store} {why : Stop}
    (h : what.answer w signal s = .error why) :
    (what.ask? s).toList.filterMap (·.comesBack? w.place) = [] := by
  cases what with
  | checkpoint | grow => rfl
  | call f args =>
    have hanswer : Ask.answer ⟨f, args, s⟩ w.place = .error why := h
    simp only [Pause.ask?, Option.toList_some, List.filterMap_cons, List.filterMap_nil,
      Ask.comesBack?_of_error hanswer]

/-- What is relied on of an execution is relied on after each step. -/
theorem lawful_step {signal : Signal} {c d : Config}
    (h : ∃ s, c.execution.Lawful w.toLinks s) (hd : step w signal c = .more d) :
    ∃ s, d.execution.Lawful w.toLinks s := by
  obtain ⟨e, k⟩ := c
  obtain ⟨s, hlawful⟩ := h
  cases hlawful with
  | ended hended => cases hd
  | @paused _ t what next hpause hnext =>
    simp only [step] at hd
    split at hd
    · rename_i u k' results _
      cases hd
      exact ⟨u, hnext results u⟩
    · cases hd

/-- Memories grow by a step if anything, and not over the bound. -/
theorem grown_step (hbound : w.memoryLimit = bound * Limits.pageSize) (signal : Signal) {c : Config}
    (h : ∃ s, c.execution.Lawful w.toLinks s) :
    match step w signal c with
    | .more d => Heap.Grown bound c.store.toHeap d.store.toHeap
    | .out _ s => Heap.Grown bound c.store.toHeap s.toHeap := by
  obtain ⟨e, k⟩ := c
  obtain ⟨s, hlawful⟩ := h
  cases hlawful with
  | ended _ => exact .refl _
  | @paused _ t what next _ hnext =>
    unfold step
    dsimp only
    cases hanswer : what.answer w signal ⟨t, k⟩ with
    | error why => exact .refl t
    | ok r =>
      obtain ⟨⟨u, k'⟩, results⟩ := r
      have hgrown := (chain_answer hbound hanswer).grown Own.grown
      exact hgrown.trans (hnext results u).works.sized.grown

theorem chain_run (hbound : w.memoryLimit = bound * Limits.pageSize) (watch : Nat → Signal)
    (time : Nat) {h : Heap} {e : Execution} (he : e.Lawful w.toLinks h) (k : HostState) :
    Chain (Own bound) ⟨h, k⟩ (hostCalls w watch time e k) (run w watch time e k).2 := by
  induction he generalizing time k with
  | ended hended => exact .own (.of_works k hended.works)
  | @paused s t what next hpause _ ih =>
    have hworks : Own bound ⟨s, k⟩ ⟨t, k⟩ := .of_works k hpause.works
    unfold hostCalls run asks
    rw [List.filterMap_append]
    cases hanswer : what.answer w (watch time) ⟨t, k⟩ with
    | error why =>
      rw [comesBack?_of_stopped hanswer]
      exact .own hworks
    | ok r =>
      obtain ⟨⟨u, k'⟩, results⟩ := r
      have hnext := ih results u (time + 1) k'
      exact .before Own.trans hworks ((chain_answer hbound hanswer).append Own.trans hnext)

theorem chain_enter (hbound : w.memoryLimit = bound * Limits.pageSize) (p : Place)
    (watch : Nat → Signal) (s : Store) (callee : Callee) (args : List Value) :
    Chain (Own bound) s (enterCalls w p watch s callee args) (enter w p watch s callee args).2 := by
  cases callee with
  | host f =>
    have hcalls : enterCalls w p watch s (.host f) args =
        (Ask.comesBack? ⟨f, args, s⟩ p).toList := by
      simp only [enterCalls, enterAsks, Callee.place, List.filterMap_cons, List.filterMap_nil]
      cases Ask.comesBack? ⟨f, args, s⟩ p <;> rfl
    rw [hcalls]
    simp only [enter]
    cases hcall : f.call p s args with
    | error why =>
      rw [Ask.comesBack?_of_error (k := ⟨f, args, s⟩) hcall]
      exact .own (.refl s)
    | ok r => exact chain_ask (k := ⟨f, args, s⟩) Own.refl hcall
  | own f => exact chain_run hbound watch 0 (w.machine.enter_spec w.toLinks f args s.toHeap) _

end ContainerHost.Guest
