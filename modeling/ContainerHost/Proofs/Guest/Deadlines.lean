import ContainerHost.Proofs.Guest.Blind
import ContainerHost.Proofs.Guest.HostCalls
/-!
# The deadline of a guest

The clock of an engine ticks for all its guests. A guest sees it at its checkpoints, where a
deadline that has passed is put off if the guest's own call is not interrupted. So what the clock
comes to is seen in the deadline and nowhere else: `Store.Adjourned` are two stores that differ in
it and in nothing else.

What is proved: to two such stores a host gives the same answer at every pause, whatever the clock
shows to either, as long as the interrupt of the call is not raised; and none is interrupted then
(`Store.Adjourned.answer`). It is the same with what stands before and after a run
(`Instance.approach_unraised`, `Instance.undisturbed_judge`). No host function ends in a trap of the
machine (`HostFunc.call_ne_trap`).
-/

namespace ContainerHost.Guest

open Wasm (Memory Value)

/-! ## Stores -/

def HostState.due (k : HostState) (deadline : Nat) : HostState := { k with deadline := deadline }

namespace Store

def due (s : Store) (deadline : Nat) : Store := { s with deadline := deadline }

/-- `t` is `s` but for the deadline. -/
def Adjourned (s t : Store) : Prop := ∃ deadline, t = s.due deadline

namespace Adjourned

variable {s t u : Store}

theorem refl (s : Store) : Adjourned s s := ⟨s.deadline, rfl⟩

theorem trans (h : Adjourned s t) (k : Adjourned t u) : Adjourned s u := by
  obtain ⟨deadline, rfl⟩ := h
  obtain ⟨deadline', rfl⟩ := k
  exact ⟨deadline', rfl⟩

theorem blind (p : Place) : Blind p (fun _ => True) Adjourned where
  other _ _ := trivial
  memoryOf := by
    -- host functions do not read the deadline
    rintro s _ ⟨deadline, rfl⟩
    change Alike _ _ (memoryOf p s) (memoryOf p s)
    unfold memoryOf
    cases p.hostMemory with
    | none => exact .error trivial
    | some a =>
      dsimp only
      cases s.memory? a with
      | none => exact .error trivial
      | some m => exact .ok ⟨rfl, rfl⟩
  modifyMemory := by
    rintro s _ a ⟨deadline, rfl⟩ - f
    exact ⟨deadline, rfl⟩
  look := by
    rintro s _ ⟨deadline, rfl⟩
    exact ⟨rfl, deadline, rfl⟩
  draw := by
    rintro s _ ⟨deadline, rfl⟩
    exact ⟨rfl, deadline, rfl⟩
  made := by
    rintro s _ ⟨deadline, rfl⟩
    rfl
  asked := by
    rintro s _ ⟨deadline, rfl⟩
    rfl
  ask := by
    rintro s _ ⟨deadline, rfl⟩ c
    exact ⟨deadline, rfl⟩
  storage := by
    rintro s _ ⟨deadline, rfl⟩
    rfl
  store := by
    rintro s _ ⟨deadline, rfl⟩ storage
    exact ⟨deadline, rfl⟩
  fuel := by
    rintro s _ ⟨deadline, rfl⟩
    rfl
  charge := by
    rintro s _ ⟨deadline, rfl⟩ cost
    exact ⟨deadline, rfl⟩

/-- A host function comes back with both and gives the same, or it ends with both for the same reason,
which is no interrupt. -/
theorem call (h : Adjourned s t) (p : Place) (f : HostFunc) (args : List Value) :
    Alike (· ≠ .trap .interrupted) (With Adjourned) (f.call p s args) (f.call p t args) := by
  have hcall := (blind p).call h f args
  generalize f.call p s args = x at hcall ⊢
  generalize f.call p t args = y at hcall ⊢
  cases hcall with
  | ok hst => exact .ok hst
  | @error why he =>
    refine .error ?_
    rintro rfl
    exact he

variable {signal signal' : Signal}

/-- Without the interrupt a checkpoint is passed. -/
theorem checkpoint_unraised (s : Store) (hraised : signal.raised = false) :
    ∃ deadline, s.checkpoint signal = .ok (s.due deadline) := by
  unfold Store.checkpoint
  split
  · exact ⟨s.deadline, rfl⟩
  · rw [hraised]
    exact ⟨_, rfl⟩

/-- Without the interrupt the clock is nothing to what a host answers. -/
theorem answer (h : Adjourned s t) (hs : signal.raised = false) (ht : signal'.raised = false)
    (w : Wiring) (what : Pause) :
    Alike (· ≠ .trap .interrupted) (With Adjourned) (what.answer w signal s)
      (what.answer w signal' t) := by
  cases what with
  | checkpoint =>
    obtain ⟨d, hd⟩ := checkpoint_unraised s hs
    obtain ⟨d', hd'⟩ := checkpoint_unraised t ht
    obtain ⟨deadline, rfl⟩ := h
    simp only [Pause.answer, hd, hd']
    exact .ok ⟨⟨d', rfl⟩, rfl⟩
  | grow address delta =>
    obtain ⟨deadline, rfl⟩ := h
    exact .ok ⟨⟨deadline, rfl⟩, rfl⟩
  | call f args => exact h.call w.place f args

end Adjourned
end Store

open Store

theorem HostFunc.call_ne_trap (f : HostFunc) (p : Place) (s : Store) (args : List Value) (t : Trap) :
    f.call p s args ≠ .error (.trap t) := by
  have hcall := (Adjourned.blind p).call (.refl s) f args
  generalize f.call p s args = x at hcall ⊢
  cases hcall with
  | ok _ => nofun
  | error he =>
    rintro ⟨⟩
    exact he

/-! ## Steps -/

/-- What is left of two runs is the same, and the stores are the same but for the deadline. -/
inductive Config.Alongside : Config → Config → Prop
  | mk (e : Execution) (k : HostState) (deadline : Nat) :
    Alongside ⟨e, k⟩ ⟨e, k.due deadline⟩

theorem Config.Alongside.refl (c : Config) : c.Alongside c := .mk c.execution c.kept c.kept.deadline

/-- Both go on, or both end in the same way, and neither was interrupted. -/
inductive Next.Alongside : Next → Next → Prop
  | more {c d : Config} (h : c.Alongside d) : Alongside (.more c) (.more d)
  | out {outcome : Outcome} (houtcome : outcome ≠ .stopped (.trap .interrupted)) {s t : Store}
    (h : Adjourned s t) : Alongside (.out outcome s) (.out outcome t)

theorem Ending.undisturbed_outcome {how : Ending} (h : how ≠ .trapped .interrupted) :
    how.outcome ≠ .stopped (.trap .interrupted) := by
  cases how with
  | returned results => nofun
  | trapped t =>
    intro heq
    cases heq
    exact h rfl

/-- The clock is nothing to a step of a guest whose call is not interrupted. -/
theorem alongside_step {w : Wiring} {signal signal' : Signal} (hs : signal.raised = false)
    (ht : signal'.raised = false) {c d : Config} (h : c.Alongside d)
    (hlawful : ∃ s, c.execution.Lawful w.toLinks s) :
    (step w signal c).Alongside (step w signal' d) := by
  obtain ⟨e, k, deadline⟩ := h
  obtain ⟨s, hlawful⟩ := hlawful
  cases hlawful with
  | ended hended =>
    exact .out (Ending.undisturbed_outcome hended.undisturbed) ⟨deadline, rfl⟩
  | @paused _ t what next hpause hnext =>
    have hadjourned : Adjourned ⟨t, k⟩ ⟨t, k.due deadline⟩ := ⟨deadline, rfl⟩
    have hanswer := hadjourned.answer hs ht w what
    unfold step
    dsimp only
    generalize what.answer w signal ⟨t, k⟩ = x at hanswer ⊢
    generalize what.answer w signal' ⟨t, k.due deadline⟩ = y at hanswer ⊢
    cases hanswer with
    | @ok a b hab =>
      obtain ⟨u, results⟩ := a
      obtain ⟨v, results'⟩ := b
      obtain ⟨⟨deadline', rfl⟩, rfl⟩ := hab
      exact .more (.mk (next results u.toHeap) u.toHostState deadline')
    | error he => exact .out (fun heq => he (Outcome.stopped.inj heq)) hadjourned

/-! ## Calls -/

namespace Instance

variable (g : Instance) (function : String) (args : List Value)

/-- An interrupt is told from fuel that is used up, which takes too long for the caller as well. -/
theorem interrupted_ne_exhausted : g.interrupted function ≠ g.exhausted function := by
  intro h
  have htext := congrArg String.toList (Error.timeout.inj h).1
  simp [toString] at htext

/-- The answer is not that the call was interrupted. -/
def Undisturbed {α : Type} (answer : Except Error α) : Prop :=
  answer ≠ .error (g.interrupted function)

/-- The caller is told so of a machine that was interrupted, and of no other. -/
theorem undisturbed_judge {outcome : Outcome} (h : outcome ≠ .stopped (.trap .interrupted)) :
    g.Undisturbed function (g.judge function outcome) := by
  unfold judge
  split
  · unfold checkResults
    split
    · exact fun heq => nomatch Except.error.inj heq
    · nofun
  · nofun
  · exact fun heq => g.interrupted_ne_exhausted function (Except.error.inj heq).symm
  · exact absurd rfl h
  · exact fun heq => nomatch Except.error.inj heq

theorem undisturbed_returned (results : List Value) :
    g.Undisturbed function (g.judge function (.returned results)) :=
  g.undisturbed_judge function nofun

/-- Before a call that is not interrupted enters the guest the clock matters for the deadline alone.
-/
theorem approach_unraised (signal signal' : Signal) (hs : signal.raised = false)
    (ht : signal'.raised = false) :
    (g.approach function args signal').1 = (g.approach function args signal).1 ∧
      Adjourned (g.approach function args signal).2 (g.approach function args signal').2 ∧
      g.Undisturbed function (g.approach function args signal).1 := by
  unfold approach
  rw [hs, ht]
  simp only [Bool.false_eq_true, if_false]
  cases (g.exported.find? (·.1 == function)).bind fun e => g.wiring.funcs[e.2]? with
  | none => exact ⟨rfl, ⟨_, rfl⟩, fun heq => nomatch Except.error.inj heq⟩
  | some callee =>
    refine ⟨rfl, ⟨_, rfl⟩, ?_⟩
    dsimp only
    unfold checkArgs
    split
    · exact fun heq => nomatch Except.error.inj heq
    · split
      · exact fun heq => nomatch Except.error.inj heq
      · nofun

end Instance

end ContainerHost.Guest
