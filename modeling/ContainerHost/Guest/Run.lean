import ContainerHost.Guest.Machine
/-!
# Running guests

A guest runs on a machine, which its host resumes whenever it pauses. `step` is what happens between
two pauses, and `run` all of it up to the end. At a checkpoint the guest is stopped if its own
interrupt was raised and the clock of the engine has passed the guest's deadline; a deadline that
has passed without an interrupt is set one tick ahead.

Correspondence: the callback of `Store::epoch_deadline_callback` in `instantiate_module` ↔
`Store.checkpoint`.
-/

namespace ContainerHost.Guest

open Wasm (Value)

/-- The links of a guest with its place and the machine that it runs on. -/
structure Wiring extends Links where
  place : Place
  machine : Machine
  deriving Inhabited

/-- What a guest can see of the outside at a checkpoint: the clock of the engine, and whether the
interrupt of its own call was raised. -/
structure Signal where
  epoch : Nat
  raised : Bool
  deriving DecidableEq, Repr

/-- How a run ends: with results, or with a reason to stop. -/
inductive Outcome where
  | returned (results : List Value)
  | stopped (why : Stop)
  deriving DecidableEq, Repr

def Ending.outcome : Ending → Outcome
  | returned results => .returned results
  | trapped t => .stopped (.trap t)

def Store.checkpoint (s : Store) (signal : Signal) : Except Stop Store :=
  if signal.epoch < s.deadline then .ok s
  else if signal.raised then .error (.trap .interrupted)
  else .ok { s with deadline := signal.epoch + 1 }

def Pause.answer (what : Pause) (w : Wiring) (signal : Signal) (s : Store) : HostFunc.Answer :=
  match what with
  | .checkpoint => (s.checkpoint signal).map (·, [])
  | .grow address delta =>
    match s with
    | ⟨h, k⟩ =>
      let (n, h) := w.machine.grow w.memoryLimit address delta h
      .ok (⟨h, k⟩, [.i32 n])
  | .call f args => f.call w.place s args

/-- A guest that runs, with what its host keeps for it. -/
structure Config where
  execution : Execution
  kept : HostState

def Config.store (c : Config) : Store := ⟨c.execution.heap, c.kept⟩

/-- What a step leads to: another configuration, or the end with the store that is left. -/
inductive Next where
  | more (c : Config)
  | out (outcome : Outcome) (store : Store)

def step (w : Wiring) (signal : Signal) (c : Config) : Next :=
  match c with
  | ⟨.ended how h, k⟩ => .out how.outcome ⟨h, k⟩
  | ⟨.paused what h next, k⟩ =>
    match what.answer w signal ⟨h, k⟩ with
    | .ok (⟨h, k⟩, results) => .more ⟨next results h, k⟩
    | .error why => .out (.stopped why) ⟨h, k⟩

/-- Runs a guest to its end; `time` counts the pauses before, and `watch` is what is seen at each. -/
def run (w : Wiring) (watch : Nat → Signal) (time : Nat) : Execution → HostState → Outcome × Store
  | .ended how h, k => (how.outcome, ⟨h, k⟩)
  | .paused what h next, k =>
    match what.answer w (watch time) ⟨h, k⟩ with
    | .ok (⟨h, k⟩, results) => run w watch (time + 1) (next results h) k
    | .error why => (.stopped why, ⟨h, k⟩)

/-- Calls a function of a guest; `p` is the place that a host function is called from, if it is one.
-/
def enter (w : Wiring) (p : Place) (watch : Nat → Signal) (s : Store) (callee : Callee)
    (args : List Value) : Outcome × Store :=
  match callee with
  | .host f =>
    match f.call p s args with
    | .ok (s, results) => (.returned results, s)
    | .error why => (.stopped why, s)
  | .own f =>
    match s with
    | ⟨h, k⟩ => run w watch 0 (w.machine.enter w.toLinks f args h) k

theorem run_eq (w : Wiring) (watch : Nat → Signal) (time : Nat) (e : Execution) (k : HostState) :
    run w watch time e k =
      match step w (watch time) ⟨e, k⟩ with
      | .more c => run w watch (time + 1) c.execution c.kept
      | .out outcome s => (outcome, s) := by
  cases e with
  | ended how h => rfl
  | paused what h next =>
    simp only [run, step]
    cases what.answer w (watch time) ⟨h, k⟩ <;> rfl

end ContainerHost.Guest
