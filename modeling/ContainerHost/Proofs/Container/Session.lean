import ContainerHost.Interpreter.Machine
import ContainerHost.Proofs.Container.Effects
/-!
# A container in use

A `Session` is a container with everything that is in progress on it: the lifecycle operation that
has its lock, if one has, and the calls that are inside the guest. `act` is the next thing that
happens. An operation that waits anywhere is cut there, so that a list of actions is an interleaving
of calls, updates, looks and lifecycle operations, and `run` carries it out. A lifecycle operation
that finds the lock taken does nothing until it is tried again.

The operations of the container are what their actions do one after the other (`run_call`,
`run_restart`, `run_hotReload`).

Correspondence: `ContainerInstance` with its `lifecycle` lock ↔ `Session` with `holder`; `call`,
`update_state`, `subscribe`, `stop`, `restart`, `hot_reload` ↔ the actions, cut at their awaits.
-/

namespace ContainerHost

/-- A look at what a container uses. -/
inductive Query where
  | memory
  | metrics
  | collect
  | health
  | strike
  | startTicker (timer interval : Nat)

/-- Looks at what the container uses. -/
def Container.query (c : Container) (now : Nat) : Query → Container
  | .memory => c.observeMemory.2
  | .metrics => (c.metrics now).2
  | .collect => (c.collectMetrics now).2
  | .health => (c.health now).2
  | .strike => c.strike now
  | .startTicker timer interval => c.startTicker timer interval

/-- How far the lifecycle operation with the lock has come: it rests between the halves of a
restart, it has left its rest and boots, it makes the guest of a hot reload, or that guest is in
and the state is not put back. -/
inductive Holder where
  | resting (snapshot : State)
  | booting (snapshot : State)
  | reloading (r : Container.Reload) (module : Guest.Compiled) (digest : Option String)
  | reloaded (r : Container.Reload)

/-- A call that is inside the guest, with what will come of it. -/
structure Visit where
  function : String
  result : Except Error (List Wasm.Value)
  took : Duration

/-- A container and what is in progress on it. `passed` counts the calls that found it running, and
`answers` are what calls have ended with. -/
structure Session where
  container : Container
  holder : Option Holder
  inside : List Visit
  passed : Nat
  answers : List (Except Error (List Wasm.Value))

/-- Something that happens to a container. -/
inductive Action where
  | call (function : String) (args : List Wasm.Value) (now : Nat)
  | answer (i now : Nat)
  | update (u : State)
  | subscribe (tag : String) (fails : Bool) (replies : List State)
  | unsubscribe (id : Nat)
  | query (q : Query) (now : Nat)
  | stop
  | restart
  | wake
  | boot (env : Surroundings)
  | reload (module : Guest.Compiled) (digest : Option String)
  | swap (env : Surroundings)
  | restore

namespace Session

def opened (c : Container) : Session := ⟨c, none, [], 0, []⟩

/-- A container that was just made, whether it came up or not. -/
def created (id name : String) (sandbox : Guest.Sandbox) (module : Guest.Compiled)
    (digest : Option String) (env : Surroundings) : Session :=
  opened ((Container.raw id name sandbox module digest env.now).start env).2

def unitSandbox : Guest.Sandbox := ⟨.host, 1, .standard, none, Interpreter.interpreter⟩

/-- A call begins: it ends at once or is inside the guest. -/
def call (s : Session) (function : String) (args : List Wasm.Value) (now : Nat) : Session :=
  let passed := if s.container.status = .running then s.passed + 1 else s.passed
  match s.container.beginCall function args now with
  | (.ended result, c) =>
    { s with container := c, passed := passed, answers := s.answers ++ [result] }
  | (.entered function result took, c) =>
    { s with container := c, passed := passed, inside := s.inside ++ [⟨function, result, took⟩] }

/-- A call comes out of the guest. -/
def answer (s : Session) (i now : Nat) : Session :=
  match s.inside[i]? with
  | none => s
  | some v =>
    let (result, c) := s.container.endCall (.entered v.function v.result v.took) now
    { s with container := c, inside := s.inside.eraseIdx i, answers := s.answers ++ [result] }

def stop (s : Session) : Session := { s with container := s.container.stop }

def restart (s : Session) : Session :=
  let (snapshot, c) := s.container.beginRestart
  { s with container := c, holder := some (.resting snapshot) }

/-- A restart leaves its rest. -/
def wake (s : Session) : Session :=
  match s.holder with
  | some (.resting snapshot) =>
    { s with container := s.container.setStatus .starting, holder := some (.booting snapshot) }
  | _ => s

def boot (s : Session) (env : Surroundings) : Session :=
  match s.holder with
  | some (.booting snapshot) =>
    { s with container := (s.container.revive snapshot env).2, holder := none }
  | _ => s

def reload (s : Session) (m : Guest.Compiled) (digest : Option String) : Session :=
  { s with holder := some (.reloading s.container.beginReload m digest) }

/-- A hot reload has made its guest, or has failed to. -/
def swap (s : Session) (env : Surroundings) : Session :=
  match s.holder with
  | some (.reloading r m digest) =>
    match s.container.reloadedGuest m env with
    | .error _ => { s with holder := none }
    | .ok g => { s with container := s.container.swap g m digest, holder := some (.reloaded r) }
  | _ => s

/-- A hot reload puts the state back and ends. -/
def restore (s : Session) : Session :=
  match s.holder with
  | some (.reloaded r) => { s with container := s.container.endReload r, holder := none }
  | _ => s

/-- What takes the lock waits until it is free. -/
def whenFree (s : Session) (f : Session → Session) : Session :=
  if s.holder.isSome then s else f s

/-- The next thing happens. -/
def act (s : Session) : Action → Session
  | .call function args now => s.call function args now
  | .answer i now => s.answer i now
  | .update u => { s with container := s.container.updateState u }
  | .subscribe tag fails replies =>
    { s with container := (s.container.subscribe tag fails replies).2 }
  | .unsubscribe id => { s with container := (s.container.unsubscribe id).2 }
  | .query q now => { s with container := s.container.query now q }
  | .stop => s.whenFree stop
  | .restart => s.whenFree restart
  | .wake => s.wake
  | .boot env => s.boot env
  | .reload m digest => s.whenFree fun s => s.reload m digest
  | .swap env => s.swap env
  | .restore => s.restore

/-- Things happen one after the other. -/
def run (s : Session) (actions : List Action) : Session := actions.foldl act s

@[simp] theorem run_nil (s : Session) : s.run [] = s := rfl

@[simp] theorem run_cons (s : Session) (a : Action) (as : List Action) :
    s.run (a :: as) = (s.act a).run as := rfl

/-- What every action keeps holds after any number of them. -/
theorem run_induction {P : Session → Prop} (step : ∀ s a, P s → P (s.act a)) {s : Session}
    (h : P s) (as : List Action) : P (s.run as) := by
  induction as generalizing s with
  | nil => exact h
  | cons a as ih => exact ih (step s a h)

/-- Each thing that happens is allowed where it happens. -/
def Throughout (allowed : Session → Action → Prop) : Session → List Action → Prop
  | _, [] => True
  | s, a :: as => allowed s a ∧ Throughout allowed (s.act a) as

/-- What every action that is allowed keeps holds after any number of them. -/
theorem run_induction_of_throughout {allowed : Session → Action → Prop} {P : Session → Prop}
    (step : ∀ s a, allowed s a → P s → P (s.act a)) {s : Session} (h : P s) {as : List Action}
    (has : s.Throughout allowed as) : P (s.run as) := by
  induction as generalizing s with
  | nil => exact h
  | cons a as ih =>
    obtain ⟨ha, hrest⟩ := has
    exact ih (step s a ha h) hrest

/-! ## Whole operations -/

theorem run_call (c : Container) (function : String) (args : List Wasm.Value) (now : Nat) :
    let took := (c.beginCall function args now).1.took
    let s := (opened c).run [.call function args now, .answer 0 (now + took.nanos)]
    s.container = (c.call function args now).2.2 ∧
      s.answers = [(c.call function args now).1] := by
  rcases hp : c.beginCall function args now with ⟨p, d⟩
  cases p with
  | ended result => simp [act, call, answer, opened, Container.call, Container.endCall, hp]
  | entered f result took =>
    simp [act, call, answer, opened, Container.call, Container.endCall, hp]

theorem run_restart (c : Container) (env : Surroundings) :
    ((opened c).run [.restart, .wake, .boot env]).container = (c.restart env).2 := rfl

theorem run_hotReload (c : Container) (m : Guest.Compiled) (digest : Option String)
    (env : Surroundings) :
    ((opened c).run [.reload m digest, .swap env, .restore]).container =
      (c.hotReload m digest env).2 := by
  rcases hg : c.reloadedGuest m env with e | g
  · simp [act, whenFree, opened, reload, swap, restore, Container.hotReload, hg]
  · simp [act, whenFree, opened, reload, swap, restore, Container.hotReload, hg]

end Session

/-! ## What stands aside -/

namespace Container

/-- `d` is `c` after something that is no part of a call and none of its life. -/
structure Aside (c d : Container) : Prop where
  id : d.id = c.id
  sandbox : d.sandbox = c.sandbox
  guest : d.guest = c.guest
  status : d.status = c.status
  history : d.history = c.history
  calls : d.counters.calls = c.counters.calls
  errors : d.counters.errors = c.counters.errors
  lastCall : d.counters.lastCall = c.counters.lastCall
  announced : ∀ t, t ≠ .stateChange → t ≠ .memoryWarning → t ≠ .containerMetrics →
    d.announced t = c.announced t

theorem aside_of_updated {c d : Container} (h : Updated c d) : Aside c d := by
  have hcount := fun t ht => announced_of_updated (t := t) h ht
  obtain ⟨s, subs, news, rfl, -⟩ := h
  exact ⟨rfl, rfl, rfl, rfl, rfl, rfl, rfl, rfl, fun t ht _ _ => hcount t ht⟩

theorem aside_of_observed {c d : Container} (h : Observed c d) : Aside c d := by
  have hcount := fun t hw hm => announced_of_observed (t := t) h hw hm
  obtain ⟨p, w, k, news, rfl, -⟩ := h
  exact ⟨rfl, rfl, rfl, rfl, rfl, rfl, rfl, rfl, fun t _ hw hm => hcount t hw hm⟩

theorem observed_query (c : Container) (now : Nat) (q : Query) : Observed c (c.query now q) := by
  cases q with
  | memory => exact observed_observeMemory c
  | metrics => exact observed_metrics c now
  | collect => exact observed_collectMetrics c now
  | health => exact observed_health c now
  | strike => exact observed_strike c now
  | startTicker timer interval => exact observed_startTicker c timer interval

theorem aside_subscribe (c : Container) (tag : String) (fails : Bool) (replies : List State) :
    Aside c (c.subscribe tag fails replies).2 :=
  ⟨rfl, rfl, rfl, rfl, rfl, rfl, rfl, rfl, fun _ _ _ _ => rfl⟩

theorem aside_unsubscribe (c : Container) (id : Nat) : Aside c (c.unsubscribe id).2 :=
  ⟨rfl, rfl, rfl, rfl, rfl, rfl, rfl, rfl, fun _ _ _ _ => rfl⟩

end Container
end ContainerHost
