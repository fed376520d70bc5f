import ContainerHost.Manager.Operate
import ContainerHost.Proofs.Container.Session
/-!
# Operations at the same time

A manager with the operations that are under way on it. An operation is cut wherever it waits: a run
for its module, scaling once its slots are reserved, a stop, a restart, a reload and the stops of a
cleanup for the container, a restart for the end of its rest, and an operation on all containers for
its parts. `ask` begins an operation up to where it first waits, `go` lets one of those that wait go
on to its next wait or to its end, and `abandon` is the end of a run or of scaling that nobody waits
for any more. A list of moves is an interleaving of operations; whoever waits for a container may be
the next to have it.

An operation that nothing interferes with does what the manager does when it is asked for it
(`run_stop`, `run_run`, `run_scale`, `run_restart`, `run_hotReload`).

`marks` keeps what happened to each container, the latest first. Nothing depends on it.

Correspondence: `ContainerManager::run`, `scale`, `stop`, `restart`, `hot_reload`, `restart_all` and
`cleanup` ↔ a `Request`, cut into `Task`s at its awaits; the `lifecycle` lock ↔ `hasLock`; the drop
of a future ↔ `abandon`.
-/

namespace ContainerHost

/-- What happened to a container: it was made, it was stopped for good, a restart stopped it, and
the restart made it run again or failed to. -/
inductive Mark where
  | made
  | stopped
  | rested
  | revived
  | broken
  deriving DecidableEq, Repr

/-- An operation that a manager is asked for. -/
inductive Request where
  | run (name : String) (config : ContainerConfig)
  | scale (id : String) (n : Nat)
  | stop (id : String)
  | restart (id : String)
  | hotReload (id : String)
  | restartAll
  | cleanup

/-- An operation where it waits, with what it has found out. A stop, a restart and a reload have
looked their container up; a sweep is the stop of a container that a cleanup took out of the
registry. -/
inductive Task where
  | run (r : Reservation) (name : String) (config : ContainerConfig) (bytes : Except Error Blob)
  | scale (r : Reservation) (id : String) (n : Nat)
  | stop (id : String)
  | restart (id : String)
  | rest (id : String) (snapshot : State)
  | fetch (id name key : String)
  | reload (id key : String) (module : CachedModule)
  | sweep (id : String)
  | gather (parts : List Nat) (cleans : Bool)

/-- What came of an operation. -/
inductive Reply where
  | ran (result : Except Failure String)
  | scaled (result : Except Failure (List String))
  | done (result : Except Error Unit)
  | summed (summary : BulkSummary)

/-- Something that is done with a container, other than an operation of its life. -/
inductive Interaction where
  | call (function : String) (args : List Wasm.Value)
  | settle (function : String) (result : Except Error (List Wasm.Value)) (took : Duration)
  | update (u : State)
  | subscribe (tag : String) (fails : Bool) (replies : List State)
  | unsubscribe (id : Nat)
  | query (q : Query)

def Container.interact (c : Container) (now : Nat) : Interaction → Container
  | .call function args => (c.beginCall function args now).2
  | .settle function result took => c.settleCall function result now took
  | .update u => c.updateState u
  | .subscribe tag fails replies => (c.subscribe tag fails replies).2
  | .unsubscribe id => (c.unsubscribe id).2
  | .query q => c.query now q

/-- What may happen next. -/
inductive Move where
  | ask (q : Request)
  | go (i : Nat)
  | abandon (i : Nat)
  | interact (id : String) (x : Interaction)
  | observe (event : String) (who : Observer)
  | sleep (d : Duration)
  | pass (d : Duration)
  | surround (source : Source) (network : Http.Network) (outside : Outside)

namespace Task

/-- The container that the task is about to do something to, or has at rest. -/
def target? : Task → Option String
  | .scale _ id _ | .stop id | .restart id | .rest id _ | .fetch id _ _ | .reload id _ _
  | .sweep id => some id
  | .run .. | .gather .. => none

def reservation? : Task → Option Reservation
  | .run r _ _ _ | .scale r _ _ => some r
  | _ => none

/-- The task is the stop of a container that a cleanup took out of the registry. -/
def isSweep : Task → Bool
  | .sweep _ => true
  | _ => false

def hasLock (id : String) : Task → Bool
  | .rest id' _ => id' == id
  | _ => false

end Task

/-- A manager, the operations under way on it, what came of those that ended, and what happened to
its containers. -/
structure ConcurrentManager where
  manager : Manager
  tasks : List (Nat × Task)
  tickets : Nat
  answers : List (Nat × Reply)
  marks : List (String × Mark)

namespace ConcurrentManager

/-- Nothing is under way on a manager. -/
def opened (m : Manager) : ConcurrentManager := ⟨m, [], 0, [], []⟩

/-! ## Bookkeeping -/

def enlist (t : ConcurrentManager) (ticket : Nat) (task : Task) : ConcurrentManager :=
  { t with tasks := t.tasks ++ [(ticket, task)] }

/-- The operation with a ticket has ended. -/
def answer (t : ConcurrentManager) (ticket : Nat) (r : Reply) : ConcurrentManager :=
  { t with answers := t.answers ++ [(ticket, r)] }

/-- The manager is another one now. -/
def withManager (t : ConcurrentManager) (m : Manager) : ConcurrentManager := { t with manager := m }

/-- Something happened to some containers. -/
def mark (t : ConcurrentManager) (ids : List String) (what : Mark) : ConcurrentManager :=
  { t with marks := ids.map (·, what) ++ t.marks }

/-- What happened to a container, the latest first. -/
def marksOf (t : ConcurrentManager) (id : String) : List Mark :=
  (t.marks.filter (·.1 == id)).map (·.2)

/-- Some task has the container to itself. -/
def locked (t : ConcurrentManager) (id : String) : Bool := t.tasks.any fun e => e.2.hasLock id

/-- What came of the stop or the restart with a ticket, if it has ended. -/
def resultOf? (t : ConcurrentManager) (ticket : Nat) : Option (Except Error Unit) :=
  (t.answers.find? (·.1 == ticket)).bind fun a =>
    match a.2 with
    | .done r => some r
    | _ => none

def appeared (before after : Manager) : List String :=
  after.pool.containers.keys.filter fun id => !(before.pool.containers.contains id)

/-- A run has ended. -/
def ran (t : ConcurrentManager) (ticket : Nat) (result : Except Failure String) (m : Manager) :
    ConcurrentManager :=
  let made := match result with | .ok id => [id] | .error _ => []
  ((t.withManager m).mark made .made).answer ticket (.ran result)

def scaled (t : ConcurrentManager) (ticket : Nat) (result : Except Failure (List String))
    (m : Manager) :
    ConcurrentManager :=
  let t' := match result with
    | .ok ids => (t.withManager m).mark ids .made
    | .error _ => (t.withManager m).mark (appeared t.manager m) .stopped
  t'.answer ticket (.scaled result)

/-- An operation on all containers begins one task for each of them, and gathers what comes of
them. -/
def scatter (t : ConcurrentManager) (ticket : Nat) (ids : List String) (part : String → Task)
    (cleans : Bool) : ConcurrentManager :=
  let parts := List.range' t.tickets ids.length
  { t with
    tickets := t.tickets + ids.length
    tasks := t.tasks ++ parts.zip (ids.map part) ++ [(ticket, .gather parts cleans)] }

/-- An operation on one container looks it up. -/
def find (t : ConcurrentManager) (ticket : Nat) (id : String) (task : Container → Task) :
    ConcurrentManager :=
  match t.manager.lookup id with
  | .error e => t.answer ticket (.done (.error e))
  | .ok c => t.enlist ticket (task c)

/-! ## Moves -/

def ask (t : ConcurrentManager) (q : Request) : ConcurrentManager :=
  let ticket := t.tickets
  let t := { t with tickets := ticket + 1 }
  match q with
  | .run name config =>
    match t.manager.beginRun name config with
    | (.ended result, m) => t.ran ticket result m
    | (.waiting r name config bytes, m) =>
      (t.withManager m).enlist ticket (.run r name config bytes)
  | .scale id n =>
    match t.manager.beginScale id n with
    | (.error e, m) => (t.withManager m).answer ticket (.scaled (.error e))
    | (.ok r, m) => (t.withManager m).enlist ticket (.scale r id n)
  | .stop id => t.find ticket id fun _ => .stop id
  | .restart id => t.find ticket id fun _ => .restart id
  | .hotReload id => t.find ticket id fun c => .fetch id c.name (ModuleCache.key c.name c.config)
  | .restartAll => t.scatter ticket t.manager.slots.ids .restart false
  | .cleanup =>
    let (ids, slots) := t.manager.slots.drain
    (t.withManager { t.manager with slots := slots }).scatter ticket ids .sweep true

/-- A task goes on, up to where it waits next. -/
def proceed (t : ConcurrentManager) (ticket : Nat) : Task → ConcurrentManager
  | .run r name config bytes =>
    let (result, m) := t.manager.endRun (.waiting r name config bytes)
    t.ran ticket result m
  | .scale r id n =>
    let (result, m) := t.manager.endScale r id n
    t.scaled ticket result m
  | .stop id =>
    ((t.withManager (t.manager.remove id)).mark [id] .stopped).answer ticket (.done (.ok ()))
  | .restart id =>
    let (snapshot, m) := t.manager.beginRestart id
    ((t.withManager m).mark [id] .rested).enlist ticket (.rest id snapshot)
  | .rest id snapshot =>
    let (result, m) := t.manager.endRestart id snapshot
    let what : Mark := match result with | .ok () => .revived | .error _ => .broken
    ((t.withManager m).mark [id] what).answer ticket (.done result)
  | .fetch id name key =>
    match t.manager.fetchAndCompile name with
    | (.error e, m) => (t.withManager m).answer ticket (.done (.error (Manager.reloadFailed id e)))
    | (.ok module, m) => (t.withManager m).enlist ticket (.reload id key module)
  | .reload id key module =>
    let (result, m) := t.manager.putIn id key module
    (t.withManager m).answer ticket (.done result)
  | .sweep id =>
    ((t.withManager (t.manager.halt id)).mark [id] .stopped).answer ticket (.done (.ok ()))
  | .gather parts cleans =>
    let summary := BulkSummary.ofResults (parts.filterMap t.resultOf?)
    let m := if cleans then t.manager.endCleanup summary else t.manager.endRestartAll summary
    (t.withManager m).answer ticket (.summed summary)

/-- A task may go on: nobody has the container that it waits for, and its parts have ended. -/
def ready (t : ConcurrentManager) : Task → Bool
  | .stop id | .restart id | .reload id _ _ | .sweep id => !t.locked id
  | .gather parts _ => parts.all fun part => (t.resultOf? part).isSome
  | .run .. | .scale .. | .rest .. | .fetch .. => true

/-- The task at a place goes on, if it may. -/
def go (t : ConcurrentManager) (i : Nat) : ConcurrentManager :=
  match t.tasks[i]? with
  | none => t
  | some (ticket, task) =>
    if t.ready task then { t with tasks := t.tasks.eraseIdx i }.proceed ticket task else t

/-- Nobody waits any more for the run or the scaling at a place; its reservation is dropped. -/
def abandon (t : ConcurrentManager) (i : Nat) : ConcurrentManager :=
  match t.tasks[i]?.bind (·.2.reservation?) with
  | none => t
  | some r => { t with tasks := t.tasks.eraseIdx i, manager := t.manager.drop r }

/-- The next thing happens. -/
def move (t : ConcurrentManager) : Move → ConcurrentManager
  | .ask q => t.ask q
  | .go i => t.go i
  | .abandon i => t.abandon i
  | .interact id x =>
    t.withManager (t.manager.act id () fun c => ((), c.interact t.manager.pool.clock.wall x)).2
  | .observe event who => t.withManager (t.manager.observe event who)
  | .sleep d => t.withManager (t.manager.sleep d)
  | .pass d => t.withManager { t.manager with pool := t.manager.pool.pass d }
  | .surround source network outside => t.withManager
    { t.manager with
      source := source, network := network, pool := { t.manager.pool with outside := outside } }

/-- Things happen one after the other. -/
def run (t : ConcurrentManager) (moves : List Move) : ConcurrentManager := moves.foldl move t

@[simp] theorem run_nil (t : ConcurrentManager) : t.run [] = t := rfl

@[simp] theorem run_cons (t : ConcurrentManager) (x : Move) (xs : List Move) :
    t.run (x :: xs) = (t.move x).run xs := rfl

/-- What every move keeps holds after any number of them. -/
theorem run_induction {P : ConcurrentManager → Prop} (step : ∀ t x, P t → P (t.move x))
    {t : ConcurrentManager}
    (h : P t) (xs : List Move) : P (t.run xs) := by
  induction xs generalizing t with
  | nil => exact h
  | cons x xs ih => exact ih (step t x h)

section

variable (t : ConcurrentManager) (ticket : Nat) (result : Except Failure (List String)) (m : Manager)

@[simp] theorem manager_scaled : (t.scaled ticket result m).manager = m := by
  cases result <;> rfl

@[simp] theorem tasks_scaled : (t.scaled ticket result m).tasks = t.tasks := by
  cases result <;> rfl

@[simp] theorem tickets_scaled : (t.scaled ticket result m).tickets = t.tickets := by
  cases result <;> rfl

end

/-! ## Operations alone -/

/-- The only task goes on when it may. -/
theorem go_alone {t : ConcurrentManager} {ticket : Nat} {task : Task}
    (ht : t.tasks = [(ticket, task)])
    (hr : t.ready task = true) : t.go 0 = { t with tasks := [] }.proceed ticket task := by
  simp only [go, ht, List.getElem?_cons_zero, hr, if_true, List.eraseIdx_cons_zero]

variable (m : Manager) (id name : String)

theorem run_run (config : ContainerConfig) :
    ((opened m).run [.ask (.run name config), .go 0]).manager = (m.run name config).2 := by
  simp only [run_cons, run_nil, move, ask, opened, Manager.run]
  rcases m.beginRun name config with ⟨result | ⟨r, name, config, bytes⟩, m'⟩
  · rfl
  · rfl

theorem run_scale (n : Nat) :
    ((opened m).run [.ask (.scale id n), .go 0]).manager = (m.scale id n).2 := by
  simp only [run_cons, run_nil, move, ask, opened, Manager.scale]
  rcases m.beginScale id n with ⟨e | r, m'⟩
  · rfl
  · show (scaled _ _ (m'.endScale r id n).1 (m'.endScale r id n).2).manager =
      (m'.endScale r id n).2
    exact manager_scaled ..

theorem run_stop : ((opened m).run [.ask (.stop id), .go 0]).manager = (m.stop id).2 := by
  simp only [run_cons, run_nil, move, ask, opened, find, Manager.stop]
  cases m.lookup id with
  | error e => rfl
  | ok c => rfl

theorem run_restart {c : Container} (h : m.lookup id = .ok c) :
    ((opened m).run [.ask (.restart id), .go 0, .sleep Limits.restartGrace, .go 0]).manager =
      (m.restart id).2 := by
  have hfirst := go_alone (t := enlist ⟨m, [], 1, [], []⟩ 0 (.restart id)) rfl rfl
  simp only [run_cons, run_nil, move, ask, opened, find, Manager.restart, h]
  show (((enlist ⟨m, [], 1, [], []⟩ 0 (.restart id)).go 0 |>.move (.sleep _)).go 0).manager = _
  rw [hfirst, go_alone rfl rfl]
  simp only [proceed, move, enlist, mark, answer, withManager]
  rfl

theorem run_hotReload :
    ((opened m).run [.ask (.hotReload id), .go 0, .go 0]).manager = (m.hotReload id).2 := by
  simp only [run_cons, run_nil, move, ask, opened, find, Manager.hotReload]
  cases m.lookup id with
  | error e => rfl
  | ok c =>
    have hfetch := go_alone (t := enlist ⟨m, [], 1, [], []⟩ 0
      (.fetch id c.name (ModuleCache.key c.name c.config))) rfl rfl
    show ((enlist ⟨m, [], 1, [], []⟩ 0 _).go 0 |>.go 0).manager = _
    rw [hfetch]
    simp only [proceed, enlist]
    rcases m.fetchAndCompile c.name with ⟨e | module, m'⟩
    · rfl
    · rfl

end ConcurrentManager
end ContainerHost
