import ContainerHost.Container.Call
import ContainerHost.Container.Lifecycle
/-!
# The pool

All containers that were made together, with the clocks and the directories that surround them. An
action on a container leaves the others as they are (`get?_act_of_ne`), and what the container
announces is heard in the pool. Two clocks run: the wall clock says how long something took, and
the timers are what rests and regular reports go by.

Correspondence: the instances that handles keep alive ↔ `Pool`; the ticks of their metrics tasks ↔
`report`.
-/

namespace ContainerHost

/-- The times of the two clocks in nanoseconds. -/
structure Clock where
  wall : Nat
  timers : Nat
  deriving DecidableEq, Repr, Inhabited

/-- Containers and what surrounds them. `stamps` is how many ids were given out, `heard` what the
containers announced. -/
structure Pool where
  containers : Table Container
  clock : Clock
  outside : Outside
  stamps : Nat
  heard : List Notice
  deriving Inhabited

namespace Pool

def openingTime : Nat := 1700000000000000000

def opened (outside : Outside) : Pool := ⟨.empty, ⟨openingTime, 0⟩, outside, 0, []⟩

def surroundings (y : Pool) : Surroundings := ⟨y.outside, y.clock.wall⟩

def get? (y : Pool) (id : String) : Option Container := y.containers.get? id

def put (y : Pool) (c : Container) : Pool :=
  let (notices, c) := c.takeNotices
  { y with containers := y.containers.insert c.id c, heard := y.heard ++ notices }

def pass (y : Pool) (d : Duration) : Pool :=
  { y with clock := { y.clock with wall := y.clock.wall + d.nanos } }

/-- Does something with the container of an id, which takes a microsecond. -/
def act {α : Type} (y : Pool) (id : String) (f : Container → α × Container) : Option (α × Pool) :=
  match y.get? id with
  | none => none
  | some c =>
    let (a, c) := f c
    some (a, (y.pass (.micros 1)).put c)

def takeHeard (y : Pool) : List Notice × Pool := (y.heard, { y with heard := [] })

/-- A stamp that was not given out before. -/
def stamp (y : Pool) : Stamp × Pool :=
  (.ofSeed (y.clock.wall / 1000000 + y.stamps) y.stamps, { y with stamps := y.stamps + 1 })

/-- Makes a container and starts it, which takes a microsecond. Without an id of its own it gets one
that is made from its name. -/
def create (y : Pool) (id : Option String) (name : String) (sandbox : Guest.Sandbox)
    (module : Guest.Compiled) (digest : Option String) : Except Error String × Pool :=
  let (id, y) :=
    match id with
    | some id => (id, y)
    | none =>
      let (stamp, y) := y.stamp
      (generateId name stamp, y)
  match Container.create id name sandbox module digest y.surroundings with
  | .error e => (.error e, y)
  | .ok c => (.ok c.id, (y.put c).pass (.micros 1))

/-! ## Time -/

def due? (y : Pool) (till : Nat) : Option (Nat × String) :=
  y.containers.entries.foldl (fun found e =>
    match e.2.ticker, found with
    | none, _ => found
    | some t, none => if t.next ≤ till then some (t.next, e.1) else none
    | some t, some (time, id) => if t.next < time then some (t.next, e.1) else some (time, id)) none

/-- Lets the reports that are due by a time be made, the earlier ones first; `fuel` bounds their
number. -/
def report : Nat → Nat → Pool → Pool
  | 0, _, y => y
  | fuel + 1, till, y =>
    match y.due? till with
    | none => y
    | some (time, id) =>
      let y := { y with clock := { y.clock with timers := max y.clock.timers time } }
      match y.act id fun c => ((), c.strike y.clock.wall) with
      | none => y
      | some ((), y) => report fuel till y

/-- How many reports can be due by a time. -/
def reportBound (y : Pool) (till : Nat) : Nat :=
  y.containers.values.foldl (fun n c =>
    match c.ticker with
    | none => n
    | some t => n + (till + 1 - t.next) / t.interval + 1) 0

def sleepUntil (y : Pool) (till : Nat) : Pool :=
  let y := report (y.reportBound till) till y
  { y with clock := { y.clock with timers := max y.clock.timers till } }

def sleep (y : Pool) (d : Duration) : Pool := y.sleepUntil (y.clock.timers + d.nanos)

/-! ## Operations on one container -/

def call (y : Pool) (id function : String) (args : List Wasm.Value) :
    Option (Except Error (List Wasm.Value) × Pool) := do
  let ((result, took), y) ← y.act id fun c =>
    let (result, took, c) := c.call function args y.clock.wall
    ((result, took), c)
  some (result, y.pass took)

def attempts : Nat → Pool → List (Stamp × Surroundings) × Pool
  | 0, y => ([], y)
  | n + 1, y =>
    let (s, y) := y.stamp
    let (rest, y) := attempts n y
    ((s, y.surroundings) :: rest, y)

/-- Makes containers like one of the pool; returns their ids. -/
def scale (y : Pool) (id : String) (n : Nat) : Option (Except Error (List String) × Pool) := do
  let c ← y.get? id
  let (tries, y) := attempts n y
  let (outcome, made) := c.scale tries
  let y := (made.foldl put y).pass (.micros 1)
  some (outcome.map fun () => made.map (·.id), y)

/-! ## Laws -/

theorem get?_put (y : Pool) (c : Container) (id : String) :
    (y.put c).get? id = if c.id = id then some { c with outbox := [] } else y.get? id := by
  simp only [put, Container.takeNotices, get?, Table.get?_insert]

theorem get?_put_self (y : Pool) (c : Container) :
    (y.put c).get? c.id = some { c with outbox := [] } := by
  rw [get?_put, if_pos rfl]

theorem get?_act_of_ne {α : Type} {y y' : Pool} {id other : String}
    {f : Container → α × Container} {a : α} (h : y.act id f = some (a, y'))
    (same : ∀ c, (f c).2.id = c.id) (hid : ∀ c, y.get? id = some c → c.id = id)
    (hne : other ≠ id) : y'.get? other = y.get? other := by
  unfold act at h
  split at h
  · simp at h
  · rename_i c hc
    simp only [Option.some.injEq, Prod.mk.injEq] at h
    rw [← h.2, get?_put, same, hid c hc, if_neg (fun e => hne e.symm)]
    rfl

end Pool
end ContainerHost
