import ContainerHost.Pool.Basic
/-!
# Operations

Things that are asked of containers at the same time. Whatever can be done at once is done when it
is asked; the rest goes on together and is settled in the end. A container does one of stopping,
restarting and reloading at a time: what is asked of it while it rests waits for its turn. Every
operation has a ticket, under which its answer is found.

Correspondence: operations that run at the same time ↔ `Scheduler`; the `lifecycle` lock of an
instance ↔ `resting`.
-/

namespace ContainerHost

/-- Something that is asked of a container. -/
inductive Operation where
  | call (function : String) (args : List Wasm.Value)
  | stop
  | restart
  | reload (module : Guest.Compiled) (digest : Option String)
  deriving Inhabited

/-- What came of an operation. -/
inductive Answer where
  | called (result : Except Error (List Wasm.Value))
  | done (result : Except Error Unit)
  deriving Inhabited

/-- A container between the halves of a restart, with the state that will be put back. -/
structure Rest where
  ticket : Nat
  id : String
  till : Nat
  snapshot : State
  deriving Inhabited

/-- Operations on the containers of a pool: calls inside their guests, reloads that were prepared,
containers at rest, operations that wait for one of those, and answers. -/
structure Scheduler where
  pool : Pool
  tickets : Nat
  calls : List (Nat × String × Container.CallProgress)
  reloads : List (Nat × String × Guest.Compiled × Option String)
  rests : List Rest
  waiting : List (Nat × String × Operation)
  answers : List (Nat × Answer)
  deriving Inhabited

namespace Scheduler

/-- A scheduler without operations. -/
def opened (y : Pool) : Scheduler := ⟨y, 0, [], [], [], [], []⟩

def answer (d : Scheduler) (ticket : Nat) (a : Answer) : Scheduler :=
  { d with answers := d.answers ++ [(ticket, a)] }

/-- Does something with a container and goes on with what came of it. -/
def withContainer {α : Type} (d : Scheduler) (id : String) (f : Container → α × Container)
    (next : α → Scheduler → Scheduler) : Scheduler :=
  match d.pool.act id f with
  | none => d
  | some (a, y) => next a { d with pool := y }

def perform (d : Scheduler) (ticket : Nat) (id : String) : Operation → Scheduler
  | .call function args =>
    d.withContainer id (fun c => c.beginCall function args d.pool.clock.wall) fun p d =>
      match p with
      | .ended result => d.answer ticket (.called result)
      | .entered .. => { d with calls := d.calls ++ [(ticket, id, p)] }
  | .stop => d.withContainer id (fun c => ((), c.stop)) fun () d => d.answer ticket (.done (.ok ()))
  | .restart =>
    d.withContainer id Container.beginRestart fun snapshot d =>
      { d with rests :=
        d.rests ++ [⟨ticket, id, d.pool.clock.timers + Limits.restartGrace.nanos, snapshot⟩] }
  | .reload m digest =>
    d.withContainer id (fun c => c.hotReload m digest d.pool.surroundings) fun r d =>
      d.answer ticket (.done r)

def resting (d : Scheduler) (id : String) : Bool := d.rests.any (·.id == id)

def enter (d : Scheduler) (ticket : Nat) (id : String) (e : Operation) : Scheduler :=
  if d.resting id then { d with waiting := d.waiting ++ [(ticket, id, e)] }
  else d.perform ticket id e

/-- Asks for an operation; returns its ticket. A call does not wait for a rest, and a reload is first
prepared. -/
def ask (d : Scheduler) (id : String) (e : Operation) : Nat × Scheduler :=
  let ticket := d.tickets
  let d := { d with tickets := d.tickets + 1 }
  (ticket, match e with
    | .call .. => d.perform ticket id e
    | .reload m digest => { d with reloads := d.reloads ++ [(ticket, id, m, digest)] }
    | _ => d.enter ticket id e)

/-- Ends the calls that are inside their guests, in the order in which they entered. -/
def endCalls (d : Scheduler) : Scheduler :=
  d.calls.foldl (fun d (ticket, id, p) =>
    let d := { d with pool := d.pool.pass p.took }
    d.withContainer id (fun c => c.endCall p d.pool.clock.wall) fun r d =>
      d.answer ticket (.called r)) { d with calls := [] }

def startReloads (d : Scheduler) : Scheduler :=
  d.reloads.foldl (fun d (ticket, id, m, digest) => d.enter ticket id (.reload m digest))
    { d with reloads := [] }

/-- Starts what waits for a container, up to the next rest. -/
def serve (d : Scheduler) (id : String) : Scheduler :=
  d.waiting.foldl (fun d (ticket, id', e) =>
    if id' = id then d.enter ticket id e
    else { d with waiting := d.waiting ++ [(ticket, id', e)] }) { d with waiting := [] }

/-- The rest that ends first. -/
def nextRest? (d : Scheduler) : Option Rest :=
  d.rests.foldl (fun found r =>
    match found with
    | none => some r
    | some q => if r.till < q.till then some r else some q) none

def wake (d : Scheduler) : Scheduler :=
  match d.nextRest? with
  | none => d
  | some r =>
    let d := { d with pool := d.pool.sleepUntil r.till, rests := d.rests.filter (·.ticket != r.ticket) }
    (d.withContainer r.id (fun c => c.endRestart r.snapshot d.pool.surroundings) fun result d =>
      d.answer r.ticket (.done result)).serve r.id

/-- Ends rests one after the other, at most `fuel` of them. -/
def wakeAll : Nat → Scheduler → Scheduler
  | 0, d => d
  | fuel + 1, d => if d.rests.isEmpty then d else wakeAll fuel d.wake

/-- Brings all operations to their ends. -/
def settle (d : Scheduler) : Scheduler :=
  let d := d.endCalls.startReloads
  wakeAll (d.rests.length + d.waiting.length) d

def answer? (d : Scheduler) (ticket : Nat) : Option Answer :=
  (d.answers.find? (·.1 == ticket)).map (·.2)

end Scheduler
end ContainerHost
