import ContainerHost.Event.Bus
/-!
# Listeners that act

Listeners written as scripts: a listener notes what it hears, and may then use the bus itself or
fail. An emission calls the listeners that were on the bus when it started, one after the other,
and each of them may start further emissions that run to their end before it goes on. Listeners
that run later are started by an emission and note what they heard when they have waited for their
turns.

Correspondence: `emit` with `invoke_sync`, `emit_async` with `invoke_async` ↔ `emit`, `emitAndWait`;
`Subscription::unsubscribe` ↔ `unsubscribe`. The callbacks are scripts.
-/

namespace ContainerHost.Event

/-- What is emitted: under which event, what, and whether from a thread on which nothing can be
started to run later. -/
structure Emission where
  event : String
  content : Event
  threaded : Bool
  deriving Inhabited, Repr

/-- What a listener does after it has heard something. -/
inductive Action where
  | fail
  | unsubscribe (sub : Nat)
  | emit (e : Emission)
  | listen (event tag : String) (once : Bool)
  | removeAll (event : Option String)
  | count (event : String)
  deriving Inhabited, Repr

/-- How a listener that runs later ends. One that crashes at once does not come to note anything. -/
inductive Ending where
  | completes
  | fails
  | crashes
  | crashesAtOnce
  deriving DecidableEq, Inhabited, Repr

/-- A listener: one that acts at once, or one that runs later after giving way some times. -/
inductive Listener where
  | direct (tag : String) (actions : List Action)
  | deferred (tag : String) (yields : Nat) (ending : Ending)
  deriving Inhabited, Repr

/-- What is noted. -/
inductive Note where
  | heard (tag : String) (e : Event)
  | unsubscribed (found : Option Bool)
  | emitted (count : Nat)
  | counted (count : Nat)
  deriving Inhabited, Repr

/-- A listener that was started and runs later. -/
structure Task where
  tag : String
  yields : Nat
  ending : Ending
  content : Event
  deriving Inhabited, Repr

/-- A bus with the subscriptions made on it (`none` once used up), what was noted, and the tasks
that are still to run, in the order in which they were started. -/
structure ScriptedBus where
  bus : Bus Listener
  subs : List (Option Subscription)
  notes : List Note
  tasks : List Task
  dropped : Bool
  deriving Inhabited

namespace ScriptedBus

def fresh : ScriptedBus := ⟨.empty, [], [], [], false⟩

def note (s : ScriptedBus) (n : Note) : ScriptedBus := { s with notes := s.notes ++ [n] }

def register (s : ScriptedBus) (event : String) (once : Bool) (l : Listener) :
    Subscription × ScriptedBus :=
  let (sub, bus) := s.bus.register event once l
  (sub, { s with bus := bus, subs := s.subs ++ [some sub] })

def keepsBus : Listener → Bool
  | .direct _ actions => !actions.isEmpty
  | .deferred .. => false

/-- The bus is there: it was not dropped, or one of its own listeners keeps it. -/
def alive (s : ScriptedBus) : Bool :=
  !s.dropped ||
    (s.bus.persistent.values ++ s.bus.once.values).any fun l => l.any fun e => keepsBus e.listener

/-- Uses a subscription up to take its listener off the bus. -/
def unsubscribe (s : ScriptedBus) (sub : Nat) : Option Bool × ScriptedBus :=
  match s.subs[sub]? with
  | some (some h) =>
    let s' := { s with subs := s.subs.set sub none }
    if s.alive then
      let (found, bus) := s.bus.off h.event h.id
      (some found, { s' with bus := bus })
    else (some false, s')
  | _ => (none, s)

/-- Takes the listener of a subscription off an event; the subscription stays. -/
def off (s : ScriptedBus) (event : String) (sub : Nat) : Option Bool × ScriptedBus :=
  match s.subs[sub]? with
  | some (some h) =>
    let (found, bus) := s.bus.off event h.id
    (some found, { s with bus := bus })
  | _ => (none, s)

/-- How an emission runs: the number of listeners called or started, and the scripted bus after it. -/
abbrev Emitter := Emission → ScriptedBus → Option (Nat × ScriptedBus)

def perform (emit : Emitter) : List Action → ScriptedBus → Option ScriptedBus
  | [], s => some s
  | .fail :: _, s => some s
  | .unsubscribe sub :: rest, s =>
    let (found, s) := s.unsubscribe sub
    perform emit rest (s.note (.unsubscribed found))
  | .emit e :: rest, s => do
    let (n, s) ← emit e s
    perform emit rest (s.note (.emitted n))
  | .listen event tag once :: rest, s => perform emit rest (s.register event once (.direct tag [])).2
  | .removeAll event :: rest, s => perform emit rest { s with bus := s.bus.removeAll event }
  | .count event :: rest, s => perform emit rest (s.note (.counted (s.bus.count event)))

/-- Calls or starts some listeners in order; returns how many. -/
def deliver (emit : Emitter) (e : Emission) : List (Entry Listener) → ScriptedBus → Option
    (Nat × ScriptedBus)
  | [], s => some (0, s)
  | entry :: rest, s =>
    match entry.listener with
    | .direct tag actions => do
      let s ← perform emit actions (s.note (.heard tag e.content))
      let (n, s) ← deliver emit e rest s
      some (n + 1, s)
    | .deferred tag yields ending =>
      if e.threaded then deliver emit e rest s
      else do
        let task : Task := ⟨tag, yields, ending, e.content⟩
        let (n, s) ← deliver emit e rest { s with tasks := s.tasks ++ [task] }
        some (n + 1, s)

/-- Emits something, with emissions by listeners nested at most `fuel` deep. -/
def emit : Nat → Emitter
  | 0, _, _ => none
  | fuel + 1, e, s =>
    let (entries, bus) := s.bus.take e.event
    deliver (fun inner s => emit fuel { inner with threaded := inner.threaded || e.threaded } s) e
      entries { s with bus := bus }

/-- What a task notes when its turn has come. -/
def Task.note? (t : Task) : Option Note :=
  match t.ending with
  | .crashesAtOnce => none
  | _ => some (.heard t.tag t.content)

/-- Tasks in the order in which they get to note something: those that give way less often first,
and of those that give way equally often the one that was started first. -/
def inTurn (tasks : List Task) : List Task := tasks.mergeSort fun a b => a.yields ≤ b.yields

def settle (tasks : List Task) : List Note := (inTurn tasks).filterMap Task.note?

def Task.turns (t : Task) : Nat :=
  match t.ending with
  | .crashesAtOnce => 0
  | _ => t.yields

/-- Emits something and waits for every listener that it starts. What other emissions start
meanwhile runs as well, for as many turns as are waited for, and each time after the others. -/
def emitAndWait (fuel : Nat) (e : Emission) (s : ScriptedBus) : Option ScriptedBus := do
  let (entries, bus) := s.bus.take e.event
  let direct := entries.filter fun x => match x.listener with
    | .direct .. => true
    | .deferred .. => false
  let own := entries.filterMap fun x => match x.listener with
    | .deferred tag yields ending => some (⟨tag, yields, ending, e.content⟩ : Task)
    | .direct .. => none
  let (_, s) ← deliver (emit fuel) e direct { s with bus := bus }
  let turns := (own.map Task.turns).foldl max 0
  let (meanwhile, later) := s.tasks.partition fun t => t.yields < turns
  some { s with notes := s.notes ++ settle (own ++ meanwhile), tasks := later }

/-! ## Commands -/

/-- What can be done with a scripted bus from outside. -/
inductive Command where
  | listen (event tag : String) (once : Bool) (actions : List Action)
  | listenLater (event tag : String) (yields : Nat) (ending : Ending)
  | unsubscribe (sub : Nat)
  | off (event : String) (sub : Nat)
  | emit (e : Emission)
  | emitAndWait (e : Emission)
  | removeAll (event : Option String)
  | count (event : String)
  | names
  | nameSpace (space : String)
  | describe
  | drop
  deriving Inhabited, Repr

/-- The answer to a command. -/
inductive Reply where
  | registered (sub : Subscription)
  | found (b : Option Bool)
  | count (n : Nat)
  | names (l : List String)
  | text (s : String)
  | noBus
  | done
  deriving Inhabited, Repr

/-- Carries out a command on a bus that was not dropped; emissions nest at most `depth` deep. -/
def obey (depth : Nat) (s : ScriptedBus) : Command → Option (Reply × ScriptedBus)
  | .listen event tag once actions =>
    let (sub, s) := s.register event once (.direct tag actions)
    some (.registered sub, s)
  | .listenLater event tag yields ending =>
    let (sub, s) := s.register event false (.deferred tag yields ending)
    some (.registered sub, s)
  | .unsubscribe sub => let (b, s) := s.unsubscribe sub; some (.found b, s)
  | .off event sub => let (b, s) := s.off event sub; some (.found b, s)
  | .emit e => (emit depth e s).map fun (n, s) => (.count n, s)
  | .emitAndWait e => (emitAndWait depth e s).map (.done, ·)
  | .removeAll event => some (.done, { s with bus := s.bus.removeAll event })
  | .count event => some (.count (s.bus.count event), s)
  | .names => some (.names s.bus.names, s)
  | .nameSpace space => some (.text space, s)
  | .describe => some (.text s.bus.description, s)
  | .drop => some (.done, { s with dropped := true })

/-- Carries out a command and then runs the tasks it has started; returns the answer, what was
noted during the command, and what was noted after it. -/
def command (depth : Nat) (s : ScriptedBus) (c : Command) :
    Option (Reply × List Note × List Note × ScriptedBus) := do
  let (reply, s) ← match s.dropped, c with
    | true, .unsubscribe sub => let (b, s) := s.unsubscribe sub; some (.found b, s)
    | true, _ => some (.noBus, s)
    | false, c => s.obey depth c
  some (reply, s.notes, settle s.tasks, { s with notes := [], tasks := [] })

end ScriptedBus
end ContainerHost.Event
