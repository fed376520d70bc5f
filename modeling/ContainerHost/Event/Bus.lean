import ContainerHost.Event.Topic
import ContainerHost.Text.Quoted
/-!
# The event bus

A bus keeps the listeners of each event in the order of their registration: those that stay, and
those that are called once. An emission takes all listeners of its event together, and with them
takes the ones that are called once off the bus. Ids are never given out twice.

Correspondence: `EventBus` with its `Listeners` ↔ `Bus`; `register`, `off`, `snapshot`,
`remove_all_listeners`, `listener_count`, `event_names` ↔ `register`, `off`, `take`, `removeAll`,
`count`, `names`; `EventNamespace::qualify` ↔ `qualify`.
-/

namespace ContainerHost

namespace Event

structure Entry (α : Type) where
  id : Nat
  listener : α
  deriving Inhabited, Repr

/-- What is known about a registration: the event and the id. -/
structure Subscription where
  event : String
  id : Nat
  deriving DecidableEq, Inhabited, Repr

def Subscription.description (s : Subscription) : String :=
  "Subscription \x7b event: " ++ Text.Quoted.quote s.event ++ s!", id: ListenerId({s.id}) \x7d"

def Subscription.idDescription (s : Subscription) : String := s!"ListenerId({s.id})"

/-- The listeners of all events. -/
structure Bus (α : Type) where
  persistent : Table (List (Entry α))
  once : Table (List (Entry α))
  nextId : Nat
  deriving Inhabited

namespace Bus

variable {α : Type}

def empty : Bus α := ⟨.empty, .empty, 1⟩

/-- The listeners of an event in one of the tables. -/
def entriesOf (t : Table (List (Entry α))) (event : String) : List (Entry α) :=
  (t.get? event).getD []

/-- All listeners of an event, those that stay first. -/
def listeners (b : Bus α) (event : String) : List (Entry α) :=
  entriesOf b.persistent event ++ entriesOf b.once event

def append (t : Table (List (Entry α))) (event : String) (e : Entry α) : Table (List (Entry α)) :=
  t.insert event (entriesOf t event ++ [e])

def register (b : Bus α) (event : String) (once : Bool) (listener : α) : Subscription × Bus α :=
  let e : Entry α := ⟨b.nextId, listener⟩
  (⟨event, b.nextId⟩,
    if once then { b with once := append b.once event e, nextId := b.nextId + 1 }
    else { b with persistent := append b.persistent event e, nextId := b.nextId + 1 })

/-- Puts the listeners of an event back; an event without listeners has no entry. -/
def setEntries (t : Table (List (Entry α))) (event : String) (l : List (Entry α)) :
    Table (List (Entry α)) :=
  if l.isEmpty then t.erase event else t.insert event l

/-- Takes the listener of an id off an event; says whether it was there. -/
def off (b : Bus α) (event : String) (id : Nat) : Bool × Bus α :=
  if (b.listeners event).any (·.id == id) then
    (true, { b with
      persistent := setEntries b.persistent event
        ((entriesOf b.persistent event).filter (·.id != id))
      once := setEntries b.once event ((entriesOf b.once event).filter (·.id != id)) })
  else (false, b)

/-- The listeners that an emission of an event calls, and the bus without those of them that are
called once. -/
def take (b : Bus α) (event : String) : List (Entry α) × Bus α :=
  (b.listeners event, { b with once := b.once.erase event })

/-- Takes all listeners off an event, or off all events. -/
def removeAll (b : Bus α) : Option String → Bus α
  | some event => { b with persistent := b.persistent.erase event, once := b.once.erase event }
  | none => { b with persistent := .empty, once := .empty }

def count (b : Bus α) (event : String) : Nat := (b.listeners event).length

/-- The names of the events with listeners, in order. -/
def names (b : Bus α) : List String :=
  ((b.persistent.keys.map (·, ())).foldl (fun t e => t.insert e.1 e.2)
    (Table.ofList (b.once.keys.map (·, ())))).keys

def description (b : Bus α) : String :=
  "EventBus \x7b events: " ++ Text.Quoted.quoteList b.names ++ " \x7d"

def qualify (space event : String) : String := space ++ ":" ++ event

/-! ## Listeners after each operation -/

@[simp] theorem listeners_empty (event : String) : (empty : Bus α).listeners event = [] := rfl

theorem listeners_register_once (b : Bus α) (event event' : String) (l : α) :
    (b.register event true l).2.listeners event' =
      b.listeners event' ++ if event = event' then [⟨b.nextId, l⟩] else [] := by
  simp only [register, listeners, entriesOf, append]
  by_cases h : event = event' <;> simp [h]

theorem listeners_take (b : Bus α) (event event' : String) :
    (b.take event).2.listeners event' =
      if event = event' then entriesOf b.persistent event' else b.listeners event' := by
  simp only [take, listeners, entriesOf]
  by_cases h : event = event' <;> simp [h]

end Bus
end Event
end ContainerHost
