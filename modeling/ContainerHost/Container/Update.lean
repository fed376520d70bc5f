import ContainerHost.Container.Basic
/-!
# State and subscribers

An update merges values into the state, the new ones winning, announces the change, and then calls
every subscriber there was with the merged state. A subscriber that updates the state itself has
its update carried out, with all deliveries of it, before the deliveries that are left.

Correspondence: `update_state`, `subscribe`, `StateSubscription::unsubscribe` ↔ `updateState`,
`subscribe`, `unsubscribe`.
-/

namespace ContainerHost.Container

def merge (c : Container) (update : State) : Container :=
  let merged := c.state.merge update
  { c with state := merged }.announce .stateChange
    [("state", State.toJson merged), ("previousState", c.state.toJson)]

/-- The deliveries that an update which was just merged leads to: a subscriber and the state. -/
def deliveries (c : Container) : List (Nat × State) := c.subscribers.map (·.id, c.state)

def takeReply (c : Container) (id : Nat) : Option State × Container :=
  match c.subscribers.find? (·.id == id) with
  | some s =>
    if s.fails then (none, c)
    else (s.replies.head?, { c with subscribers := c.subscribers.map fun t =>
      if t.id == id then { t with replies := t.replies.drop 1 } else t })
  | none => (none, c)

def notify (c : Container) (id : Nat) (state : State) : Container :=
  match c.subscribers.find? (·.id == id) with
  | some s => { c with outbox := c.outbox ++ [.delivered s.tag state] }
  | none => c

/-- Carries out deliveries in order; the update that a subscriber replies with comes before the
deliveries that are left. `fuel` bounds their number. -/
def deliver : Nat → List (Nat × State) → Container → Container
  | 0, _, c => c
  | _, [], c => c
  | fuel + 1, (id, state) :: rest, c =>
    let c := c.notify id state
    match c.takeReply id with
    | (none, c) => deliver fuel rest c
    | (some reply, c) =>
      let c := c.merge reply
      deliver fuel (c.deliveries ++ rest) c

/-- How many deliveries an update can lead to. -/
def deliveryBound (c : Container) : Nat :=
  c.subscribers.length * ((c.subscribers.flatMap (·.replies)).length + 1)

/-- Merges an update into the state and calls the subscribers. -/
def updateState (c : Container) (update : State) : Container :=
  let c := c.merge update
  deliver c.deliveryBound c.deliveries c

/-- Adds a subscriber; returns its id. -/
def subscribe (c : Container) (tag : String) (fails : Bool) (replies : List State) :
    Nat × Container :=
  let id := c.lastSubscriber + 1
  (id, { c with
    lastSubscriber := id
    subscribers := c.subscribers ++ [⟨id, tag, fails, replies⟩] })

/-- Removes a subscriber; says whether it was there. -/
def unsubscribe (c : Container) (id : Nat) : Bool × Container :=
  (c.subscribers.any (·.id == id), { c with subscribers := c.subscribers.filter (·.id != id) })

/-- A subscription as it describes itself. -/
def subscriptionText (id : Nat) : String := s!"StateSubscription \x7b id: {id} \x7d"

@[simp] theorem state_merge (c : Container) (u : State) : (c.merge u).state = c.state.merge u := rfl

end ContainerHost.Container
