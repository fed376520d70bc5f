import ContainerHost.Event.Script
import Mathlib.Algebra.GroupWithZero.Nat
/-!
# Emissions at the same time

A `ConcurrentBus` is a bus with the emissions that are under way on it and the calls of listeners
that were made. `act` is the next thing that is done with the bus, by anyone: a listener that uses
the bus while it is called does what happens between its call and the next step of the emission that
called it, and a listener that fails does nothing more. Emissions may be nested to any depth,
started by listeners or at the same time, and each goes on when its turn comes.

What is proved about one emission (`Stands.run`): the listeners that it still has to reach are those
that stood there when it started, without those that it has come to, whatever is done meanwhile.

Correspondence: `EventBus::emit` ↔ a step `emit`, and a step `goOn` for each callback.
-/

namespace ContainerHost.Event

def Listener.later : Listener → Bool
  | .direct .. => false
  | .deferred .. => true

/-- Where to listen or to emit: at an event of the bus, or at an event of a name space. -/
structure Address where
  space : Option String
  event : String

def Address.name (a : Address) : String :=
  match a.space with
  | some space => Bus.qualify space a.event
  | none => a.event

/-- What an emission does about listeners that run later: it starts each in its turn, it passes them
over because it has nothing to run them on, or it puts them off to the end and waits for them. -/
inductive Manner where
  | starting
  | bare
  | awaiting
  deriving DecidableEq

/-- The listeners that an emission calls or starts, in order. -/
def Manner.reached (m : Manner) (there : List (Entry Listener)) : List (Entry Listener) :=
  match m with
  | .starting => there
  | .bare => there.filter (!·.listener.later)
  | .awaiting => there.filter (!·.listener.later) ++ there.filter (·.listener.later)

/-- An emission that was started: the listeners that it has not come to, those that it has put off,
and how many it has called or started. -/
structure Round where
  content : Event
  manner : Manner
  ahead : List (Entry Listener)
  putOff : List (Entry Listener)
  count : Nat

/-- A listener was called or started by an emission. -/
structure Call where
  round : Nat
  content : Event
  entry : Entry Listener

/-- A bus, its emissions in the order in which they were started, and the calls in order. -/
structure ConcurrentBus where
  bus : Bus Listener
  rounds : List Round
  calls : List Call

/-- Something that is done with a bus. -/
inductive BusStep where
  | listen (a : Address) (once : Bool) (l : Listener)
  | off (a : Address) (id : Nat)
  | removeAll (event : Option String)
  | emit (a : Address) (content : Event) (m : Manner)
  | goOn (i : Nat)

namespace Round

/-- The listeners that an emission has still to call or start, in order. -/
def rest (r : Round) : List (Entry Listener) :=
  match r.manner with
  | .starting => r.ahead ++ r.putOff
  | .bare => r.ahead.filter (!·.listener.later) ++ r.putOff
  | .awaiting =>
    r.ahead.filter (!·.listener.later) ++ (r.putOff ++ r.ahead.filter (·.listener.later))

/-- An emission has come to all its listeners. -/
def Ended (r : Round) : Prop := r.ahead = [] ∧ r.putOff = []

/-- An emission calls or starts a listener. -/
def reach (r : Round) (e : Entry Listener) : Option (Entry Listener) × Round :=
  (some e, { r with count := r.count + 1 })

/-- The next step of an emission: the listener that it calls or starts, if it does, and what is left
of it. -/
def step (r : Round) : Option (Entry Listener) × Round :=
  match r.ahead, r.putOff with
  | e :: ahead, putOff =>
    match e.listener.later, r.manner with
    | true, .bare => (none, { r with ahead := ahead })
    | true, .awaiting => (none, { r with ahead := ahead, putOff := putOff ++ [e] })
    | _, _ => { r with ahead := ahead }.reach e
  | [], e :: putOff => { r with putOff := putOff }.reach e
  | [], [] => (none, r)

/-- How many steps an emission has still to make at most. -/
def left (r : Round) : Nat := 2 * r.ahead.length + r.putOff.length

/-- How often a listener stands ahead of an emission. -/
def awaits (r : Round) (id : Nat) : Nat := (r.ahead ++ r.putOff).countP (·.id == id)

variable {r : Round}

theorem rest_of_ended (h : r.Ended) : r.rest = [] := by
  unfold rest
  rw [h.1, h.2]
  cases r.manner <;> rfl

theorem ended_of_left (h : r.left = 0) : r.Ended := by
  unfold left at h
  exact ⟨List.eq_nil_of_length_eq_zero (by omega), List.eq_nil_of_length_eq_zero (by omega)⟩

/-- What a step does: it takes the listener that it calls from the rest and counts it, it adds none,
and it comes closer to the end. -/
structure Step (r : Round) (called : Option (Entry Listener)) (t : Round) : Prop where
  content : t.content = r.content
  rest : r.rest = called.toList ++ t.rest
  count : t.count = r.count + called.toList.length
  awaits : ∀ id, called.toList.countP (·.id == id) + t.awaits id ≤ r.awaits id
  left : t.left ≤ r.left - 1

theorem step_spec (r : Round) : r.Step r.step.1 r.step.2 := by
  obtain ⟨content, manner, ahead, putOff, count⟩ := r
  cases ahead with
  | nil =>
    cases putOff with
    | nil => exact ⟨rfl, by cases manner <;> rfl, rfl, fun id => Nat.le_refl _, Nat.zero_le _⟩
    | cons e putOff =>
      refine ⟨rfl, by cases manner <;> rfl, rfl, ?_, by simp [step, reach, left]⟩
      intro id
      simp only [step, reach, awaits, Option.toList, List.nil_append, List.countP_cons,
        List.countP_nil]
      omega
  | cons e ahead =>
    -- a listener is passed over or put off in one case each, and else it is reached
    cases hl : e.listener.later <;> cases manner
    all_goals
      simp only [step, hl, reach]
      refine ⟨rfl, ?_, rfl, ?_, ?_⟩
      · simp [Round.rest, hl]
      · intro id
        simp only [awaits, Option.toList, List.countP_append, List.countP_cons, List.countP_nil]
        omega
      · simp only [Round.left, List.length_cons, List.length_append, List.length_nil]
        omega

end Round

namespace ConcurrentBus

def opened : ConcurrentBus := ⟨.empty, [], []⟩

def emit (f : ConcurrentBus) (event : String) (content : Event) (m : Manner) : ConcurrentBus :=
  let (there, bus) := f.bus.take event
  { f with bus := bus, rounds := f.rounds ++ [⟨content, m, there, [], 0⟩] }

/-- An emission goes on to its next listener. -/
def goOn (f : ConcurrentBus) (i : Nat) : ConcurrentBus :=
  match f.rounds[i]? with
  | none => f
  | some r =>
    let (called, t) := r.step
    { f with
      rounds := f.rounds.set i t
      calls := f.calls ++ called.toList.map (Call.mk i r.content) }

/-- The next thing is done. -/
def act (f : ConcurrentBus) : BusStep → ConcurrentBus
  | .listen a once l => { f with bus := (f.bus.register a.name once l).2 }
  | .off a id => { f with bus := (f.bus.off a.name id).2 }
  | .removeAll event => { f with bus := f.bus.removeAll event }
  | .emit a content m => f.emit a.name content m
  | .goOn i => f.goOn i

/-- Things are done one after the other. -/
def run (f : ConcurrentBus) (steps : List BusStep) : ConcurrentBus := steps.foldl act f

@[simp] theorem run_nil (f : ConcurrentBus) : f.run [] = f := rfl

@[simp] theorem run_cons (f : ConcurrentBus) (d : BusStep) (ds : List BusStep) :
    f.run (d :: ds) = (f.act d).run ds := rfl

theorem run_append (f : ConcurrentBus) (ds es : List BusStep) : f.run (ds ++ es) =
    (f.run ds).run es :=
  List.foldl_append

theorem goOn_eq {f : ConcurrentBus} {i : Nat} {r : Round} (h : f.rounds[i]? = some r) :
    f.goOn i = { f with
      rounds := f.rounds.set i r.step.2
      calls := f.calls ++ r.step.1.toList.map (Call.mk i r.content) } := by
  simp only [goOn, h]

/-- The calls that an emission has made. -/
def callsOf (f : ConcurrentBus) (i : Nat) : List Call := f.calls.filter (·.round == i)

/-- Each call was made by an emission that was started. -/
def Numbered (f : ConcurrentBus) : Prop := ∀ c ∈ f.calls, c.round < f.rounds.length

/-- The emission with a number: what it passes on, and what is left of it. The listeners in `all`
are those that it has called or started, in order, and then those that it has still to reach. -/
structure Stands (f : ConcurrentBus) (i : Nat) (content : Event) (all : List (Entry Listener))
    (r : Round) : Prop where
  round : f.rounds[i]? = some r
  passes : r.content = content
  calls : f.callsOf i ++ r.rest.map (Call.mk i content) = all.map (Call.mk i content)
  count : r.count = (f.callsOf i).length

variable {f : ConcurrentBus} {i : Nat} {content : Event} {all : List (Entry Listener)} {r : Round}

/-- An emission that has come to its end has called or started all its listeners. -/
theorem Stands.ended (h : f.Stands i content all r) (hended : r.Ended) :
    f.callsOf i = all.map (Call.mk i content) ∧ r.count = all.length := by
  have hcalls := h.calls
  rw [Round.rest_of_ended hended, List.map_nil, List.append_nil] at hcalls
  refine ⟨hcalls, ?_⟩
  rw [h.count, hcalls, List.length_map]

/-- An emission that starts has to reach the listeners that are there. -/
theorem stands_emit (h : f.Numbered) (event : String) (content : Event) (m : Manner) :
    (f.emit event content m).Stands f.rounds.length content
      (m.reached (f.bus.listeners event)) ⟨content, m, f.bus.listeners event, [], 0⟩ := by
  have hnone : (f.emit event content m).callsOf f.rounds.length = [] := by
    show f.calls.filter _ = []
    rw [List.filter_eq_nil_iff]
    intro c hc hround
    have hlt := h c hc
    rw [beq_iff_eq] at hround
    omega
  refine ⟨?_, rfl, ?_, ?_⟩
  · show (f.rounds ++ [_])[f.rounds.length]? = _
    rw [List.getElem?_concat_length]
  · rw [hnone, List.nil_append]
    cases m <;> simp [Round.rest, Manner.reached]
  · rw [hnone]
    rfl

theorem numbered_act (h : f.Numbered) (d : BusStep) : (f.act d).Numbered := by
  cases d with
  | listen a once l => exact h
  | off a id => exact h
  | removeAll event => exact h
  | emit a content m =>
    intro c hc
    have hlt := h c hc
    show c.round < (f.rounds ++ [_]).length
    rw [List.length_append]
    omega
  | goOn i =>
    simp only [act]
    cases hr : f.rounds[i]? with
    | none =>
      simp only [goOn, hr]
      exact h
    | some r =>
      have hi : i < f.rounds.length := (List.getElem?_eq_some_iff.mp hr).1
      rw [goOn_eq hr]
      intro c hc
      show c.round < (f.rounds.set i r.step.2).length
      rw [List.length_set]
      rcases List.mem_append.mp hc with hc | hc
      · exact h c hc
      · obtain ⟨e, -, rfl⟩ := List.mem_map.mp hc
        exact hi

/-- Going on with one emission. -/
theorem Stands.goOn (h : f.Stands i content all r) :
    (f.goOn i).Stands i content all r.step.2 := by
  have hstep := r.step_spec
  have hi : i < f.rounds.length := (List.getElem?_eq_some_iff.mp h.round).1
  have hcalls : (f.goOn i).callsOf i = f.callsOf i ++ r.step.1.toList.map (Call.mk i content) := by
    rw [goOn_eq h.round, h.passes]
    simp only [callsOf, List.filter_append]
    congr 1
    rw [List.filter_eq_self]
    intro c hc
    obtain ⟨e, -, rfl⟩ := List.mem_map.mp hc
    exact beq_self_eq_true i
  refine ⟨?_, hstep.content.trans h.passes, ?_, ?_⟩
  · rw [goOn_eq h.round]
    exact List.getElem?_set_self hi
  · rw [hcalls, List.append_assoc, ← List.map_append, ← hstep.rest]
    exact h.calls
  · rw [hcalls, List.length_append, List.length_map, hstep.count, h.count]

/-- Going on with another emission. -/
theorem Stands.goOn_of_ne (h : f.Stands i content all r) {j : Nat} (hne : j ≠ i) :
    (f.goOn j).Stands i content all r := by
  cases hj : f.rounds[j]? with
  | none =>
    simp only [ConcurrentBus.goOn, hj]
    exact h
  | some q =>
    have hnone : (q.step.1.toList.map (Call.mk j q.content)).filter (·.round == i) = [] := by
      rw [List.filter_eq_nil_iff]
      intro c hc hround
      obtain ⟨e, -, rfl⟩ := List.mem_map.mp hc
      exact hne (beq_iff_eq.mp hround)
    have hcalls : (f.goOn j).callsOf i = f.callsOf i := by
      rw [goOn_eq hj]
      simp only [callsOf, List.filter_append, hnone, List.append_nil]
    refine ⟨?_, h.passes, hcalls ▸ h.calls, hcalls ▸ h.count⟩
    rw [goOn_eq hj]
    show (f.rounds.set j _)[i]? = some r
    rw [List.getElem?_set_ne hne]
    exact h.round

/-- Whatever is done with the bus, an emission reaches the same listeners. -/
theorem Stands.act (h : f.Stands i content all r) (d : BusStep) :
    ∃ q, (f.act d).Stands i content all q := by
  cases d with
  | listen a once l => exact ⟨r, h.round, h.passes, h.calls, h.count⟩
  | off a id => exact ⟨r, h.round, h.passes, h.calls, h.count⟩
  | removeAll event => exact ⟨r, h.round, h.passes, h.calls, h.count⟩
  | emit a content' m =>
    have hi : i < f.rounds.length := (List.getElem?_eq_some_iff.mp h.round).1
    refine ⟨r, ?_, h.passes, h.calls, h.count⟩
    show (f.rounds ++ [_])[i]? = some r
    rw [List.getElem?_append_left hi]
    exact h.round
  | goOn j =>
    by_cases hj : j = i
    · subst hj
      exact ⟨r.step.2, h.goOn⟩
    · exact ⟨r, h.goOn_of_ne hj⟩

theorem Stands.run (h : f.Stands i content all r) (ds : List BusStep) :
    ∃ q, (f.run ds).Stands i content all q := by
  induction ds generalizing f r with
  | nil => exact ⟨r, h⟩
  | cons d ds ih =>
    obtain ⟨q, hq⟩ := h.act d
    exact ih hq

/-- An emission that goes on comes to its end. -/
theorem Stands.ends (h : f.Stands i content all r) {n : Nat} (hn : r.left ≤ n) :
    ∃ q, (f.run (List.replicate n (.goOn i))).Stands i content all q ∧ q.Ended := by
  induction n generalizing f r with
  | zero => exact ⟨r, h, Round.ended_of_left (Nat.le_zero.mp hn)⟩
  | succ n ih =>
    have hleft := r.step_spec.left
    rw [List.replicate_succ, run_cons]
    exact ih h.goOn (by omega)

end ConcurrentBus
end ContainerHost.Event
