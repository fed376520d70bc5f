import ContainerHost.Proofs.Guest.Deadlines
/-!
# Guests that share an engine

The guests of an engine share its clock. Each has a store of its own, which one call at a time can
have while others wait for it. A call that gets the store puts its own flag there, sets the deadline
by the clock, looks whether its flag was raised meanwhile, and enters the guest. Inside, the guest
looks at the clock at each checkpoint; when the deadline has passed it looks at the flag that its
store holds, and puts the deadline off if that is not raised. To interrupt a call its flag is
raised, and then the clock ticks, which is seen by all.

`Engine` is an engine with the calls that are inside its guests, and `act` the next thing that
happens: as much as no other call can see a part of. Any moves in any order are an interleaving of
calls and interrupts, among them those where something comes in between what one call or one
interrupt does.

What is proved: calls whose flags were not raised take the same turn, whatever the clock shows to
either (`alongside_turn`), and whichever was interrupted is one whose own flag was raised, on an
engine to which anything has happened (`EngineGuest.Sound.act`, `Engine.sound_run`).

Correspondence: `GuestInstance::call_interruptible` ↔ `Instance.turn` with `EngineGuest.acquire`;
`GuestInstance::interrupt` ↔ `Engine.Move.interrupt`; the mutex of the store ↔ `EngineGuest.inside`.
-/

namespace ContainerHost.Guest

open Wasm (Value)
open Store

/-! ## Engines -/

/-- A call with the flag that is raised to interrupt it. Flags are told apart by numbers. -/
structure FlaggedCall where
  flag : Nat
  function : String
  args : List Value

/-- How far a call has come that has the store: the deadline was set by the clock, with what it
showed then, or the call is inside, and the last step has put the deadline off or not. -/
inductive Progress where
  | acquired (epoch : Nat)
  | running (c : Config) (putOff : Bool)

/-- A call that has the store of a guest. -/
structure ActiveCall where
  call : FlaggedCall
  progress : Progress

/-- A call that has given the store back: what it ended with, and the guest as it left it. -/
structure EndedCall where
  call : FlaggedCall
  answer : Except Error (List Value)
  guest : Instance

/-- A guest on an engine, with the call that has its store. `held` is the flag in the store, which
is there until another call gets the store; the one that a new store holds is known to nobody. -/
structure EngineGuest where
  guest : Instance
  held : Option Nat
  inside : Option ActiveCall
  past : List EndedCall

/-- An engine: what its clock shows, the flags that were raised, and the guests. -/
structure Engine where
  epoch : Nat
  raised : List Nat
  guests : List EngineGuest

/-- The next thing that happens: a call gets the store of a guest, the call that has it takes a
turn, or a deadline that was put off is set by the clock as it is by now; a flag is raised, or the
clock ticks. -/
inductive Engine.Move where
  | acquire (guest : Nat) (call : FlaggedCall)
  | go (guest : Nat)
  | renew (guest : Nat)
  | raise (flag : Nat)
  | tick

def Engine.Move.interrupt (flag : Nat) : List Engine.Move := [.raise flag, .tick]

/-! ### Turns -/

/-- What a turn of a call leads to: it still has the store, or it has ended. -/
inductive CallTurn where
  | inside (progress : Progress)
  | out (answer : Except Error (List Value)) (store : Store)

namespace Instance

/-- What a step comes to is a turn of the call; `deadline` is what the deadline was before. -/
def turned (g : Instance) (function : String) (deadline : Nat) : Next → CallTurn
  | .more c => .inside (.running c (c.kept.deadline ≠ deadline))
  | .out outcome s => .out (g.judge function outcome) s

def turn (g : Instance) (call : FlaggedCall) (signal : Signal) : Progress → CallTurn
  | .acquired epoch =>
    match g.approach call.function call.args ⟨epoch, signal.raised⟩ with
    | (.error e, store) => .out (.error e) store
    | (.ok (.host f), store) =>
      match f.call g.wiring.place.outside store call.args with
      | .ok (store, results) => .out (g.judge call.function (.returned results)) store
      | .error why => .out (g.judge call.function (.stopped why)) store
    | (.ok (.own f), ⟨h, k⟩) =>
      .inside (.running ⟨g.wiring.machine.enter g.wiring.toLinks f call.args h, k⟩ false)
  | .running c _ => g.turned call.function c.kept.deadline (step g.wiring signal c)

end Instance

/-! ### Moves -/

namespace EngineGuest

/-- The flag that a call is stopped by: its own one before it enters the guest, and from then on the
one in the store. -/
def flag (s : EngineGuest) (v : ActiveCall) : Option Nat :=
  match v.progress with
  | .acquired _ => some v.call.flag
  | .running .. => s.held

/-- A call gets the store, or it waits for it. -/
def acquire (s : EngineGuest) (e : Engine) (call : FlaggedCall) : EngineGuest :=
  if s.inside.isSome then s
  else { s with held := some call.flag, inside := some ⟨call, .acquired e.epoch⟩ }

def leave (s : EngineGuest) (call : FlaggedCall) (answer : Except Error (List Value))
    (store : Store) : EngineGuest :=
  let guest := { s.guest with store := store }
  { s with guest := guest, inside := none, past := s.past ++ [⟨call, answer, guest⟩] }

def go (s : EngineGuest) (e : Engine) : EngineGuest :=
  match s.inside with
  | none => s
  | some v =>
    match s.guest.turn v.call ⟨e.epoch, (s.flag v).any e.raised.contains⟩ v.progress with
    | .inside progress => { s with inside := some { v with progress := progress } }
    | .out answer store => s.leave v.call answer store

/-- A deadline that was put off is set by the clock, which may have ticked since. -/
def renew (s : EngineGuest) (e : Engine) : EngineGuest :=
  match s.inside with
  | some ⟨call, .running ⟨x, k⟩ true⟩ =>
    { s with inside := some ⟨call, .running ⟨x, k.due (e.epoch + 1)⟩ false⟩ }
  | _ => s

end EngineGuest

namespace Engine

/-- An engine whose guests were not called yet. -/
def opened (epoch : Nat) (guests : List Instance) : Engine :=
  ⟨epoch, [], guests.map fun g => ⟨g, none, none, []⟩⟩

/-- Something becomes of one guest. -/
def modify (e : Engine) (guest : Nat) (f : EngineGuest → EngineGuest) : Engine :=
  { e with guests := e.guests.modify guest f }

/-- The next thing happens. -/
def act (e : Engine) : Move → Engine
  | .acquire guest call => e.modify guest (·.acquire e call)
  | .go guest => e.modify guest (·.go e)
  | .renew guest => e.modify guest (·.renew e)
  | .raise flag => { e with raised := flag :: e.raised }
  | .tick => { e with epoch := e.epoch + 1 }

/-- Things happen one after the other. -/
def run (e : Engine) (moves : List Move) : Engine := moves.foldl act e

/-- How many turns the calls of a guest take. -/
def turns (guest : Nat) (moves : List Move) : Nat :=
  moves.countP fun m => match m with
    | .go i => i == guest
    | _ => false

end Engine

/-! ## One turn -/

/-- What is relied on of a call that is inside. -/
def Progress.Lawful (l : Links) : Progress → Prop
  | .acquired _ => True
  | .running c _ => ∃ s, c.execution.Lawful l s

/-- Both calls have come equally far, with stores that are the same but for the deadline. -/
inductive Progress.Alongside : Progress → Progress → Prop
  | acquired (epoch epoch' : Nat) : Alongside (.acquired epoch) (.acquired epoch')
  | running {c d : Config} (h : c.Alongside d) (putOff putOff' : Bool) :
    Alongside (.running c putOff) (.running d putOff')

theorem Progress.Alongside.refl (progress : Progress) : progress.Alongside progress := by
  cases progress with
  | acquired epoch => exact .acquired epoch epoch
  | running c putOff => exact .running (.refl c) putOff putOff

/-- Both turns leave the store with the call, or both end it with the same answer, which is of this
kind. -/
inductive CallTurn.Alongside (P : Except Error (List Value) → Prop) : CallTurn → CallTurn → Prop
  | inside {progress progress' : Progress} (h : progress.Alongside progress') :
    Alongside P (.inside progress) (.inside progress')
  | out {answer : Except Error (List Value)} (hanswer : P answer) {s t : Store}
    (h : Adjourned s t) : Alongside P (.out answer s) (.out answer t)

theorem CallTurn.Alongside.mono {P Q : Except Error (List Value) → Prop} {x y : CallTurn}
    (h : CallTurn.Alongside P x y) (hPQ : ∀ answer, P answer → Q answer) :
    CallTurn.Alongside Q x y := by
  cases h with
  | inside h => exact .inside h
  | out hanswer h => exact .out (hPQ _ hanswer) h

section

variable {g : Instance} {call : FlaggedCall} {signal signal' : Signal}

theorem lawful_turn {progress progress' : Progress} (h : progress.Lawful g.wiring.toLinks)
    (hturn : g.turn call signal progress = .inside progress') :
    progress'.Lawful g.wiring.toLinks := by
  cases progress with
  | acquired epoch =>
    simp only [Instance.turn] at hturn
    split at hturn
    · cases hturn
    · split at hturn <;> cases hturn
    · rename_i f s k _
      cases hturn
      exact ⟨s, g.wiring.machine.enter_spec g.wiring.toLinks f call.args s⟩
  | running c putOff =>
    simp only [Instance.turn] at hturn
    cases hnext : step g.wiring signal c with
    | more d =>
      rw [hnext] at hturn
      cases hturn
      exact lawful_step h hnext
    | out outcome s =>
      rw [hnext] at hturn
      cases hturn

variable (hs : signal.raised = false) (ht : signal'.raised = false)

include hs ht

/-- Calls whose flags are not raised take the same turn, whatever the clock shows to either. -/
theorem alongside_turn {progress progress' : Progress} (h : progress.Alongside progress')
    (hlawful : progress.Lawful g.wiring.toLinks) :
    CallTurn.Alongside (g.Undisturbed call.function) (g.turn call signal progress)
      (g.turn call signal' progress') := by
  cases h with
  | acquired epoch epoch' =>
    -- the clock gives each call a deadline of its own, and nothing else
    obtain ⟨hsame, hstore, hne⟩ := g.approach_unraised call.function call.args
      ⟨epoch, signal.raised⟩ ⟨epoch', signal'.raised⟩ hs ht
    simp only [Instance.turn]
    generalize g.approach call.function call.args ⟨epoch, signal.raised⟩ = x at hsame hstore hne ⊢
    generalize g.approach call.function call.args ⟨epoch', signal'.raised⟩ = y at hsame hstore ⊢
    obtain ⟨_, s⟩ := x
    obtain ⟨a, t⟩ := y
    obtain rfl := hsame
    rcases a with e | f | f
    · exact .out (fun heq => hne (congrArg Except.error (Except.error.inj heq))) hstore
    · have hcall := hstore.call g.wiring.place.outside f call.args
      dsimp only
      generalize f.call g.wiring.place.outside s call.args = a at hcall ⊢
      generalize f.call g.wiring.place.outside t call.args = b at hcall ⊢
      cases hcall with
      | @ok a b hab =>
        obtain ⟨u, results⟩ := a
        obtain ⟨v, results'⟩ := b
        obtain ⟨huv, rfl⟩ := hab
        exact .out (g.undisturbed_returned _ _) huv
      | error hwhy =>
        exact .out (g.undisturbed_judge _ fun heq => hwhy (Outcome.stopped.inj heq)) hstore
    · have hstore' : Adjourned s t := hstore
      obtain ⟨deadline, rfl⟩ := hstore'
      exact .inside (.running (.mk _ s.toHostState deadline) false false)
  | @running c d h putOff putOff' =>
    have hstep := alongside_step hs ht h hlawful
    simp only [Instance.turn]
    generalize step g.wiring signal c = x at hstep ⊢
    generalize step g.wiring signal' d = y at hstep ⊢
    cases hstep with
    | more h => exact .inside (.running h _ _)
    | out houtcome h => exact .out (g.undisturbed_judge _ houtcome) h

end

theorem turn_of_raised (g : Instance) (call : FlaggedCall) (signal : Signal)
    (hraised : signal.raised = true) (epoch : Nat) :
    g.turn call signal (.acquired epoch) =
      .out (.error (g.interrupted call.function)) (g.store.due (epoch + 1)) := by
  simp only [Instance.turn, Instance.approach, hraised, if_true]
  rfl

theorem raised_of_turn {g : Instance} {call : FlaggedCall} {signal : Signal} {progress : Progress}
    {store : Store} (hlawful : progress.Lawful g.wiring.toLinks)
    (h : g.turn call signal progress = .out (.error (g.interrupted call.function)) store) :
    signal.raised = true := by
  cases hraised : signal.raised with
  | true => rfl
  | false =>
    have hturn : CallTurn.Alongside (g.Undisturbed call.function) (g.turn call signal progress)
        (g.turn call signal progress) := alongside_turn hraised hraised (.refl progress) hlawful
    rw [h] at hturn
    cases hturn with
    | out hanswer => exact absurd rfl hanswer

/-! ## One move -/

def EngineGuest.act (s : EngineGuest) (e : Engine) (guest : Nat) : Engine.Move → EngineGuest
  | .acquire i call => if i = guest then s.acquire e call else s
  | .go i => if i = guest then s.go e else s
  | .renew i => if i = guest then s.renew e else s
  | .raise _ | .tick => s

namespace Engine

variable {e : Engine} {m : Move} {moves : List Move} {flag guest : Nat} {s : EngineGuest}

theorem getElem?_modify (f : EngineGuest → EngineGuest) (i : Nat) :
    (e.modify i f).guests[guest]? =
      (e.guests[guest]?).map fun s => if i = guest then f s else s := by
  unfold modify
  rw [List.getElem?_modify]
  by_cases hi : i = guest
  · simp only [hi, if_true]
    rfl
  · simp only [hi, if_false]
    rfl

theorem getElem?_act (e : Engine) (m : Move) (guest : Nat) :
    (e.act m).guests[guest]? = (e.guests[guest]?).map (·.act e guest m) := by
  cases m with
  | acquire i call => exact getElem?_modify _ i
  | go i => exact getElem?_modify _ i
  | renew i => exact getElem?_modify _ i
  | raise flag | tick => exact (Option.map_id' ..).symm

theorem mem_raised_act : flag ∈ (e.act m).raised ↔ flag ∈ e.raised ∨ m = .raise flag := by
  cases m with
  | raise flag' =>
    change flag ∈ flag' :: e.raised ↔ _
    rw [List.mem_cons, or_comm, Move.raise.injEq, eq_comm]
  | _ => exact ⟨.inl, fun h => h.resolve_right nofun⟩

@[simp] theorem run_nil (e : Engine) : e.run [] = e := rfl

@[simp] theorem run_cons (e : Engine) (m : Move) (ms : List Move) :
    e.run (m :: ms) = (e.act m).run ms := rfl

theorem mem_raised_run : flag ∈ (e.run moves).raised ↔ flag ∈ e.raised ∨ .raise flag ∈ moves := by
  induction moves generalizing e with
  | nil => simp
  | cons m moves ih => rw [run_cons, ih, mem_raised_act, List.mem_cons, or_assoc, @eq_comm _ m]

end Engine

/-! ### Interrupts -/

/-- What a guest keeps to: the flag in its store is that of the call which has the store, what is
relied on of that call is so, and the flag of a call that was interrupted is among those that were
raised. -/
structure EngineGuest.Sound (raised : List Nat) (s : EngineGuest) : Prop where
  held : ∀ v, s.inside = some v → s.held = some v.call.flag
  lawful : ∀ v, s.inside = some v → v.progress.Lawful s.guest.wiring.toLinks
  past : ∀ p ∈ s.past, p.answer = .error (p.guest.interrupted p.call.function) →
    p.call.flag ∈ raised

namespace EngineGuest.Sound

variable {e : Engine} {s : EngineGuest} {raised : List Nat}

theorem mono {raised' : List Nat} (h : s.Sound raised) (hsub : ∀ flag ∈ raised, flag ∈ raised') :
    s.Sound raised' :=
  ⟨h.held, h.lawful, fun p hp hanswer => hsub _ (h.past p hp hanswer)⟩

theorem acquire (h : s.Sound e.raised) (call : FlaggedCall) :
    (s.acquire e call).Sound e.raised := by
  unfold EngineGuest.acquire
  split
  · exact h
  · refine ⟨?_, ?_, h.past⟩
    · rintro v heq
      cases heq
      rfl
    · rintro v heq
      cases heq
      trivial

/-- The flag that a call is stopped by is its own one, wherever it is looked for. -/
theorem flag_eq (h : s.Sound raised) {v : ActiveCall} (hv : s.inside = some v) :
    s.flag v = some v.call.flag := by
  unfold EngineGuest.flag
  split
  · rfl
  · exact h.held v hv

theorem go (h : s.Sound e.raised) : (s.go e).Sound e.raised := by
  unfold EngineGuest.go
  cases hv : s.inside with
  | none => exact h
  | some v =>
    have hflag := h.flag_eq hv
    have hlawful := h.lawful v hv
    dsimp only
    rw [hflag, Option.any_some]
    cases hturn : s.guest.turn v.call ⟨e.epoch, e.raised.contains v.call.flag⟩ v.progress with
    | inside progress =>
      refine ⟨?_, ?_, h.past⟩
      · rintro _ heq
        cases heq
        exact h.held v hv
      · rintro _ heq
        cases heq
        exact lawful_turn hlawful hturn
    | out answer store =>
      refine ⟨fun _ heq => (by cases heq), fun _ heq => (by cases heq), ?_⟩
      intro p hp hanswer
      rcases List.mem_append.mp hp with hp | hp
      · exact h.past p hp hanswer
      · obtain rfl := List.mem_singleton.mp hp
        obtain rfl : answer = .error (s.guest.interrupted v.call.function) := hanswer
        simpa using raised_of_turn hlawful hturn

theorem renew (h : s.Sound e.raised) : (s.renew e).Sound e.raised := by
  unfold EngineGuest.renew
  split
  · rename_i call x k hv
    have hheld := h.held _ hv
    have hlawful := h.lawful _ hv
    refine ⟨?_, ?_, h.past⟩
    · rintro _ heq
      cases heq
      exact hheld
    · rintro _ heq
      cases heq
      exact hlawful
  · exact h

theorem act (h : s.Sound e.raised) (guest : Nat) (m : Engine.Move) :
    (s.act e guest m).Sound (e.act m).raised := by
  have hsub : ∀ flag ∈ e.raised, flag ∈ (e.act m).raised :=
    fun flag hflag => Engine.mem_raised_act.mpr (.inl hflag)
  refine mono ?_ hsub
  cases m with
  | acquire i call =>
    simp only [EngineGuest.act]
    split
    · exact h.acquire call
    · exact h
  | go i =>
    simp only [EngineGuest.act]
    split
    · exact h.go
    · exact h
  | renew i =>
    simp only [EngineGuest.act]
    split
    · exact h.renew
    · exact h
  | raise flag | tick => exact h

end EngineGuest.Sound

namespace Engine

variable {e : Engine}

/-- All guests keep to it. -/
def Sound (e : Engine) : Prop :=
  ∀ (guest : Nat) (s : EngineGuest), e.guests[guest]? = some s → s.Sound e.raised

theorem sound_opened (epoch : Nat) (guests : List Instance) : (opened epoch guests).Sound := by
  intro guest s hs
  obtain ⟨g, -, rfl⟩ : ∃ g, guests[guest]? = some g ∧ (⟨g, none, none, []⟩ : EngineGuest) = s := by
    simpa [opened] using hs
  exact ⟨fun v hv => (by cases hv), fun v hv => (by cases hv),
    fun p hp => absurd hp List.not_mem_nil⟩

theorem Sound.act (h : e.Sound) (m : Move) : (e.act m).Sound := by
  intro guest s hs
  rw [getElem?_act] at hs
  obtain ⟨s', hs', rfl⟩ := Option.map_eq_some_iff.mp hs
  exact (h guest s' hs').act guest m

theorem sound_run (h : e.Sound) (moves : List Move) : (e.run moves).Sound := by
  induction moves generalizing e with
  | nil => exact h
  | cons m moves ih => exact ih (h.act m)

end Engine

end ContainerHost.Guest
