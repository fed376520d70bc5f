import ContainerHost.Interpreter.Machine
import ContainerHost.Proofs.Guest.Engine
import Mathlib.Logic.Function.Iterate
/-!
# Interrupts among other calls

A call on an engine is compared with `Instance.course`, which is the same call while nothing else
happens: the clock stands still, and its flag is raised from the beginning or never.
`EngineGuest.Kept` says that the two have come to the same, but for the deadline. It is kept by
whatever happens on the engine as long as the flag of the call is not raised meanwhile (`kept_run`,
and `EngineGuest.Kept.act` for one move). By itself a call ends, as `Instance.call` says
(`Instance.course_call`).

What is proved: `interrupts_confined`, for whatever has happened on an engine, in any order.
-/

namespace ContainerHost.Guest

open Wasm (Value)
open Store

/-! ## Calls by themselves -/

namespace Instance

variable (g : Instance) (call : FlaggedCall)

/-- What one more turn leads to while the clock stands still; the flag is raised or it is not. -/
def next (raised : Bool) : CallTurn → CallTurn
  | .inside progress => g.turn call ⟨0, raised⟩ progress
  | .out answer store => .out answer store

/-- What a call has come to in a number of turns while nothing else happens. -/
def course (raised : Bool) (turns : Nat) : CallTurn :=
  (g.next call raised)^[turns] (.inside (.acquired 0))

theorem course_succ (raised : Bool) (n : Nat) :
    g.course call raised (n + 1) = g.next call raised (g.course call raised n) :=
  Function.iterate_succ_apply' ..

/-- A call whose flag is raised from the beginning ends in its first turn. -/
theorem course_raised (n : Nat) :
    g.course call true (n + 1) = .out (.error (g.interrupted call.function)) (g.store.due 1) := by
  induction n with
  | zero => exact turn_of_raised g call ⟨0, true⟩ rfl 0
  | succ n ih => rw [course_succ, ih, next]

theorem lawful_course {raised : Bool} {n : Nat} {progress : Progress}
    (h : g.course call raised n = .inside progress) : progress.Lawful g.wiring.toLinks := by
  induction n generalizing progress with
  | zero =>
    cases h
    trivial
  | succ n ih =>
    rw [course_succ] at h
    generalize g.course call raised n = turn at h ih
    cases turn with
    | inside before => exact lawful_turn (ih rfl) h
    | out answer store => cases h

end Instance

/-- As long as it has the store a call takes the turns that it takes by itself, whatever the clock
shows; one whose flag is raised has just got it. -/
theorem alongside_course {g : Instance} {call : FlaggedCall} {raised : Bool} {n : Nat}
    {progress progress' : Progress} (hcourse : g.course call raised n = .inside progress)
    (h : progress.Alongside progress') (signal : Signal) (hsignal : signal.raised = raised) :
    CallTurn.Alongside (fun _ => True) (g.turn call ⟨0, raised⟩ progress)
      (g.turn call signal progress') := by
  cases raised with
  | false =>
    have hlawful := g.lawful_course call hcourse
    exact (alongside_turn rfl hsignal h hlawful).mono fun _ _ => trivial
  | true =>
    -- after its first turn a call whose flag is raised has the store no more
    cases n with
    | zero =>
      cases hcourse
      cases h with
      | acquired epoch epoch' =>
        rw [turn_of_raised g call ⟨0, true⟩ rfl, turn_of_raised g call signal hsignal]
        exact .out trivial ⟨_, rfl⟩
    | succ n =>
      rw [g.course_raised call n] at hcourse
      cases hcourse

/-! ## Calls among others -/

/-- A call that got the store of the guest `g`, which `before` calls had given back by then, has
come to the same on an engine as by itself, but for the deadline. -/
inductive EngineGuest.Kept (g : Instance) (call : FlaggedCall) (before : Nat) (s : EngineGuest) :
    CallTurn → Prop
  | inside {progress progress' : Progress} (h : progress.Alongside progress') (hguest : s.guest = g)
    (hinside : s.inside = some ⟨call, progress'⟩) (hpast : s.past.length = before) :
    Kept g call before s (.inside progress)
  | out {answer : Except Error (List Value)} {store store' : Store} (h : Adjourned store store')
    (hpast : s.past[before]? = some ⟨call, answer, { g with store := store' }⟩) :
    Kept g call before s (.out answer store)

namespace EngineGuest.Kept

variable {g : Instance} {call : FlaggedCall} {before : Nat} {s : EngineGuest} {turn : CallTurn}
  {e : Engine}

theorem acquire (h : s.Kept g call before turn) (call' : FlaggedCall) :
    (s.acquire e call').Kept g call before turn := by
  unfold EngineGuest.acquire
  split
  · exact h
  · rename_i hfree
    cases h with
    | inside h hguest hinside hpast =>
      rw [hinside] at hfree
      exact absurd rfl hfree
    | out h hpast => exact .out h hpast

theorem renew (h : s.Kept g call before turn) : (s.renew e).Kept g call before turn := by
  unfold EngineGuest.renew
  split
  · rename_i call' x k hinside'
    cases h with
    | inside h hguest hinside hpast =>
      rw [hinside] at hinside'
      cases hinside'
      cases h with
      | running h putOff putOff' =>
        cases h
        exact .inside (.running (.mk _ _ (e.epoch + 1)) putOff false) hguest rfl hpast
    | out h hpast => exact .out h hpast
  · exact h

theorem go {raised : Bool} {n : Nat} (h : s.Kept g call before (g.course call raised n))
    (hsound : s.Sound e.raised) (hraised : e.raised.contains call.flag = raised) :
    (s.go e).Kept g call before (g.course call raised (n + 1)) := by
  rw [Instance.course_succ]
  generalize hcourse : g.course call raised n = turn at h ⊢
  unfold EngineGuest.go
  cases h with
  | out h hpast =>
    have hlt : before < s.past.length := (List.getElem?_eq_some_iff.mp hpast).1
    cases s.inside with
    | none => exact .out h hpast
    | some v =>
      dsimp only
      split
      · exact .out h hpast
      · refine .out h ?_
        rw [← hpast]
        exact List.getElem?_append_left hlt
  | inside h hguest hinside hpast =>
    -- the flag that is looked at is the call's own, how far it may have come
    have hflag := hsound.flag_eq hinside
    obtain rfl := hguest
    rename_i progress progress'
    have hturn := alongside_course hcourse h ⟨e.epoch, raised⟩ rfl
    rw [hinside]
    dsimp only [Instance.next]
    rw [hflag, Option.any_some, hraised]
    generalize s.guest.turn call ⟨0, raised⟩ progress = x at hturn ⊢
    generalize s.guest.turn call ⟨e.epoch, raised⟩ progress' = y at hturn ⊢
    cases hturn with
    | inside h => exact .inside h rfl rfl hpast
    | out _ h =>
      refine .out h ?_
      obtain rfl := hpast
      exact List.getElem?_concat_length

theorem act {raised : Bool} {n : Nat} (h : s.Kept g call before (g.course call raised n))
    (hsound : s.Sound e.raised) (hraised : e.raised.contains call.flag = raised) (guest : Nat)
    (m : Engine.Move) :
    (s.act e guest m).Kept g call before (g.course call raised (n + Engine.turns guest [m])) := by
  cases m with
  | acquire i call' =>
    simp only [EngineGuest.act]
    split
    · exact h.acquire call'
    · exact h
  | go i =>
    simp only [EngineGuest.act]
    split
    · rename_i hi
      have hone : Engine.turns guest [.go i] = 1 := by simp [Engine.turns, hi]
      rw [hone]
      exact h.go hsound hraised
    · rename_i hi
      have hnone : Engine.turns guest [.go i] = 0 := by simp [Engine.turns, hi]
      rw [hnone]
      exact h
  | renew i =>
    simp only [EngineGuest.act]
    split
    · exact h.renew
    · exact h
  | raise flag | tick => exact h

end EngineGuest.Kept

namespace Engine

variable {e : Engine} {g : Instance} {call : FlaggedCall} {before guest n : Nat} {s : EngineGuest}

theorem turns_cons (guest : Nat) (m : Move) (moves : List Move) :
    turns guest (m :: moves) = turns guest [m] + turns guest moves := by
  rw [← List.singleton_append, turns, List.countP_append]
  rfl

/-- Whatever else happens, the call that has the store of a guest goes on as by itself, as long as
its flag is not raised, or when it was raised before. -/
theorem kept_run {raised : Bool} (hsound : e.Sound) (hs : e.guests[guest]? = some s)
    (h : s.Kept g call before (g.course call raised n)) (moves : List Move)
    (hbefore : raised = true → call.flag ∈ e.raised)
    (hafter : raised = false → call.flag ∉ (e.run moves).raised) :
    ∃ s', (e.run moves).guests[guest]? = some s' ∧
      s'.Kept g call before (g.course call raised (n + turns guest moves)) := by
  induction moves generalizing e s n with
  | nil => exact ⟨s, hs, h⟩
  | cons m moves ih =>
    -- flags stay raised, so that at this move the flag is as it is at both ends
    have hraised : e.raised.contains call.flag = raised := by
      cases raised with
      | true => simpa using hbefore rfl
      | false =>
        have hnever := hafter rfl
        rw [mem_raised_run, not_or] at hnever
        simpa using hnever.1
    have hact : (e.act m).guests[guest]? = some (s.act e guest m) := by
      rw [getElem?_act, hs]
      rfl
    rw [turns_cons, ← Nat.add_assoc]
    exact ih (hsound.act m) hact (h.act (hsound guest s hs) hraised guest m)
      (fun hr => mem_raised_act.mpr (.inl (hbefore hr))) hafter

end Engine

/-! ## Calls to the end -/

namespace Instance

variable (g : Instance) (call : FlaggedCall)

theorem next_iterate_out (raised : Bool) (n : Nat) (answer : Except Error (List Value))
    (store : Store) : (g.next call raised)^[n] (.out answer store) = .out answer store :=
  Function.iterate_fixed rfl n

theorem exists_next_iterate (e : Execution) (k : HostState) (time : Nat) (putOff : Bool) :
    let ended := run g.wiring Watch.quiet.signal time e k
    ∃ n, (g.next call false)^[n] (.inside (.running ⟨e, k⟩ putOff)) =
      .out (g.judge call.function ended.1) ended.2 := by
  induction e generalizing k time putOff with
  | ended how h => exact ⟨1, rfl⟩
  | paused what h resume ih =>
    have hsignal : Watch.quiet.signal time = ⟨0, false⟩ := rfl
    simp only [run]
    rw [hsignal]
    cases hanswer : what.answer g.wiring ⟨0, false⟩ ⟨h, k⟩ with
    | error why =>
      refine ⟨1, ?_⟩
      simp only [Function.iterate_one, next, turn, turned, step, hanswer]
    | ok r =>
      obtain ⟨⟨u, k'⟩, results⟩ := r
      obtain ⟨n, hn⟩ := ih results u k' (time + 1) (k'.deadline ≠ k.deadline)
      refine ⟨n + 1, ?_⟩
      rw [Function.iterate_succ_apply, ← hn]
      simp only [next, turn, turned, step, hanswer]

/-- By itself a call comes to its end, with the answer and the guest that `Instance.call` has when
nothing happens outside. -/
theorem course_call :
    let called := g.call call.function call.args .quiet
    (∃ n, g.course call false n = .out called.1 called.2.store) ∧
      called.2 = { g with store := called.2.store } := by
  intro called
  have hcalled : called = g.call call.function call.args .quiet := rfl
  clear_value called
  have hcourse (n : Nat) : g.course call false (n + 1) = (g.next call false)^[n]
      (g.turn call ⟨0, false⟩ (.acquired 0)) := Function.iterate_succ_apply ..
  have hsignal : Watch.quiet.signal 0 = ⟨0, false⟩ := rfl
  rw [call_eq, hsignal] at hcalled
  simp only [turn] at hcourse
  generalize g.approach call.function call.args ⟨0, false⟩ = approached at hcalled hcourse
  obtain ⟨e | f | f, store⟩ := approached
  · obtain rfl := hcalled
    exact ⟨⟨1, hcourse 0⟩, rfl⟩
  · simp only [enter] at hcalled hcourse
    generalize f.call g.wiring.place.outside store call.args = answer at hcalled hcourse
    cases answer with
    | ok r =>
      obtain rfl := hcalled
      exact ⟨⟨1, hcourse 0⟩, rfl⟩
    | error why =>
      obtain rfl := hcalled
      exact ⟨⟨1, hcourse 0⟩, rfl⟩
  · obtain ⟨h, k⟩ := store
    obtain ⟨n, hn⟩ := g.exists_next_iterate call
      (g.wiring.machine.enter g.wiring.toLinks f call.args h) k 0 false
    obtain rfl := hcalled
    exact ⟨⟨n + 1, (hcourse n).trans hn⟩, rfl⟩

/-- What a call has ended with stays. -/
theorem course_of_le {raised : Bool} {m n : Nat} (h : m ≤ n) {answer : Except Error (List Value)}
    {store : Store} (hout : g.course call raised m = .out answer store) :
    g.course call raised n = .out answer store := by
  obtain ⟨k, rfl⟩ := Nat.exists_eq_add_of_le' h
  have hsplit : g.course call raised (k + m) = (g.next call raised)^[k] (g.course call raised m) :=
    Function.iterate_add_apply ..
  rw [hsplit, hout, next_iterate_out]

/-- A call ends once. -/
theorem course_unique {raised : Bool} {m n : Nat} {answer answer' : Except Error (List Value)}
    {store store' : Store} (hm : g.course call raised m = .out answer store)
    (hn : g.course call raised n = .out answer' store') : answer = answer' ∧ store = store' := by
  have hmax := g.course_of_le call (Nat.le_max_left m n) hm
  rw [g.course_of_le call (Nat.le_max_right m n) hn] at hmax
  obtain ⟨rfl, rfl⟩ := CallTurn.out.inj hmax
  exact ⟨rfl, rfl⟩

end Instance

namespace Engine

variable {e : Engine} {guest : Nat} {s : EngineGuest}

/-- A call that gets the store of a free guest, among whatever else happens. -/
theorem kept_acquired (raised : Bool) (hsound : e.Sound) (hs : e.guests[guest]? = some s)
    (hfree : s.inside = none) (call : FlaggedCall) (more : List Move)
    (hbefore : raised = true → call.flag ∈ e.raised)
    (hafter : raised = false → call.flag ∉ (e.run (.acquire guest call :: more)).raised) :
    ∃ s', (e.run (.acquire guest call :: more)).guests[guest]? = some s' ∧
      s'.Kept s.guest call s.past.length (s.guest.course call raised (turns guest more)) := by
  have hact : (e.act (.acquire guest call)).guests[guest]? = some (s.acquire e call) := by
    rw [getElem?_act, hs, Option.map_some, EngineGuest.act, if_pos rfl]
  have hacquired :
      (s.acquire e call).Kept s.guest call s.past.length (s.guest.course call raised 0) := by
    unfold EngineGuest.acquire
    rw [hfree]
    exact .inside (.acquired 0 e.epoch) rfl rfl rfl
  have hrun := kept_run (hsound.act _) hact hacquired more hbefore hafter
  rwa [Nat.zero_add] at hrun

theorem ended_of_raised (hsound : e.Sound) (hs : e.guests[guest]? = some s)
    (hfree : s.inside = none) {call : FlaggedCall} (hraised : call.flag ∈ e.raised)
    {more : List Move} (hturns : 0 < turns guest more) :
    ∃ s' deadline, (e.run (.acquire guest call :: more)).guests[guest]? = some s' ∧
      s'.past[s.past.length]? = some ⟨call, .error (s.guest.interrupted call.function),
        { s.guest with store := s.guest.store.due deadline }⟩ := by
  obtain ⟨s', hs', hkept⟩ := kept_acquired true hsound hs hfree call more (fun _ => hraised) nofun
  obtain ⟨n, hn⟩ := Nat.exists_eq_add_of_lt hturns
  rw [Nat.zero_add] at hn
  rw [hn, Instance.course_raised] at hkept
  cases hkept with
  | out h hpast =>
    obtain ⟨deadline, rfl⟩ := h
    exact ⟨s', deadline, hs', hpast⟩

theorem ended_of_unraised (hsound : e.Sound) (hs : e.guests[guest]? = some s)
    (hfree : s.inside = none) (call : FlaggedCall) :
    let called := s.guest.call call.function call.args .quiet
    ∃ n, ∀ more : List Move, call.flag ∉ (e.run (.acquire guest call :: more)).raised →
      ∃ s', (e.run (.acquire guest call :: more)).guests[guest]? = some s' ∧
        (n ≤ turns guest more → s.past.length < s'.past.length) ∧
        ∀ p, s'.past[s.past.length]? = some p → p.call = call ∧ p.answer = called.1 ∧
          ∃ deadline, p.guest = { called.2 with store := called.2.store.due deadline } := by
  intro called
  obtain ⟨⟨n, hcalled⟩, hleft⟩ := s.guest.course_call call
  refine ⟨n, fun more hraised => ?_⟩
  obtain ⟨s', hs', hkept⟩ := kept_acquired false hsound hs hfree call more nofun fun _ => hraised
  generalize hcourse : s.guest.course call false (turns guest more) = turn at hkept
  refine ⟨s', hs', fun hturns => ?_, fun p hp => ?_⟩
  · have hout := s.guest.course_of_le call hturns hcalled
    rw [hcourse] at hout
    subst hout
    cases hkept with
    | out h hpast => exact (List.getElem?_eq_some_iff.mp hpast).1
  · cases hkept with
    | inside h hguest hinside hpast =>
      rw [← hpast, List.getElem?_length] at hp
      cases hp
    | out h hpast =>
      rw [hpast, Option.some.injEq] at hp
      subst hp
      obtain ⟨rfl, rfl⟩ := s.guest.course_unique call hcourse hcalled
      obtain ⟨deadline, rfl⟩ := h
      exact ⟨rfl, rfl, deadline, by rw [hleft]⟩

/-- Whatever has happened on an engine, and whatever happens on it from then on, for each guest:
  - of the calls that have ended, those that were interrupted have had their own flags raised;
  - a call that gets the store when its flag is raised ends in its first turn as one that was
    interrupted, and but for the deadline the guest is as it was;
  - a call that gets the store ends within some number of turns, if its flag is not raised, with the
    answer that it has by itself, and but for the deadline it leaves the guest as it does by itself,
    however the calls before it have ended. -/
theorem interrupts_confined (epoch : Nat) (guests : List Instance) (moves : List Move) {guest : Nat}
    {s : EngineGuest} (hs : ((opened epoch guests).run moves).guests[guest]? = some s) :
    let e := (opened epoch guests).run moves
    (∀ p ∈ s.past, p.answer = .error (p.guest.interrupted p.call.function) →
      .raise p.call.flag ∈ moves) ∧
    (s.inside = none → ∀ (call : FlaggedCall) (more : List Move), call.flag ∈ e.raised →
      0 < turns guest more →
      ∃ s' deadline, (e.run (.acquire guest call :: more)).guests[guest]? = some s' ∧
        s'.past[s.past.length]? = some ⟨call, .error (s.guest.interrupted call.function),
          { s.guest with store := s.guest.store.due deadline }⟩) ∧
    (s.inside = none → ∀ call : FlaggedCall,
      let called := s.guest.call call.function call.args .quiet
      ∃ n, ∀ more : List Move, call.flag ∉ (e.run (.acquire guest call :: more)).raised →
        ∃ s', (e.run (.acquire guest call :: more)).guests[guest]? = some s' ∧
          (n ≤ turns guest more → s.past.length < s'.past.length) ∧
          ∀ p, s'.past[s.past.length]? = some p → p.call = call ∧ p.answer = called.1 ∧
            ∃ deadline, p.guest = { called.2 with store := called.2.store.due deadline }) := by
  intro e
  have hsound : e.Sound := sound_run (sound_opened epoch guests) moves
  refine ⟨fun p hp hanswer => ?_, fun hfree call more hraised hturns => ?_,
    fun hfree call => ended_of_unraised hsound hs hfree call⟩
  · have hraised := (hsound guest s hs).past p hp hanswer
    exact (mem_raised_run.mp hraised).resolve_left List.not_mem_nil
  · exact ended_of_raised hsound hs hfree hraised hturns

/-- A guest with a function that goes round for ever and one that gives a number. -/
def spinner : Instance :=
  { (default : Instance) with
    containerId := "unit-1"
    exported := [("spin", 0), ("answer", 1)]
    wiring := { (default : Wiring) with
      funcs := #[.own ⟨⟨[], []⟩, [], #[.loop, .br 0], #[⟨0, 0, 0⟩]⟩,
        .own ⟨⟨[], [.i32]⟩, [], #[.const (.i32 7)], #[]⟩]
      machine := Interpreter.interpreter }
    store := { (default : Store) with fuel := Limits.wordMax } }

/-- Two such guests go round, and the call of the first one is interrupted. The other guest is the
first to see the tick. -/
def crossing : List Move :=
  [.acquire 0 ⟨1, "spin", []⟩, .acquire 1 ⟨2, "spin", []⟩, .go 0, .go 1, .go 0, .go 1, .go 0,
    .go 1] ++ Move.interrupt 1 ++ [.go 1, .go 1, .renew 1, .go 0, .go 0]

/-- The first call has ended and the other one goes on. Another call with the flag of the first one
does not enter the guest; one with a flag of its own ends with its answer, whatever else happens, as
soon as it has taken the turns that it takes. -/
theorem interrupts_confined_crossing :
    let e := (opened 5 [spinner, spinner]).run crossing
    let stale : FlaggedCall := ⟨1, "answer", []⟩
    let fresh : FlaggedCall := ⟨3, "answer", []⟩
    e.guests.map (·.past.map (·.answer)) = [[.error (spinner.interrupted "spin")], []] ∧
    ∃ s, e.guests[0]? = some s ∧ (∀ p ∈ s.past, .raise p.call.flag ∈ crossing) ∧
      (∃ s' deadline, (e.run [.acquire 0 stale, .go 0]).guests[0]? = some s' ∧
        s'.past[1]? = some ⟨stale, .error (s.guest.interrupted "answer"),
          { s.guest with store := s.guest.store.due deadline }⟩) ∧
      ∃ n, ∀ more, 3 ∉ (e.run (.acquire 0 fresh :: more)).raised → n ≤ turns 0 more →
        ∃ s' p, (e.run (.acquire 0 fresh :: more)).guests[0]? = some s' ∧
          s'.past[1]? = some p ∧ p.answer = .ok [.i32 7] := by
  intro e stale fresh
  have hran : (e.guests[0]?).any (fun s => s.inside.isNone && s.past.length == 1 &&
      s.past.all (fun p => p.answer = .error (p.guest.interrupted p.call.function)) &&
      (s.guest.call "answer" [] .quiet).1 = .ok [.i32 7]) = true := by
    decide +kernel
  refine ⟨by decide +kernel, ?_⟩
  cases hs : e.guests[0]? with
  | none => simp [hs] at hran
  | some s =>
    rw [hs] at hran
    simp only [Option.any_some, Bool.and_eq_true, Option.isNone_iff_eq_none, beq_iff_eq,
      List.all_eq_true, decide_eq_true_eq] at hran
    obtain ⟨⟨⟨hfree, hone⟩, hall⟩, hcalled⟩ := hran
    obtain ⟨hown, hraised, hunraised⟩ := interrupts_confined 5 [spinner, spinner] crossing hs
    refine ⟨s, rfl, fun p hp => hown p hp (hall p hp), ?_, ?_⟩
    · have hstale := hraised hfree stale [.go 0] (by decide +kernel) (by decide)
      rwa [hone] at hstale
    · obtain ⟨n, hends⟩ := hunraised hfree fresh
      refine ⟨n, fun more hmore hturns => ?_⟩
      obtain ⟨s', hs', hcomes, hends'⟩ := hends more hmore
      have hlt := hcomes hturns
      rw [hone] at hlt hends'
      obtain ⟨-, hanswer, -⟩ := hends' s'.past[1] (List.getElem?_eq_getElem hlt)
      exact ⟨s', s'.past[1], hs', List.getElem?_eq_getElem hlt, hanswer.trans hcalled⟩

end Engine

end ContainerHost.Guest
