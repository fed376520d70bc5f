import ContainerHost.Proofs.Event.Emissions
/-!
# How deep emissions nest

A listener that is called may emit further events, and so may their listeners. An emission of a
scripted bus is given the depth to which this may go on, and has no result if it is not enough.

What is proved:
1. Whatever an emission comes to at some depth it comes to at any greater one (`emit_mono`), and so do
   commands (`after_mono`). What is said of emissions at a depth is said of them at any depth.
2. There is a depth that is enough wherever the nesting is finite: if events have ranks, and each
   listener emits only events of lower rank than its own, an emission of an event of rank `r` comes to
   its end at depth `r + 1` (`emit_of_ranked`), and so do commands (`after_of_ranked`).

Correspondence: `EventBus::emit`, which goes as deep as its callbacks do ↔ `ScriptedBus.emit`.
-/

namespace ContainerHost.Event

open ScriptedBus (Emitter)

/-! ## Enough is enough -/

/-- Whatever the one emitter comes to the other comes to as well. -/
def ScriptedBus.Emitter.Le (f g : Emitter) : Prop := ∀ e s r, f e s = some r → g e s = some r

namespace ScriptedBus

variable {f g : Emitter} {s t : ScriptedBus} {depth depth' : Nat}

theorem perform_mono (h : f.Le g) (actions : List Action) (ht : perform f actions s = some t) :
    perform g actions s = some t := by
  induction actions generalizing s with
  | nil => exact ht
  | cons a rest ih =>
    cases a with
    | fail => exact ht
    | unsubscribe sub => exact ih ht
    | emit e =>
      simp only [perform, Option.bind_eq_bind, Option.bind_eq_some_iff] at ht ⊢
      obtain ⟨r, hr, ht⟩ := ht
      exact ⟨r, h e s r hr, ih ht⟩
    | listen event tag once => exact ih ht
    | removeAll event => exact ih ht
    | count event => exact ih ht

theorem deliver_mono (h : f.Le g) {e : Emission} (entries : List (Entry Listener))
    {r : Nat × ScriptedBus}
    (hr : deliver f e entries s = some r) : deliver g e entries s = some r := by
  induction entries generalizing s r with
  | nil => exact hr
  | cons entry rest ih =>
    cases hl : entry.listener with
    | direct tag actions =>
      simp only [deliver, hl, Option.bind_eq_bind, Option.bind_eq_some_iff] at hr ⊢
      obtain ⟨u, hu, ⟨n, t⟩, ht, hr⟩ := hr
      exact ⟨u, perform_mono h actions hu, (n, t), ih ht, hr⟩
    | deferred tag yields ending =>
      simp only [deliver, hl] at hr ⊢
      split at hr
      · rename_i hthreaded
        rw [if_pos hthreaded]
        exact ih hr
      · rename_i hthreaded
        rw [if_neg hthreaded]
        simp only [Option.bind_eq_bind, Option.bind_eq_some_iff] at hr ⊢
        obtain ⟨⟨n, t⟩, ht, hr⟩ := hr
        exact ⟨(n, t), ih ht, hr⟩

/-- An emission that came to its end at a depth does so at any greater one. -/
theorem emit_mono (h : depth ≤ depth') : Emitter.Le (emit depth) (emit depth') := by
  induction depth generalizing depth' with
  | zero =>
    intro e s r hr
    cases hr
  | succ depth ih =>
    obtain ⟨depth', rfl⟩ := Nat.exists_eq_add_of_le' h
    intro e s r hr
    -- listeners are called one level further down
    have hle : Emitter.Le (emit depth) (emit (depth' + depth)) := ih (Nat.le_add_left _ _)
    exact deliver_mono (fun inner s r => hle _ s r) _ hr

theorem emitAndWait_mono (h : depth ≤ depth') {e : Emission} (ht : emitAndWait depth e s = some t) :
    emitAndWait depth' e s = some t := by
  simp only [emitAndWait, Option.bind_eq_bind, Option.bind_eq_some_iff] at ht ⊢
  obtain ⟨r, hr, ht⟩ := ht
  exact ⟨r, deliver_mono (emit_mono h) _ hr, ht⟩

theorem obey_mono (h : depth ≤ depth') {c : Command} {r : Reply × ScriptedBus}
    (hr : s.obey depth c = some r) : s.obey depth' c = some r := by
  cases c with
  | emit e =>
    obtain ⟨p, hp, rfl⟩ := Option.map_eq_some_iff.mp hr
    exact Option.map_eq_some_iff.mpr ⟨p, emit_mono h e s p hp, rfl⟩
  | emitAndWait e =>
    obtain ⟨u, hu, rfl⟩ := Option.map_eq_some_iff.mp hr
    exact Option.map_eq_some_iff.mpr ⟨u, emitAndWait_mono h hu, rfl⟩
  | _ => exact hr

theorem command_mono (h : depth ≤ depth') {c : Command}
    {r : Reply × List Note × List Note × ScriptedBus}
    (hr : s.command depth c = some r) : s.command depth' c = some r := by
  unfold command at hr ⊢
  cases hdropped : s.dropped with
  | true =>
    rw [hdropped] at hr
    cases c with
    | unsubscribe sub => exact hr
    | _ => exact hr
  | false =>
    rw [hdropped] at hr
    obtain ⟨u, hu, hr⟩ := Option.bind_eq_some_iff.mp hr
    exact Option.bind_eq_some_iff.mpr ⟨u, obey_mono h hu, hr⟩

/-- What commands leave of a bus does not depend on the depth that they are given. -/
theorem after_mono (h : depth ≤ depth') {commands : List Command}
    (hs : ScriptedBus.after depth commands = some s) : ScriptedBus.after depth' commands = some s := by
  unfold ScriptedBus.after at hs ⊢
  generalize fresh = u at hs ⊢
  induction commands generalizing u with
  | nil => exact hs
  | cons c rest ih =>
    rw [List.foldlM_cons, Option.bind_eq_bind, Option.bind_eq_some_iff] at hs ⊢
    obtain ⟨v, hv, hrest⟩ := hs
    obtain ⟨r, hr, rfl⟩ := Option.map_eq_some_iff.mp hv
    exact ⟨_, Option.map_eq_some_iff.mpr ⟨r, command_mono h hr, rfl⟩, ih _ hrest⟩

end ScriptedBus

/-! ## Ranks -/

def Listener.emitted : Listener → List String
  | .direct _ actions => actions.filterMap fun
    | .emit e => some e.event
    | _ => none
  | .deferred .. => []

theorem mem_emitted {tag : String} {actions : List Action} {event : String} :
    event ∈ (Listener.direct tag actions).emitted ↔ ∃ e, .emit e ∈ actions ∧ e.event = event := by
  unfold Listener.emitted
  rw [List.mem_filterMap]
  constructor
  · rintro ⟨a, ha, heq⟩
    cases a with
    | emit e => exact ⟨e, ha, Option.some.inj heq⟩
    | _ => cases heq
  · rintro ⟨e, he, rfl⟩
    exact ⟨_, he, rfl⟩

namespace ScriptedBus

variable {rank : String → Nat} {bound : Nat} {s t : ScriptedBus}

/-- Each listener on the bus emits only events of lower rank than its own. -/
def Ranked (rank : String → Nat) (s : ScriptedBus) : Prop :=
  ∀ once event, ∀ x ∈ s.bus.listed once event, ∀ inner ∈ x.listener.emitted,
    rank inner < rank event

/-- No listener is added. -/
theorem Ranked.of_listed (h : s.Ranked rank)
    (ht : ∀ once event, ∀ x ∈ t.bus.listed once event, x ∈ s.bus.listed once event) :
    t.Ranked rank := fun once event x hx => h once event x (ht once event x hx)

theorem Ranked.register (h : s.Ranked rank) {event : String} (once : Bool) {l : Listener}
    (hl : ∀ inner ∈ l.emitted, rank inner < rank event) : (s.register event once l).2.Ranked rank := by
  intro once' event' x hx
  have hx : x ∈ (s.bus.register event once l).2.listed once' event' := hx
  rw [Bus.listed_register, List.mem_append] at hx
  rcases hx with hx | hx
  · exact h once' event' x hx
  · split at hx
    · rename_i hsame
      obtain rfl := List.mem_singleton.mp hx
      exact hsame.1 ▸ hl
    · cases hx

theorem Ranked.off (h : s.Ranked rank) (event : String) (id : Nat)
    (subs : List (Option Subscription)) :
    Ranked rank { s with bus := (s.bus.off event id).2, subs := subs } := by
  refine h.of_listed ?_
  intro once event' x hx
  have hx : x ∈ (s.bus.off event id).2.listed once event' := hx
  rw [Bus.listed_off] at hx
  exact List.mem_of_mem_filter hx

theorem Ranked.removeAll (h : s.Ranked rank) (event : Option String) :
    Ranked rank { s with bus := s.bus.removeAll event } := by
  refine h.of_listed ?_
  intro once event' x hx
  have hx : x ∈ (s.bus.removeAll event).listed once event' := hx
  rw [Bus.listed_removeAll] at hx
  exact List.mem_of_mem_filter hx

theorem Ranked.take (h : s.Ranked rank) (event : String) :
    Ranked rank { s with bus := (s.bus.take event).2 } ∧
      ∀ x ∈ (s.bus.take event).1, ∀ inner ∈ x.listener.emitted, rank inner < rank event := by
  refine ⟨h.of_listed ?_, ?_⟩
  · intro once event' x hx
    have hx : x ∈ (s.bus.take event).2.listed once event' := hx
    rw [Bus.listed_take] at hx
    exact List.mem_of_mem_filter hx
  · intro x hx
    rcases List.mem_append.mp hx with hx | hx
    · exact h false event x hx
    · exact h true event x hx

theorem Ranked.unsubscribe (h : s.Ranked rank) (sub : Nat) : (s.unsubscribe sub).2.Ranked rank := by
  unfold ScriptedBus.unsubscribe
  split
  · dsimp only
    split
    · exact h.off _ _ _
    · exact h
  · exact h

/-- Emissions of events whose ranks are below a bound come to their ends. -/
def Emitter.Handles (emit : Emitter) (rank : String → Nat) (bound : Nat) : Prop :=
  ∀ e s, s.Ranked rank → rank e.event < bound → ∃ n t, emit e s = some (n, t) ∧ t.Ranked rank

theorem perform_of_ranked {emit : Emitter} (h : emit.Handles rank bound) {actions : List Action}
    (hactions : ∀ e, .emit e ∈ actions → rank e.event < bound) (hs : s.Ranked rank) :
    ∃ t, perform emit actions s = some t ∧ t.Ranked rank := by
  induction actions generalizing s with
  | nil => exact ⟨s, rfl, hs⟩
  | cons a rest ih =>
    have hrest {u : ScriptedBus} (hu : u.Ranked rank) :
        ∃ t, perform emit rest u = some t ∧ t.Ranked rank :=
      ih (fun e he => hactions e (List.mem_cons_of_mem _ he)) hu
    cases a with
    | fail => exact ⟨s, rfl, hs⟩
    | unsubscribe sub => exact hrest (hs.unsubscribe sub)
    | emit e =>
      obtain ⟨n, u, hu, hranked⟩ := h e s hs (hactions e List.mem_cons_self)
      obtain ⟨t, ht, hranked⟩ := hrest (u := u.note (.emitted n)) hranked
      exact ⟨t, by simp [perform, hu, ht], hranked⟩
    | listen event tag once => exact hrest (hs.register once (by simp [Listener.emitted]))
    | removeAll event => exact hrest (hs.removeAll event)
    | count event => exact hrest hs

theorem deliver_of_ranked {emit : Emitter} (h : emit.Handles rank bound) (e : Emission)
    {entries : List (Entry Listener)}
    (hentries : ∀ x ∈ entries, ∀ inner ∈ x.listener.emitted, rank inner < bound)
    (hs : s.Ranked rank) : ∃ n t, deliver emit e entries s = some (n, t) ∧ t.Ranked rank := by
  induction entries generalizing s with
  | nil => exact ⟨0, s, rfl, hs⟩
  | cons x rest ih =>
    obtain ⟨hx, hrest⟩ := List.forall_mem_cons.mp hentries
    cases hl : x.listener with
    | direct tag actions =>
      rw [hl] at hx
      obtain ⟨u, hu, hranked⟩ := perform_of_ranked h
        (fun e he => hx e.event (mem_emitted.mpr ⟨e, he, rfl⟩)) (s := s.note (.heard tag e.content)) hs
      obtain ⟨n, t, ht, hranked⟩ := ih hrest hranked
      exact ⟨n + 1, t, by simp [deliver, hl, hu, ht], hranked⟩
    | deferred tag yields ending =>
      by_cases hthreaded : e.threaded = true
      · obtain ⟨n, t, ht, hranked⟩ := ih hrest hs
        exact ⟨n, t, by simp [deliver, hl, hthreaded, ht], hranked⟩
      · obtain ⟨n, t, ht, hranked⟩ := ih hrest
          (s := { s with tasks := s.tasks ++ [⟨tag, yields, ending, e.content⟩] }) hs
        exact ⟨n + 1, t, by simp [deliver, hl, hthreaded, ht], hranked⟩

/-- Where the nesting is finite, emissions come to their ends: as deep as the rank of the event is
deep enough. -/
theorem emit_of_ranked (rank : String → Nat) (depth : Nat) :
    Emitter.Handles (emit depth) rank depth := by
  induction depth with
  | zero => exact fun e s _ h => absurd h (Nat.not_lt_zero _)
  | succ depth ih =>
    intro e s hs hrank
    obtain ⟨htaken, hentries⟩ := hs.take e.event
    -- what a listener emits has a lower rank, and is emitted one level further down
    have hinner : Emitter.Handles
        (fun inner s => emit depth { inner with threaded := inner.threaded || e.threaded } s)
        rank depth := fun inner s hs h => ih _ s hs h
    exact deliver_of_ranked hinner e (fun x hx inner hinner => by
      have hlower := hentries x hx inner hinner
      omega) htaken

theorem emitAndWait_of_ranked {depth : Nat} {e : Emission} (hs : s.Ranked rank)
    (hrank : rank e.event ≤ depth) : ∃ t, emitAndWait depth e s = some t ∧ t.Ranked rank := by
  obtain ⟨htaken, hentries⟩ := hs.take e.event
  have hdirect (keep : Entry Listener → Bool) : ∃ n t, deliver (emit depth) e
      ((s.bus.take e.event).1.filter keep) { s with bus := (s.bus.take e.event).2 } = some (n, t) ∧
        t.Ranked rank :=
    deliver_of_ranked (emit_of_ranked rank depth) e (fun x hx inner hinner =>
      Nat.lt_of_lt_of_le (hentries x (List.mem_of_mem_filter hx) inner hinner) hrank) htaken
  unfold emitAndWait
  dsimp only
  generalize hkept : List.filter _ (s.bus.take e.event).1 = direct
  obtain ⟨n, t, ht, hranked⟩ := hkept ▸ hdirect _
  rw [ht]
  exact ⟨_, rfl, hranked⟩

/-- A command adds no listener that nests without end, and what it emits is of a rank below a depth.
-/
def Command.Ranked (rank : String → Nat) (depth : Nat) : Command → Prop
  | .listen event tag _ actions =>
    ∀ inner ∈ (Listener.direct tag actions).emitted, rank inner < rank event
  | .emit e | .emitAndWait e => rank e.event < depth
  | _ => True

theorem Ranked.obey {depth : Nat} (hs : s.Ranked rank) {c : Command} (hc : c.Ranked rank depth) :
    ∃ reply t, s.obey depth c = some (reply, t) ∧ t.Ranked rank := by
  cases c with
  | listen event tag once actions => exact ⟨_, _, rfl, hs.register once hc⟩
  | listenLater event tag yields ending =>
    exact ⟨_, _, rfl, hs.register false (by simp [Listener.emitted])⟩
  | unsubscribe sub => exact ⟨_, _, rfl, hs.unsubscribe sub⟩
  | off event sub =>
    refine ⟨_, _, rfl, ?_⟩
    split
    · exact hs.off _ _ _
    · exact hs
  | emit e =>
    obtain ⟨n, t, ht, hranked⟩ := emit_of_ranked rank depth e s hs hc
    exact ⟨.count n, t, Option.map_eq_some_iff.mpr ⟨_, ht, rfl⟩, hranked⟩
  | emitAndWait e =>
    obtain ⟨t, ht, hranked⟩ := emitAndWait_of_ranked hs (Nat.le_of_lt hc)
    exact ⟨.done, t, Option.map_eq_some_iff.mpr ⟨_, ht, rfl⟩, hranked⟩
  | removeAll event => exact ⟨_, _, rfl, hs.removeAll event⟩
  | count event => exact ⟨_, _, rfl, hs⟩
  | names => exact ⟨_, _, rfl, hs⟩
  | nameSpace space => exact ⟨_, _, rfl, hs⟩
  | describe => exact ⟨_, _, rfl, hs⟩
  | drop => exact ⟨_, _, rfl, hs⟩

theorem Ranked.command {depth : Nat} (hs : s.Ranked rank) {c : Command} (hc : c.Ranked rank depth) :
    ∃ r, s.command depth c = some r ∧ r.2.2.2.Ranked rank := by
  unfold ScriptedBus.command
  cases hdropped : s.dropped with
  | true =>
    cases c with
    | unsubscribe sub => exact ⟨_, rfl, hs.unsubscribe sub⟩
    | _ => exact ⟨_, rfl, hs⟩
  | false =>
    obtain ⟨reply, t, ht, hranked⟩ := hs.obey hc
    dsimp only
    rw [ht]
    exact ⟨_, rfl, hranked⟩

/-- Where the nesting is finite, every sequence of commands comes to its end. -/
theorem after_of_ranked {depth : Nat} {commands : List Command}
    (h : ∀ c ∈ commands, c.Ranked rank depth) : ∃ s, ScriptedBus.after depth commands = some s := by
  unfold ScriptedBus.after
  have hfresh : fresh.Ranked rank := by
    intro once event x hx
    cases once <;> cases hx
  generalize fresh = u at hfresh
  induction commands generalizing u with
  | nil => exact ⟨u, rfl⟩
  | cons c rest ih =>
    obtain ⟨hc, hrest⟩ := List.forall_mem_cons.mp h
    obtain ⟨r, hr, hranked⟩ := hfresh.command hc
    obtain ⟨s, hs⟩ := ih hrest _ hranked
    refine ⟨s, ?_⟩
    rw [List.foldlM_cons, hr]
    exact hs

end ScriptedBus
end ContainerHost.Event
