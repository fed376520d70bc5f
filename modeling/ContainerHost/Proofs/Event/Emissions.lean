import ContainerHost.Proofs.Event.ListenerLog
/-!
# The law of emissions

An emission calls or starts exactly the listeners that are registered for its event when it starts,
those that stay before those that are called once, each kind in the order of registration, and each
of them once. It does not matter what is done with the bus in the meantime: by the listeners that it
calls, by the emissions that these start, or by anyone else.

The emissions of a scripted bus are such emissions (`follows_emit`): whatever the scripts of its
listeners do is a run of the concurrent bus, in which the emission has come to its end, and what was
noted and started is what the calls of the run say.

What is proved: `emission_law`.
-/

namespace ContainerHost.Event

/-! ## Emissions of a scripted bus -/

/-- What an emission of a scripted bus does about listeners that run later. -/
def Emission.manner (e : Emission) : Manner := if e.threaded then .bare else .starting

theorem manner_eq_bare {e : Emission} : e.manner = .bare ↔ e.threaded = true := by
  unfold Emission.manner
  cases e.threaded <;> simp

theorem manner_eq_starting {e : Emission} : e.manner = .starting ↔ e.threaded = false := by
  unfold Emission.manner
  cases e.threaded <;> simp

def Note.isHeard : Note → Bool
  | .heard .. => true
  | _ => false

def Call.note? (c : Call) : Option Note :=
  match c.entry.listener with
  | .direct tag _ => some (.heard tag c.content)
  | .deferred .. => none

def Call.task? (c : Call) : Option Task :=
  match c.entry.listener with
  | .direct .. => none
  | .deferred tag yields ending => some ⟨tag, yields, ending, c.content⟩

/-- What is done on a scripted bus from `s` to `t` is a run of the concurrent bus from `f` to `g`. No
emission that was under way has gone on but the one with the number `i`, and what was heard and
started is what the new calls say. -/
structure Follows (i : Option Nat) (f : ConcurrentBus) (s : ScriptedBus) (g : ConcurrentBus)
    (t : ScriptedBus) : Prop where
  run : ∃ steps, g = f.run steps
  bus : g.bus = t.bus
  length : f.rounds.length ≤ g.rounds.length
  others : ∀ j < f.rounds.length, some j ≠ i → g.rounds[j]? = f.rounds[j]?
  heard : ∃ calls, g.calls = f.calls ++ calls ∧
    t.notes.filter (·.isHeard) = s.notes.filter (·.isHeard) ++ calls.filterMap Call.note? ∧
    t.tasks = s.tasks ++ calls.filterMap Call.task?

namespace Follows

variable {i : Option Nat} {f g h : ConcurrentBus} {s t u : ScriptedBus}

/-- Nothing is called, and no emission starts or goes on. -/
theorem of_quiet (steps : List BusStep) (hrun : g = f.run steps) (hbus : g.bus = t.bus)
    (hrounds : g.rounds = f.rounds) (hcalls : g.calls = f.calls)
    (hnotes : t.notes.filter (·.isHeard) = s.notes.filter (·.isHeard))
    (htasks : t.tasks = s.tasks) : Follows i f s g t where
  run := ⟨steps, hrun⟩
  bus := hbus
  length := Nat.le_of_eq (by rw [hrounds])
  others j _ _ := by rw [hrounds]
  heard := ⟨[], by rw [hcalls, List.append_nil], by rw [hnotes]; simp, by rw [htasks]; simp⟩

theorem trans (hfg : Follows i f s g t) (hgh : Follows i g t h u) : Follows i f s h u := by
  obtain ⟨ds, rfl⟩ := hfg.run
  obtain ⟨es, rfl⟩ := hgh.run
  obtain ⟨cs, hcs, hns, hts⟩ := hfg.heard
  obtain ⟨cs', hcs', hns', hts'⟩ := hgh.heard
  refine ⟨⟨ds ++ es, (f.run_append ds es).symm⟩, hgh.bus, ?_, ?_, ?_⟩
  · exact Nat.le_trans hfg.length hgh.length
  · intro j hj hne
    rw [hgh.others j (Nat.lt_of_lt_of_le hj hfg.length) hne, hfg.others j hj hne]
  · refine ⟨cs ++ cs', ?_, ?_, ?_⟩
    · rw [hcs', hcs, List.append_assoc]
    · rw [hns', hns, List.filterMap_append, List.append_assoc]
    · rw [hts', hts, List.filterMap_append, List.append_assoc]

/-- If no emission has gone on, none but one has. -/
theorem weaken (hfg : Follows none f s g t) : Follows i f s g t where
  run := hfg.run
  bus := hfg.bus
  length := hfg.length
  others j hj _ := hfg.others j hj (by simp)
  heard := hfg.heard

theorem of_note {n : Note} (hbus : f.bus = s.bus) (hn : n.isHeard = false) :
    Follows i f s f (s.note n) := by
  refine .of_quiet [] rfl hbus rfl rfl ?_ rfl
  show (s.notes ++ [n]).filter _ = _
  rw [List.filter_append, List.filter_singleton, hn]
  exact List.append_nil _

end Follows

open ScriptedBus

/-- A subscription is used up. -/
theorem follows_unsubscribe (sub : Nat) {f : ConcurrentBus} {s : ScriptedBus} (hbus : f.bus = s.bus) :
    ∃ g, Follows none f s g (s.unsubscribe sub).2 := by
  unfold ScriptedBus.unsubscribe
  split
  · rename_i h _
    split
    · refine ⟨f.act (.off ⟨none, h.event⟩ h.id), ?_⟩
      refine .of_quiet [.off ⟨none, h.event⟩ h.id] rfl ?_ rfl rfl rfl rfl
      show (f.bus.off h.event h.id).2 = (s.bus.off h.event h.id).2
      rw [hbus]
    · exact ⟨f, .of_quiet [] rfl hbus rfl rfl rfl rfl⟩
  · exact ⟨f, .of_quiet [] rfl hbus rfl rfl rfl rfl⟩

/-- Whatever an emitter does is a run of the concurrent bus. -/
def Emits (emit : Emitter) : Prop :=
  ∀ e s n t f, emit e s = some (n, t) → f.bus = s.bus → ∃ g, Follows none f s g t

/-- What a listener does when it is called is a run of the concurrent bus, and no emission that was
under way goes on by it. -/
theorem follows_perform {emit : Emitter} (hemit : Emits emit) (actions : List Action)
    {s t : ScriptedBus}
    {f : ConcurrentBus} (h : perform emit actions s = some t) (hbus : f.bus = s.bus) :
    ∃ g, Follows none f s g t := by
  induction actions generalizing s f with
  | nil =>
    cases h
    exact ⟨f, .of_quiet [] rfl hbus rfl rfl rfl rfl⟩
  | cons a rest ih =>
    -- each action leads to a bus that the rest starts from
    have hnext {g : ConcurrentBus} {u : ScriptedBus} (hfu : Follows none f s g u)
        (hrest : perform emit rest u = some t) : ∃ g, Follows none f s g t := by
      obtain ⟨k, hk⟩ := ih hrest hfu.bus
      exact ⟨k, hfu.trans hk⟩
    cases a with
    | fail =>
      cases h
      exact ⟨f, .of_quiet [] rfl hbus rfl rfl rfl rfl⟩
    | unsubscribe sub =>
      obtain ⟨g, hg⟩ := follows_unsubscribe sub hbus
      exact hnext (hg.trans (.of_note hg.bus (by rfl))) h
    | emit e =>
      simp only [perform, Option.bind_eq_bind, Option.bind_eq_some_iff] at h
      obtain ⟨⟨n, u⟩, hu, hrest⟩ := h
      obtain ⟨g, hg⟩ := hemit e s n u f hu hbus
      exact hnext (hg.trans (.of_note hg.bus (by rfl))) hrest
    | listen event tag once =>
      refine hnext (g := f.act (.listen ⟨none, event⟩ once (.direct tag []))) ?_ h
      refine .of_quiet [.listen ⟨none, event⟩ once (.direct tag [])] rfl ?_ rfl rfl rfl rfl
      show (f.bus.register event once _).2 = (s.bus.register event once _).2
      rw [hbus]
    | removeAll event =>
      refine hnext (g := f.act (.removeAll event)) ?_ h
      refine .of_quiet [.removeAll event] rfl ?_ rfl rfl rfl rfl
      show f.bus.removeAll event = s.bus.removeAll event
      rw [hbus]
    | count event => exact hnext (.of_note hbus (by rfl)) h

/-- An emission goes on. -/
theorem follows_goOn {f : ConcurrentBus} {i : Nat} {r : Round} {s t : ScriptedBus}
    (hr : f.rounds[i]? = some r)
    (hbus : f.bus = t.bus)
    (hheard : t.notes.filter (·.isHeard) = s.notes.filter (·.isHeard) ++
      (r.step.1.toList.map (Call.mk i r.content)).filterMap Call.note?)
    (htasks : t.tasks = s.tasks ++
      (r.step.1.toList.map (Call.mk i r.content)).filterMap Call.task?) :
    Follows (some i) f s (f.goOn i) t ∧ (f.goOn i).rounds[i]? = some r.step.2 := by
  have hi : i < f.rounds.length := (List.getElem?_eq_some_iff.mp hr).1
  rw [ConcurrentBus.goOn_eq hr]
  refine ⟨⟨⟨[.goOn i], (ConcurrentBus.goOn_eq hr).symm⟩, hbus, ?_, ?_, _, rfl, hheard, htasks⟩, ?_⟩
  · exact Nat.le_of_eq List.length_set.symm
  · intro j _ hne
    exact List.getElem?_set_ne fun heq => hne (congrArg some heq.symm)
  · exact List.getElem?_set_self hi

/-- The listeners that an emission does not put off. -/
def Manner.inTurn (m : Manner) (there : List (Entry Listener)) : List (Entry Listener) :=
  match m with
  | .awaiting => there.filter (!·.listener.later)
  | .starting | .bare => there

/-- The listeners that an emission puts off. -/
def Manner.late (m : Manner) (there : List (Entry Listener)) : List (Entry Listener) :=
  match m with
  | .awaiting => there.filter (·.listener.later)
  | .starting | .bare => []

/-- Delivering to some listeners is going on with an emission that has them ahead, until it has come
to all of them. -/
theorem follows_deliver {emit : Emitter} (hemit : Emits emit) {e : Emission} {m : Manner}
    {there : List (Entry Listener)} {s t : ScriptedBus} {f : ConcurrentBus} {n i : Nat} {r : Round}
    (hmanner : m = .awaiting ∨ m = e.manner)
    (h : deliver emit e (m.inTurn there) s = some (n, t)) (hbus : f.bus = s.bus)
    (hr : f.rounds[i]? = some r) (hahead : r.ahead = there) (hcontent : r.content = e.content)
    (hm : r.manner = m) :
    ∃ g, Follows (some i) f s g t ∧ g.rounds[i]? =
      some { r with ahead := [], putOff := r.putOff ++ m.late there, count := r.count + n } := by
  induction there generalizing s f n r with
  | nil =>
    have hnil : m.inTurn [] = [] ∧ m.late [] = [] := by cases m <;> exact ⟨rfl, rfl⟩
    rw [hnil.1] at h
    cases h
    refine ⟨f, .of_quiet [] rfl hbus rfl rfl rfl rfl, ?_⟩
    rw [hr, hnil.2, List.append_nil, ← hahead]
    rfl
  | cons entry rest ih =>
    obtain ⟨id, listener⟩ := entry
    cases listener with
    | direct tag actions =>
      have hturn : m.inTurn (⟨id, .direct tag actions⟩ :: rest) =
          ⟨id, .direct tag actions⟩ :: m.inTurn rest := by cases m <;> rfl
      have hlate : m.late (⟨id, .direct tag actions⟩ :: rest) = m.late rest := by cases m <;> rfl
      rw [hturn] at h
      simp only [deliver, Option.bind_eq_bind, Option.bind_eq_some_iff] at h
      obtain ⟨u, hu, ⟨k, v⟩, hv, hn⟩ := h
      cases hn
      have hstep : r.step = (some ⟨id, .direct tag actions⟩,
          { r with ahead := rest, count := r.count + 1 }) := by
        simp only [Round.step, hahead, Listener.later, Round.reach]
      -- the listener is called, it does what it does, and the emission goes on
      obtain ⟨hcalled, hround⟩ := follows_goOn (s := s) (t := s.note (.heard tag e.content)) hr hbus
        (by rw [hstep, hcontent]; simp [note, Note.isHeard, Call.note?])
        (by rw [hstep]; simp [note, Call.task?])
      obtain ⟨g, hg⟩ := follows_perform hemit actions hu hcalled.bus
      have hi : i < (f.goOn i).rounds.length := (List.getElem?_eq_some_iff.mp hround).1
      have hkept := (hg.others i hi (by simp)).trans hround
      rw [hstep] at hkept
      obtain ⟨g', hg', hlast⟩ := ih hv hg.bus hkept rfl hcontent hm
      refine ⟨g', (hcalled.trans hg.weaken).trans hg', ?_⟩
      rw [hlast, hlate]
      simp only [Nat.add_assoc, Nat.add_comm 1]
    | deferred tag yields ending =>
      cases m with
      | awaiting =>
        -- the scripted bus does nothing about it yet
        have hstep : r.step = (none, { r with
            ahead := rest, putOff := r.putOff ++ [⟨id, .deferred tag yields ending⟩] }) := by
          simp only [Round.step, hahead, hm, Listener.later]
        obtain ⟨hpassed, hround⟩ := follows_goOn (s := s) (t := s) hr hbus
          (by rw [hstep]; simp) (by rw [hstep]; simp)
        rw [hstep] at hround
        obtain ⟨g, hg, hlast⟩ := ih h hpassed.bus hround rfl hcontent hm
        refine ⟨g, hpassed.trans hg, ?_⟩
        rw [hlast, List.append_assoc]
        rfl
      | bare =>
        have hthreaded : e.threaded = true :=
          manner_eq_bare.mp (hmanner.resolve_left (by decide)).symm
        simp only [Manner.inTurn, deliver, hthreaded, if_true] at h
        have hstep : r.step = (none, { r with ahead := rest }) := by
          simp only [Round.step, hahead, hm, Listener.later]
        obtain ⟨hpassed, hround⟩ := follows_goOn (s := s) (t := s) hr hbus
          (by rw [hstep]; simp) (by rw [hstep]; simp)
        rw [hstep] at hround
        obtain ⟨g, hg, hlast⟩ := ih h hpassed.bus hround rfl hcontent hm
        exact ⟨g, hpassed.trans hg, hlast⟩
      | starting =>
        have hthreaded : e.threaded = false :=
          manner_eq_starting.mp (hmanner.resolve_left (by decide)).symm
        simp only [Manner.inTurn, deliver, hthreaded, Bool.false_eq_true, if_false,
          Option.bind_eq_bind, Option.bind_eq_some_iff] at h
        obtain ⟨⟨k, v⟩, hv, hn⟩ := h
        cases hn
        have hstep : r.step = (some ⟨id, .deferred tag yields ending⟩,
            { r with ahead := rest, count := r.count + 1 }) := by
          simp only [Round.step, hahead, hm, Listener.later, Round.reach]
        obtain ⟨hstarted, hround⟩ := follows_goOn (s := s)
          (t := { s with tasks := s.tasks ++ [⟨tag, yields, ending, e.content⟩] }) hr hbus
          (by rw [hstep]; simp [Call.note?]) (by rw [hstep, hcontent]; simp [Call.task?])
        rw [hstep] at hround
        obtain ⟨g, hg, hlast⟩ := ih hv hstarted.bus hround rfl hcontent hm
        refine ⟨g, hstarted.trans hg, ?_⟩
        rw [hlast]
        simp only [Nat.add_assoc, Nat.add_comm 1, Manner.late]

theorem follows_opening {emit : Emitter} (hemit : Emits emit) {e : Emission} {m : Manner}
    {s t : ScriptedBus} {f : ConcurrentBus} {n : Nat} (hmanner : m = .awaiting ∨ m = e.manner)
    (h : deliver emit e (m.inTurn (s.bus.take e.event).1)
      { s with bus := (s.bus.take e.event).2 } = some (n, t)) (hbus : f.bus = s.bus) :
    ∃ steps, let g := (f.emit e.event e.content m).run steps
      Follows none f s g t ∧ g.rounds[f.rounds.length]? =
        some ⟨e.content, m, [], m.late (s.bus.take e.event).1, n⟩ := by
  let opening := f.emit e.event e.content m
  have hround : opening.rounds[f.rounds.length]? =
      some ⟨e.content, m, (s.bus.take e.event).1, [], 0⟩ := by
    rw [← hbus]
    exact List.getElem?_concat_length
  have htaken : opening.bus = (s.bus.take e.event).2 := by
    rw [← hbus]
    rfl
  obtain ⟨g, hg, hlast⟩ := follows_deliver (f := opening) hemit hmanner h htaken hround rfl rfl rfl
  obtain ⟨steps, rfl⟩ := hg.run
  refine ⟨steps, ?_, by rw [hlast]; simp⟩
  have hlength : opening.rounds.length = f.rounds.length + 1 := List.length_append
  refine ⟨⟨.emit ⟨none, e.event⟩ e.content m :: steps, rfl⟩, hg.bus, ?_, ?_, hg.heard⟩
  · have hle := hg.length
    show f.rounds.length ≤ (opening.run steps).rounds.length
    omega
  · intro j hj _
    have hother := hg.others j (by omega) (by simp only [ne_eq, Option.some.injEq]; omega)
    exact hother.trans (List.getElem?_append_left hj)

theorem follows_emit (fuel : Nat) {e : Emission} {s t : ScriptedBus} {f : ConcurrentBus} {n : Nat}
    (h : ScriptedBus.emit fuel e s = some (n, t)) (hbus : f.bus = s.bus) :
    ∃ steps, let g := (f.emit e.event e.content e.manner).run steps
      Follows none f s g t ∧
      ∃ r, g.rounds[f.rounds.length]? = some r ∧ r.Ended ∧ r.count = n := by
  induction fuel generalizing e s t f n with
  | zero => cases h
  | succ fuel ih =>
    have hemit : Emits fun inner s =>
        ScriptedBus.emit fuel { inner with threaded := inner.threaded || e.threaded } s := by
      intro inner u m v f hu hf
      obtain ⟨steps, hg, -⟩ := ih hu hf
      exact ⟨_, hg⟩
    have hturn (l : List (Entry Listener)) : e.manner.inTurn l = l ∧ e.manner.late l = [] := by
      unfold Emission.manner
      split <;> exact ⟨rfl, rfl⟩
    obtain ⟨steps, hg, hlast⟩ := follows_opening (f := f) (m := e.manner) hemit (.inr rfl)
      (by rw [(hturn _).1]; exact h) hbus
    exact ⟨steps, hg, _, hlast, ⟨rfl, (hturn _).2⟩, rfl⟩

/-! ## Commands -/

/-- A bus after some commands, if none of their emissions nests deeper than `depth`. -/
def ScriptedBus.after (depth : Nat) (commands : List Command) : Option ScriptedBus :=
  commands.foldlM (fun s c => (s.command depth c).map (·.2.2.2)) fresh

theorem bus_emitAndWait {fuel : Nat} {e : Emission} {s t : ScriptedBus} {f : ConcurrentBus}
    (h : ScriptedBus.emitAndWait fuel e s = some t) (hbus : f.bus = s.bus) :
    ∃ steps, ((f.emit e.event e.content .awaiting).run steps).bus = t.bus := by
  have hemit : Emits (ScriptedBus.emit fuel) := by
    intro e s n t f h hbus
    obtain ⟨steps, hg, -⟩ := follows_emit fuel h hbus
    exact ⟨_, hg⟩
  simp only [ScriptedBus.emitAndWait, Option.bind_eq_bind, Option.bind_eq_some_iff] at h
  obtain ⟨⟨n, u⟩, hu, ht⟩ := h
  cases ht
  have hturn : deliver (ScriptedBus.emit fuel) e (Manner.awaiting.inTurn (s.bus.take e.event).1)
      { s with bus := (s.bus.take e.event).2 } = some (n, u) := by
    refine (congrArg (fun l => deliver _ e l _) ?_).trans hu
    refine List.filter_congr fun x _ => ?_
    cases x.listener <;> rfl
  obtain ⟨steps, hg, -⟩ := follows_opening hemit (.inl rfl) hturn hbus
  exact ⟨steps, hg.bus⟩

/-- Whatever is done with a scripted bus from outside is done with a concurrent bus. -/
theorem bus_obey {depth : Nat} {s t : ScriptedBus} {f : ConcurrentBus} {c : Command} {r : Reply}
    (h : s.obey depth c = some (r, t)) (hbus : f.bus = s.bus) :
    ∃ steps, (f.run steps).bus = t.bus := by
  cases c with
  | listen event tag once actions =>
    cases h
    refine ⟨[.listen ⟨none, event⟩ once (.direct tag actions)], ?_⟩
    show (f.bus.register event once _).2 = (s.bus.register event once _).2
    rw [hbus]
  | listenLater event tag yields ending =>
    cases h
    refine ⟨[.listen ⟨none, event⟩ false (.deferred tag yields ending)], ?_⟩
    show (f.bus.register event false _).2 = (s.bus.register event false _).2
    rw [hbus]
  | unsubscribe sub =>
    cases h
    obtain ⟨g, hg⟩ := follows_unsubscribe sub hbus
    obtain ⟨steps, rfl⟩ := hg.run
    exact ⟨steps, hg.bus⟩
  | off event sub =>
    cases h
    split
    · rename_i h _
      refine ⟨[.off ⟨none, event⟩ h.id], ?_⟩
      show (f.bus.off event h.id).2 = (s.bus.off event h.id).2
      rw [hbus]
    · exact ⟨[], hbus⟩
  | emit e =>
    obtain ⟨⟨n, u⟩, hu, hr⟩ := Option.map_eq_some_iff.mp h
    cases hr
    obtain ⟨steps, hg, -⟩ := follows_emit depth hu hbus
    exact ⟨.emit ⟨none, e.event⟩ e.content e.manner :: steps, hg.bus⟩
  | emitAndWait e =>
    obtain ⟨u, hu, hr⟩ := Option.map_eq_some_iff.mp h
    cases hr
    obtain ⟨steps, hg⟩ := bus_emitAndWait hu hbus
    exact ⟨.emit ⟨none, e.event⟩ e.content .awaiting :: steps, hg⟩
  | removeAll event =>
    cases h
    refine ⟨[.removeAll event], ?_⟩
    show f.bus.removeAll event = s.bus.removeAll event
    rw [hbus]
  | count event | names | nameSpace space | describe | drop =>
    cases h
    exact ⟨[], hbus⟩

theorem bus_command {depth : Nat} {s t : ScriptedBus} {f : ConcurrentBus} {c : Command}
    (h : (s.command depth c).map (·.2.2.2) = some t) (hbus : f.bus = s.bus) :
    ∃ steps, (f.run steps).bus = t.bus := by
  obtain ⟨answer, hcommand, rfl⟩ := Option.map_eq_some_iff.mp h
  unfold ScriptedBus.command at hcommand
  cases hdropped : s.dropped with
  | false =>
    rw [hdropped] at hcommand
    obtain ⟨⟨r, u⟩, hu, hanswer⟩ := Option.bind_eq_some_iff.mp hcommand
    cases hanswer
    obtain ⟨steps, hdeeds⟩ := bus_obey hu hbus
    exact ⟨steps, hdeeds⟩
  | true =>
    rw [hdropped] at hcommand
    cases c with
    | unsubscribe sub =>
      cases hcommand
      obtain ⟨g, hg⟩ := follows_unsubscribe sub hbus
      obtain ⟨steps, rfl⟩ := hg.run
      exact ⟨steps, hg.bus⟩
    | _ =>
      cases hcommand
      exact ⟨[], hbus⟩

theorem bus_after {depth : Nat} {commands : List Command} {s : ScriptedBus}
    (h : ScriptedBus.after depth commands = some s) :
    ∃ steps, (ConcurrentBus.opened.run steps).bus = s.bus := by
  suffices hrun : ∀ (u : ScriptedBus) (f : ConcurrentBus), f.bus = u.bus →
      commands.foldlM (fun s c => (s.command depth c).map (·.2.2.2)) u = some s →
      ∃ steps, (f.run steps).bus = s.bus from hrun _ _ rfl h
  clear h
  induction commands with
  | nil =>
    rintro u f hbus ⟨⟩
    exact ⟨[], hbus⟩
  | cons c rest ih =>
    intro u f hbus h
    rw [List.foldlM_cons] at h
    obtain ⟨v, hv, hrest⟩ := Option.bind_eq_some_iff.mp h
    obtain ⟨steps, hd⟩ := bus_command hv hbus
    obtain ⟨more, hm⟩ := ih _ _ hd hrest
    exact ⟨steps ++ more, by rw [ConcurrentBus.run_append]; exact hm⟩

/-! ## The law -/

/-- An emission that starts after some steps, whatever is done later. -/
theorem stands_after (before later : List BusStep) (a : Address) (content : Event) (m : Manner) :
    ∃ r, (ConcurrentBus.opened.run (before ++ .emit a content m :: later)).Stands
      (ConcurrentBus.opened.run before).rounds.length content
      (m.reached ((ListenerLog.after before).listeners a.name)) r := by
  have hkept := ListenerLog.kept_after before
  rw [ConcurrentBus.run_append, ConcurrentBus.run_cons]
  refine ConcurrentBus.Stands.run
    (r := ⟨content, m, (ConcurrentBus.opened.run before).bus.listeners a.name, [], 0⟩)
    ?_ later
  rw [← hkept.agrees.listeners]
  exact ConcurrentBus.stands_emit hkept.numbered a.name content m

theorem called_le_one (steps : List BusStep) {p : Registration}
    (hp : p ∈ (ListenerLog.after steps).enrolled)
    (honce : p.once = true) :
    (ConcurrentBus.opened.run steps).calls.countP (·.entry.id == p.entry.id) ≤ 1 := by
  have hle := (ListenerLog.kept_after steps).single.once p hp honce
  unfold ConcurrentBus.met at hle
  omega

/-- The law of emissions. An emission that starts after some steps calls or starts the listeners
that the log has for its event then, each once, in their order, and counts them; it comes to its end
if it goes on, and nothing that is done later changes whom it reaches. A listener that is registered
for one call is called once at most in the whole run, and once if an emission of its event starts
while it is registered and comes to its end, unless it would have to run later and cannot. The bus
of a scripted bus is the bus of such a run, and so are its emissions: what they return is the number
of those that they reach, and what is heard and started is what the calls of the run say. -/
theorem emission_law :
    (∀ (before later : List BusStep) (a : Address) (content : Event) (m : Manner),
      let there := (ListenerLog.after before).listeners a.name
      let i := (ConcurrentBus.opened.run before).rounds.length
      let f := ConcurrentBus.opened.run (before ++ .emit a content m :: later)
      (there.map (·.id)).Nodup ∧
      ∃ r, f.Stands i content (m.reached there) r ∧
        (r.Ended → f.callsOf i = (m.reached there).map (Call.mk i content) ∧
          r.count = (m.reached there).length) ∧
        ∃ n q, (f.run (List.replicate n (.goOn i))).Stands i content (m.reached there) q ∧
          q.Ended) ∧
    (∀ (steps : List BusStep), ∀ p ∈ (ListenerLog.after steps).enrolled, p.once = true →
      (ConcurrentBus.opened.run steps).calls.countP (·.entry.id == p.entry.id) ≤ 1) ∧
    (∀ (before later : List BusStep) (a : Address) (content : Event) (m : Manner),
      ∀ p ∈ (ListenerLog.after before).here, p.once = true → p.event = a.name →
      (m = .bare → p.entry.listener.later = false) →
      let f := ConcurrentBus.opened.run (before ++ .emit a content m :: later)
      ∀ r, f.rounds[(ConcurrentBus.opened.run before).rounds.length]? = some r → r.Ended →
        f.calls.countP (·.entry.id == p.entry.id) = 1) ∧
    (∀ depth commands s, ScriptedBus.after depth commands = some s →
      ∀ fuel e n t, ScriptedBus.emit fuel e s = some (n, t) →
      ∃ before later, let f := ConcurrentBus.opened.run before
        f.bus = s.bus ∧
        Follows none f s
          (ConcurrentBus.opened.run (before ++ .emit ⟨none, e.event⟩ e.content e.manner :: later)) t ∧
        n = (e.manner.reached ((ListenerLog.after before).listeners e.event)).length) := by
  refine ⟨?_, fun steps p hp honce => called_le_one steps hp honce, ?_, ?_⟩
  · intro before later a content m there i f
    obtain ⟨r, hr⟩ := stands_after before later a content m
    obtain ⟨q, hq, hended⟩ := hr.ends (Nat.le_refl _)
    have hnodup := (ListenerLog.kept_after before).orderly.nodup_listeners a.name
    exact ⟨hnodup, r, hr, hr.ended, _, q, hq, hended⟩
  · intro before later a content m p hp honce hevent hlater f r hround hended
    obtain ⟨q, hq⟩ := stands_after before later a content m
    have hsame : q = r := Option.some.inj (hq.round.symm.trans hround)
    obtain ⟨hcalls, -⟩ := hq.ended (hsame ▸ hended)
    -- whoever is there is reached, unless it would have to run later and cannot
    have hreached : p.entry ∈ m.reached ((ListenerLog.after before).listeners a.name) := by
      have hthere := ListenerLog.mem_listeners.mpr ⟨p, hp, hevent, rfl⟩
      cases m with
      | starting => exact hthere
      | bare => exact List.mem_filter.mpr ⟨hthere, by simp [hlater rfl]⟩
      | awaiting =>
        cases hl : p.entry.listener.later with
        | false => exact List.mem_append_left _ (List.mem_filter.mpr ⟨hthere, by simp [hl]⟩)
        | true => exact List.mem_append_right _ (List.mem_filter.mpr ⟨hthere, hl⟩)
    have hcalled :
        Call.mk (ConcurrentBus.opened.run before).rounds.length content p.entry ∈ f.calls := by
      have hmem := hcalls ▸ List.mem_map_of_mem hreached
      exact List.mem_of_mem_filter hmem
    have hpos : 0 < f.calls.countP (·.entry.id == p.entry.id) :=
      List.countP_pos_iff.mpr ⟨_, hcalled, beq_self_eq_true _⟩
    have henrolled : p ∈ (ListenerLog.after (before ++ .emit a content m :: later)).enrolled :=
      (ListenerLog.enrolled_after before _).subset
        ((ListenerLog.kept_after before).orderly.here.subset hp)
    have hle := called_le_one _ henrolled honce
    exact Nat.le_antisymm hle hpos
  · intro depth commands s hafter fuel e n t h
    -- a scripted bus is followed by a run, of which all of this is known
    obtain ⟨before, hbus⟩ := bus_after hafter
    obtain ⟨later, hfollows, r, hround, hended, hcount⟩ := follows_emit fuel h hbus
    have hrun : ConcurrentBus.opened.run (before ++ .emit ⟨none, e.event⟩ e.content e.manner :: later) =
        ((ConcurrentBus.opened.run before).emit e.event e.content e.manner).run later :=
      ConcurrentBus.run_append ..
    refine ⟨before, later, hbus, hrun ▸ hfollows, ?_⟩
    obtain ⟨q, hq⟩ := stands_after before later ⟨none, e.event⟩ e.content e.manner
    have hsame : q = r := by
      have heq := hq.round
      rw [hrun, hround] at heq
      exact (Option.some.inj heq).symm
    obtain ⟨-, hlength⟩ := hq.ended (hsame ▸ hended)
    rw [← hcount, ← hsame, hlength]
    rfl

/-- A listener for one call of an event in a name space. -/
def onlyOnce : BusStep := .listen ⟨some "a", "b"⟩ true (.direct "once" [])

/-- While it is called, it emits the event again, under its full name. -/
def reentry : List BusStep :=
  [.goOn 0, .emit ⟨none, "a:b"⟩ ⟨"again", none, .null⟩ .starting, .goOn 1, .goOn 0]

/-- It is called once all the same. -/
theorem called_once_on_reentry :
    let f := ConcurrentBus.opened.run
      ([onlyOnce] ++ .emit ⟨some "a", "b"⟩ ⟨"first", none, .null⟩ .starting :: reentry)
    f.calls.countP (·.entry.id == 1) = 1 ∧ f.rounds.map (·.count) = [1, 0] := by
  obtain ⟨-, -, honce, -⟩ := emission_law
  refine ⟨?_, rfl⟩
  exact honce [onlyOnce] reentry ⟨some "a", "b"⟩ ⟨"first", none, .null⟩ .starting
    ⟨"a:b", true, 1, .direct "once" []⟩ (List.mem_singleton.mpr rfl) rfl rfl
    (fun h => by cases h) _ rfl ⟨rfl, rfl⟩

end ContainerHost.Event
