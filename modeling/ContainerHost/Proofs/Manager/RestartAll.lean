import ContainerHost.Proofs.Manager.Restarts
/-!
# Restarts of all containers by a scheduler

A manager that restarts all containers by itself asks for all restarts before any of the containers
rests, and then lets them come up in the order in which their rests end. Each restart is in a
`RestartPhase` again, and what the scheduler has of it is what its phase says (`Scheduler.At`). The
operation ends as every interleaving of the restarts does (`allRestarted_restartAll`).
-/

namespace ContainerHost

/-! ## Pools -/

namespace Pool

variable {y y' : Pool} {outside : Outside}

/-- The pool stands in this world, and its containers have nothing left to announce. -/
structure Calm (outside : Outside) (y : Pool) : Prop where
  labelled : y.Labelled
  outside : y.outside = outside
  hushed : y.Hushed
  silent : y.All fun c => c.outbox = []

theorem Calm.act (h : y.Calm outside) {α : Type} {id : String} {f : Container → α × Container}
    (hf : ∀ c, Container.Handled c (f c).2) {a : α} (ha : y.act id f = some (a, y')) :
    y'.Calm outside where
  labelled := (keeps_labelled fun _ _ => True).act h.labelled (fun _ _ => trivial) ha
  outside := (keeps_outside outside).act h.outside (fun _ _ => trivial) ha
  hushed := h.hushed.act hf ha
  silent := keeps_outboxes.act h.silent (fun _ _ => trivial) ha

theorem Calm.sleepUntil (h : y.Calm outside) (till : Nat) : (y.sleepUntil till).Calm outside where
  labelled := (keeps_labelled _).sleepUntil h.labelled till
  outside := ((keeps_outside outside).mono fun _ _ _ => trivial).sleepUntil h.outside till
  hushed := Hushed.of_same (h.hushed.report _ _) rfl rfl
  silent := (keeps_outboxes.mono fun _ _ _ => trivial).sleepUntil h.silent till

/-- For all containers but one, nothing but time has passed. -/
def Passes (y : Pool) (id : String) (y' : Pool) : Prop :=
  ∀ x, x ≠ id → ∀ c, y.get? x = some c → ∃ d, y'.get? x = some d ∧ c.Aged d

theorem Aside.passes {id : String} (h : y.Aside id y') : y.Passes id y' :=
  fun x hx c hc => ⟨c, (h.others x hx).trans hc, Container.Aged.refl c⟩

end Pool

/-- The rest that is left of the restart: the container and the snapshot that it will be given. -/
def RestartPhase.rests (c : Container) : RestartPhase → List (String × State)
  | .resting => [(c.id, c.state)]
  | .waiting | .ended _ => []

namespace Scheduler

variable {d d' : Scheduler} {m : Manager} {ticket : Nat} {c : Container} {s : RestartPhase}
  {p : Nat × Container} {todo : List (Nat × Container)} {y : Pool}

/-! ## Phases -/

/-- The restart of a container, which has a ticket, is in a phase. -/
structure At (d : Scheduler) (ticket : Nat) (c : Container) (s : RestartPhase) : Prop where
  rests : (d.rests.filter (·.ticket == ticket)).map (fun r => (r.id, r.snapshot)) = s.rests c
  answer : d.answer? ticket = (s.answer? c).map .done
  holds : ∃ e, d.pool.get? c.id = some e ∧ s.Holds c e

/-- What happens has nothing to do with an operation and a container, but that time passes. -/
structure Spares (d : Scheduler) (ticket : Nat) (id : String) (d' : Scheduler) : Prop where
  rests : d'.rests.filter (·.ticket == ticket) = d.rests.filter (·.ticket == ticket)
  answer : d'.answer? ticket = d.answer? ticket
  pool : ∀ e, d.pool.get? id = some e → ∃ e', d'.pool.get? id = some e' ∧ e.Aged e'

theorem At.spared (h : d.At ticket c s) (k : d.Spares ticket c.id d') : d'.At ticket c s := by
  obtain ⟨e, he, hholds⟩ := h.holds
  obtain ⟨e', he', haged⟩ := k.pool e he
  exact ⟨k.rests ▸ h.rests, k.answer.trans h.answer, e', he', hholds.aged haged⟩

/-- The scheduler has nothing but the restarts of all containers of `m`. Some wait to be asked for,
and the others have begun. -/
structure Underway (m : Manager) (todo : List (Nat × Container)) (d : Scheduler) : Prop where
  calls : d.calls = []
  reloads : d.reloads = []
  free : d.waiting = []
  pool : d.pool.Calm m.pool.outside
  waiting : ∀ p ∈ todo, d.At p.1 p.2 .waiting
  begun : ∀ p ∈ m.parts 0, p ∉ todo →
    d.At p.1 p.2 .resting ∨ ∃ env, env.outside = m.pool.outside ∧ d.At p.1 p.2 (.ended env)
  rests : ∀ r ∈ d.rests, ∃ p ∈ m.parts 0, p.1 = r.ticket

theorem Underway.resting (h : Underway m todo d) {r : Rest} (hr : r ∈ d.rests) :
    ∃ p ∈ m.parts 0, p.1 = r.ticket ∧ d.At p.1 p.2 .resting ∧ r.id = p.2.id ∧
      r.snapshot = p.2.state := by
  obtain ⟨p, hp, hticket⟩ := h.rests r hr
  have hmem (s : RestartPhase) (hat : d.At p.1 p.2 s) : (r.id, r.snapshot) ∈ s.rests p.2 := by
    rw [← hat.rests]
    exact List.mem_map.mpr ⟨r, List.mem_filter.mpr ⟨hr, beq_iff_eq.mpr hticket.symm⟩, rfl⟩
  have hresting : d.At p.1 p.2 .resting := by
    by_cases htodo : p ∈ todo
    · cases hmem _ (h.waiting p htodo)
    · rcases h.begun p hp htodo with hat | ⟨env, -, hat⟩
      · exact hat
      · cases hmem _ hat
  have hsame := List.mem_singleton.mp (hmem _ hresting)
  exact ⟨p, hp, hticket, hresting, congrArg Prod.fst hsame, congrArg Prod.snd hsame⟩

/-! ## Asking -/

/-- A restart has begun: the container of the operation is stopped and rests. -/
def lying (d : Scheduler) (p : Nat × Container) (y : Pool) : Scheduler :=
  { d with
    tickets := p.1 + 1
    pool := y
    rests := d.rests ++ [⟨p.1, p.2.id, y.clock.timers + Limits.restartGrace.nanos, p.2.state⟩] }

theorem spares_lying {q : Nat × Container} (hticket : p.1 ≠ q.1) (hid : q.2.id ≠ p.2.id)
    (hy : d.pool.Passes p.2.id y) : d.Spares q.1 q.2.id (d.lying p y) where
  rests := by
    unfold lying
    rw [List.filter_append, List.filter_cons, beq_eq_false_iff_ne.mpr hticket]
    exact List.append_nil _
  answer := rfl
  pool := hy q.2.id hid

theorem At.lying (h : d.At p.1 p.2 .waiting)
    (hy : ∃ e, y.get? p.2.id = some e ∧ p.2.stop.Aged e) : (d.lying p y).At p.1 p.2 .resting where
  rests := by
    have hnone : d.rests.filter (·.ticket == p.1) = [] := List.map_eq_nil_iff.mp h.rests
    unfold Scheduler.lying
    rw [List.filter_append, hnone, List.filter_cons, beq_self_eq_true p.1]
    rfl
  answer := h.answer
  holds := hy

theorem Underway.ask_eq (hm : m.Restartable) (h : Underway m (p :: todo) d) (hp : p ∈ m.parts 0)
    (hticket : d.tickets = p.1) :
    ∃ y, (d.ask p.2.id .restart).2 = d.lying p y ∧ y.Calm m.pool.outside ∧
      d.pool.Passes p.2.id y ∧ ∃ e, y.get? p.2.id = some e ∧ p.2.stop.Aged e := by
  have hat := h.waiting p List.mem_cons_self
  obtain ⟨e, he, haged⟩ := hat.holds
  -- nobody rests with this container, since ids are different
  have hfree : d.resting p.2.id = false := by
    unfold Scheduler.resting
    rw [List.any_eq_false]
    intro r hr heq
    obtain ⟨q, hq, hqticket, hresting, hid, -⟩ := h.resting hr
    obtain rfl : q = p := Manager.part_eq_of_id hm.settled hm.distinct hq hp
      (hid.symm.trans (eq_of_beq heq))
    have hrests := hresting.rests
    rw [hat.rests] at hrests
    cases hrests
  obtain ⟨y, hact, haside, hafter⟩ := Pool.act_there h.pool.labelled
    (f := Container.beginRestart) he e.sameIdentity_stop.id
  have hstate : e.state = p.2.state := by
    obtain ⟨_, _, _, _, rfl⟩ := haged
    rfl
  refine ⟨y, ?_, h.pool.act (f := Container.beginRestart) (fun c => .stopped c) hact,
    haside.passes, _, hafter, Container.Aged.trans (Container.Aged.stop haged) e.stop.aged_cleared⟩
  simp only [Scheduler.ask, enter, perform, withContainer]
  unfold Scheduler.lying
  rw [← hticket, ← hstate]
  show (if d.resting p.2.id then _ else _) = _
  rw [hfree, if_neg Bool.false_ne_true, hact]
  rfl

theorem Underway.ask (hm : m.Restartable) (h : Underway m (p :: todo) d) (hp : p ∈ m.parts 0)
    (htodo : ∀ q ∈ todo, q ∈ m.parts 0) (hnew : p ∉ todo) (hticket : d.tickets = p.1) :
    (d.ask p.2.id .restart).1 = p.1 ∧ (d.ask p.2.id .restart).2.tickets = p.1 + 1 ∧
      Underway m todo (d.ask p.2.id .restart).2 := by
  obtain ⟨y, hasked, hcalm, hpasses, hafter⟩ := h.ask_eq hm hp hticket
  have hspares {q : Nat × Container} (hq : q ∈ m.parts 0) (hne : q ≠ p) :
      d.Spares q.1 q.2.id (d.lying p y) :=
    spares_lying (fun heq => hne (Manager.part_eq_of_ticket hq hp heq.symm))
      (fun heq => hne (Manager.part_eq_of_id hm.settled hm.distinct hq hp heq)) hpasses
  rw [hasked]
  refine ⟨hticket, rfl, ⟨h.calls, h.reloads, h.free, hcalm, ?_, ?_, ?_⟩⟩
  · intro q hq
    have hne : q ≠ p := fun heq => hnew (heq ▸ hq)
    exact (h.waiting q (List.mem_cons_of_mem _ hq)).spared (hspares (htodo q hq) hne)
  · intro q hq hout
    by_cases hne : q = p
    · subst hne
      exact .inl ((h.waiting q List.mem_cons_self).lying hafter)
    · have hwas : q ∉ p :: todo := fun hmem => (List.mem_cons.mp hmem).elim hne hout
      rcases h.begun q hq hwas with hq' | ⟨env, henv, hq'⟩
      · exact .inl (hq'.spared (hspares hq hne))
      · exact .inr ⟨env, henv, hq'.spared (hspares hq hne)⟩
  · intro r hr
    rcases List.mem_append.mp hr with hr | hr
    · exact h.rests r hr
    · rw [List.mem_singleton.mp hr]
      exact ⟨p, hp, rfl⟩

def askRestart (asked : List (Nat × String) × Scheduler) (id : String) :
    List (Nat × String) × Scheduler :=
  (asked.1 ++ [((asked.2.ask id .restart).1, id)], (asked.2.ask id .restart).2)

theorem Underway.askAll (hm : m.Restartable) {l : List Container} {k : Nat}
    (h : Underway m ((List.range' k l.length).zip l) d) (htickets : d.tickets = k)
    (htodo : ∀ q ∈ (List.range' k l.length).zip l, q ∈ m.parts 0)
    (hnodup : ((List.range' k l.length).zip l).Nodup) (ts : List (Nat × String)) :
    ∃ d', (l.map (·.id)).foldl askRestart (ts, d) =
        (ts ++ ((List.range' k l.length).zip l).map (fun p => (p.1, p.2.id)), d') ∧
      Underway m [] d' := by
  induction l generalizing k d ts with
  | nil => exact ⟨d, by simp, h⟩
  | cons c l ih =>
    rw [List.length_cons, List.range'_succ, List.zip_cons_cons] at h htodo hnodup ⊢
    obtain ⟨hnew, hnodup⟩ := List.nodup_cons.mp hnodup
    have hrest (q : Nat × Container) (hq : q ∈ (List.range' (k + 1) l.length).zip l) :
        q ∈ m.parts 0 := htodo q (List.mem_cons_of_mem _ hq)
    obtain ⟨hticket, hnext, hunder⟩ := h.ask hm (htodo _ List.mem_cons_self) hrest hnew htickets
    obtain ⟨d', hfold, hall⟩ := ih hunder hnext hrest hnodup (ts ++ [(k, c.id)])
    refine ⟨d', ?_, hall⟩
    have hstep : askRestart (ts, d) c.id = (ts ++ [(k, c.id)], (d.ask c.id .restart).2) := by
      unfold askRestart
      rw [hticket]
    rw [List.map_cons, List.foldl_cons, hstep, hfold, List.map_cons, List.append_assoc]
    rfl

/-! ## Coming up -/

theorem nextRest?_mem {r : Rest} (h : d.nextRest? = some r) : r ∈ d.rests := by
  have hall : ∀ x, d.nextRest? = some x → x ∈ d.rests := by
    unfold nextRest?
    refine List.foldlRecOn (motive := fun found : Option Rest => ∀ x, found = some x → x ∈ d.rests)
      d.rests _ (by simp) ?_
    intro found hfound r hr x hx
    split at hx
    · cases hx
      exact hr
    · split at hx
      · cases hx
        exact hr
      · exact hfound _ hx
  exact hall r h

theorem exists_nextRest? (h : d.rests ≠ []) : ∃ r, d.nextRest? = some r := by
  obtain ⟨first, others, hrests⟩ := List.exists_cons_of_ne_nil h
  unfold nextRest?
  rw [hrests, List.foldl_cons]
  refine Option.isSome_iff_exists.mp
    (List.foldlRecOn (motive := fun found : Option Rest => found.isSome = true) others _ rfl ?_)
  intro found _ r _
  split
  · rfl
  · split <;> rfl

/-- The rest of an operation is over, and something came of the restart. -/
def risen (d : Scheduler) (p : Nat × Container) (result : Except Error Unit) (y : Pool) : Scheduler :=
  { d with
    pool := y
    rests := d.rests.filter (·.ticket != p.1)
    answers := d.answers ++ [(p.1, .done result)] }

theorem spares_risen {q : Nat × Container} (hticket : p.1 ≠ q.1) (hid : q.2.id ≠ p.2.id)
    (result : Except Error Unit) (hy : d.pool.Passes p.2.id y) :
    d.Spares q.1 q.2.id (d.risen p result y) where
  rests := by
    unfold risen
    rw [List.filter_filter]
    refine List.filter_congr ?_
    intro x _
    by_cases hx : x.ticket = q.1
    · simp [hx, hticket.symm]
    · simp [hx]
  answer := by
    unfold risen answer?
    rw [List.find?_append, List.find?_cons, beq_eq_false_iff_ne.mpr hticket]
    exact congrArg _ (Option.or_none ..)
  pool := hy q.2.id hid

theorem At.risen {env : Surroundings} (h : d.At p.1 p.2 .resting)
    (hy : ∃ e, y.get? p.2.id = some e ∧ p.2.RestartedIn env e) :
    (d.risen p (p.2.restartIn env) y).At p.1 p.2 (.ended env) where
  rests := by
    unfold Scheduler.risen
    rw [List.filter_filter]
    simp [RestartPhase.rests]
  answer := by
    have hnone : d.answers.find? (·.1 == p.1) = none := Option.map_eq_none_iff.mp h.answer
    unfold Scheduler.risen answer?
    rw [List.find?_append, hnone, List.find?_cons, beq_self_eq_true p.1]
    rfl
  holds := hy

/-- Who rests first comes up, or does not, as it would by itself. -/
theorem Underway.wake_eq (hm : m.Restartable) (h : Underway m [] d) (hrests : d.rests ≠ []) :
    ∃ p ∈ m.parts 0, (∃ r ∈ d.rests, r.ticket = p.1) ∧ d.At p.1 p.2 .resting ∧
      ∃ env y, env.outside = m.pool.outside ∧ d.wake = d.risen p (p.2.restartIn env) y ∧
        y.Calm m.pool.outside ∧ d.pool.Passes p.2.id y ∧
        ∃ e, y.get? p.2.id = some e ∧ p.2.RestartedIn env e := by
  obtain ⟨r, hnext⟩ := exists_nextRest? hrests
  have hr := nextRest?_mem hnext
  obtain ⟨p, hp, hticket, hat, hid, hsnapshot⟩ := h.resting hr
  have hc := Manager.mem_containers_of_part hp
  obtain ⟨e, he, haged⟩ := hat.holds
  -- reports are made until the rest ends
  have htracks := (Pool.keeps_aged d.pool).sleepUntil
    (h.pool.labelled.tracks Container.Aged.refl) r.till
  have hslept := h.pool.sleepUntil r.till
  obtain ⟨e', he', haged'⟩ := htracks.became _ e he
  obtain ⟨y, hact, haside, hafter⟩ := Pool.act_there hslept.labelled
    (f := fun c => c.endRestart p.2.state (d.pool.sleepUntil r.till).surroundings) he'
    (e'.sameModule_endRestart _ _).id
  obtain ⟨hresult, hrestarted⟩ := Container.endRestart_stopped (hm.ordered _ hc)
    (Container.Aged.trans haged haged') (d.pool.sleepUntil r.till).surroundings
  have hcalm := hslept.act (f := fun c =>
    c.endRestart p.2.state (d.pool.sleepUntil r.till).surroundings) (fun c => .revived c ..) hact
  rw [hresult] at hact
  refine ⟨p, hp, ⟨r, hr, hticket.symm⟩, hat, (d.pool.sleepUntil r.till).surroundings, y,
    hslept.outside, ?_, hcalm, ?_, _, hafter, hrestarted.aged (Container.aged_cleared _)⟩
  · unfold Scheduler.wake withContainer Scheduler.risen
    rw [hnext]
    dsimp only
    rw [hid, hsnapshot, ← hticket, hact]
    dsimp only [answer, serve]
    rw [h.free]
    rfl
  · intro x hx f hf
    obtain ⟨f', hf', hlater⟩ := htracks.became _ f hf
    exact ⟨f', (haside.others _ hx).trans hf', hlater⟩

/-- The container whose rest ends first comes up, or does not. -/
theorem Underway.wake (hm : m.Restartable) (h : Underway m [] d) (hrests : d.rests ≠ []) :
    Underway m [] d.wake ∧ d.wake.rests.length < d.rests.length := by
  obtain ⟨p, hp, ⟨r, hr, hticket⟩, hat, env, y, henv, hwake, hcalm, hpasses, hafter⟩ :=
    h.wake_eq hm hrests
  have hspares {q : Nat × Container} (hq : q ∈ m.parts 0) (hne : q ≠ p) :
      d.Spares q.1 q.2.id (d.risen p (p.2.restartIn env) y) :=
    spares_risen (fun heq => hne (Manager.part_eq_of_ticket hq hp heq.symm))
      (fun heq => hne (Manager.part_eq_of_id hm.settled hm.distinct hq hp heq)) _ hpasses
  rw [hwake]
  refine ⟨⟨h.calls, h.reloads, h.free, hcalm, by simp, ?_, ?_⟩, ?_⟩
  · intro q hq _
    by_cases hne : q = p
    · subst hne
      exact .inr ⟨env, henv, hat.risen hafter⟩
    · rcases h.begun q hq List.not_mem_nil with hq' | ⟨env', henv', hq'⟩
      · exact .inl (hq'.spared (hspares hq hne))
      · exact .inr ⟨env', henv', hq'.spared (hspares hq hne)⟩
  · intro x hx
    exact h.rests x (List.mem_of_mem_filter hx)
  · refine List.length_filter_lt_length_iff_exists.mpr ⟨r, hr, ?_⟩
    simp [hticket]

theorem Underway.wakeAll (hm : m.Restartable) (h : Underway m [] d) {fuel : Nat}
    (hfuel : d.rests.length ≤ fuel) :
    Underway m [] (Scheduler.wakeAll fuel d) ∧ (Scheduler.wakeAll fuel d).rests = [] := by
  induction fuel generalizing d with
  | zero => exact ⟨h, List.length_eq_zero_iff.mp (Nat.le_zero.mp hfuel)⟩
  | succ fuel ih =>
    unfold Scheduler.wakeAll
    by_cases hrests : d.rests = []
    · rw [hrests]
      exact ⟨h, hrests⟩
    · rw [if_neg (by simpa using hrests)]
      obtain ⟨hnext, hless⟩ := h.wake hm hrests
      exact ih hnext (by omega)

/-- All operations are settled when all restarts have ended. -/
theorem Underway.settle (hm : m.Restartable) (h : Underway m [] d) :
    Underway m [] d.settle ∧ ∀ p ∈ m.parts 0, ∃ env : Surroundings,
      env.outside = m.pool.outside ∧ d.settle.At p.1 p.2 (.ended env) := by
  obtain ⟨pool, tickets, calls, reloads, rests, waiting, answers⟩ := d
  obtain rfl : calls = [] := h.calls
  obtain rfl : reloads = [] := h.reloads
  obtain ⟨hunder, hrests⟩ := h.wakeAll hm (Nat.le_add_right _ waiting.length)
  refine ⟨hunder, ?_⟩
  intro p hp
  rcases hunder.begun p hp List.not_mem_nil with hat | hat
  · -- a container at rest would have a rest
    have hnone := hat.rests
    rw [hrests] at hnone
    cases hnone
  · exact hat

theorem underway_opened (hm : m.Restartable) : Underway m (m.parts 0) (Scheduler.opened m.pool) where
  calls := rfl
  reloads := rfl
  free := rfl
  pool := ⟨hm.settled.labelled, rfl, hm.settled.quiet.hushed, hm.settled.quiet.outboxes⟩
  waiting := by
    intro p hp
    have hthere := (Manager.mem_containers hm.settled).mp (Manager.mem_containers_of_part hp)
    exact ⟨rfl, rfl, p.2, (Manager.holds_of_get? hthere).2, Container.Aged.refl _⟩
  begun := fun _ hp hout => absurd hp hout
  rests := by
    intro r hr
    cases hr

end Scheduler

/-! ## The operation -/

/-- What the operation as a whole learns of a restart. -/
def Scheduler.resultOf (d : Scheduler) (ticket : Nat) (id : String) : Except Error Unit :=
  match d.answer? ticket with
  | some (.done r) => r
  | _ => .error (.containerNotFound id)

namespace Manager

variable {m : Manager}

def afterRestarts (m : Manager) (results : List (String × Except Error Unit)) : Manager :=
  results.foldl (fun m p => m.afterRestart p.1 p.2) m

/-- Whatever follows restarts does nothing to the registry and to containers but let them report, and
announces the restarts that succeeded. -/
theorem afterRestarts_spec {y : Pool} {f : Container → Except Error Unit} (l : List Container)
    (hq : m.Quiet) (ht : y.Tracks Container.Aged m.pool) :
    let m' := m.afterRestarts (l.map fun c => (c.id, f c))
    m'.slots = m.slots ∧ y.Tracks Container.Aged m'.pool ∧
      m.Announces (restartedEvents ((l.filter fun c => (f c).isOk).map (·.id))) m' := by
  induction l generalizing m with
  | nil => exact ⟨rfl, ht, Level.refl m⟩
  | cons c l ih =>
    obtain ⟨hslots, htracks, hannounces⟩ := ih (hq.afterRestart c.id (f c))
      ((Pool.keeps_aged y).afterRestart ht c.id (f c))
    refine ⟨hslots.trans (m.slots_afterRestart ..), htracks, ?_⟩
    have hfirst := hq.announces_afterRestart c.id (f c)
    show m.Announces _ ((m.afterRestart c.id (f c)).afterRestarts (l.map fun c => (c.id, f c)))
    rw [List.filter_cons]
    generalize f c = r at hfirst hannounces ⊢
    cases r with
    | error e => exact hfirst.trans hannounces
    | ok u => exact hfirst.trans hannounces

/-- How all containers are restarted, once it is known what was asked for. -/
theorem restartAll_eq (m : Manager) {asked : List (Nat × String) × Scheduler}
    (h : m.slots.ids.foldl Scheduler.askRestart ([], Scheduler.opened m.pool) = asked) :
    let results := asked.1.map fun p => (p.2, asked.2.settle.resultOf p.1 p.2)
    let summary := BulkSummary.ofResults (results.map (·.2))
    m.restartAll = (summary,
      ((m.withPool asked.2.settle.pool).afterRestarts results).endRestartAll summary) := by
  subst h
  rfl

/-- The results of restarts that have ended are those that their phases say. -/
theorem results_ended {d : Scheduler} {env : String → Surroundings}
    (h : ∀ p ∈ m.parts 0, d.At p.1 p.2 (.ended (env p.2.id))) :
    ((m.parts 0).map fun p : Nat × Container => (p.1, p.2.id)).map
      (fun p => (p.2, d.resultOf p.1 p.2)) =
        m.containers.map fun c => (c.id, c.restartIn (env c.id)) := by
  rw [← m.snd_parts 0, List.map_map, List.map_map]
  refine List.map_congr_left ?_
  intro p hp
  show (p.2.id, d.resultOf p.1 p.2.id) = (p.2.id, p.2.restartIn (env p.2.id))
  rw [Scheduler.resultOf, (h p hp).answer]
  rfl

theorem allRestarted_restartAll (hm : m.Restartable) :
    ∃ env : String → Surroundings, (∀ id, (env id).outside = m.pool.outside) ∧
      m.AllRestarted env m.restartAll := by
  -- all restarts are asked for and have ended
  obtain ⟨asked, hfold, hasked⟩ := (Scheduler.underway_opened hm).askAll hm
    (l := m.containers) (k := 0) rfl (fun _ hq => hq) (List.Nodup.of_map _ (m.nodup_partTickets 0)) []
  obtain ⟨hsettled, hsome⟩ := hasked.settle hm
  obtain ⟨env, henv, hended⟩ := choose_parts hm.settled hm.distinct
    (Q := (· = m.pool.outside)) ⟨_, rfl⟩ hsome
  rw [ids_containers hm.settled] at hfold
  have hrestart := m.restartAll_eq hfold
  dsimp only at hrestart
  rw [List.nil_append] at hrestart
  generalize asked.settle = scheduler at hrestart hsettled hsome hended
  have hresults := results_ended hended
  have hsummary : BulkSummary.ofResults (m.containers.map fun c => c.restartIn (env c.id)) =
      m.restartSummary env := ofResults_restarts hm.settled env
  rw [parts, partTickets] at hresults
  rw [hresults, List.map_map] at hrestart
  rw [hrestart]
  -- what follows lets containers report and announces, and does nothing else
  have hquiet := quiet_withPool m hsettled.pool.silent
  have hlabelled : (m.withPool scheduler.pool).pool.Labelled := by
    rw [pool_withPool]
    exact hsettled.pool.labelled.of_same rfl
  obtain ⟨hslots, htracks, hannounces⟩ :=
    afterRestarts_spec (f := fun c => c.restartIn (env c.id)) m.containers hquiet
      (hlabelled.tracks Container.Aged.refl)
  generalize (m.withPool scheduler.pool).afterRestarts (m.containers.map fun c =>
    (c.id, c.restartIn (env c.id))) = m' at hslots htracks hannounces
  have hsame : m'.slots = m.slots := hslots.trans (m.slots_withPool _)
  refine ⟨env, henv, hsummary, hsame, ?_, _, List.Perm.refl _, ?_⟩
  · intro id c hc
    obtain ⟨rfl, k, hp⟩ : c.id = id ∧ ∃ k, (k, c) ∈ m.parts 0 := part_of_get? hm.settled hc
    obtain ⟨d, hd, hrestarted⟩ := (hended _ hp).holds
    rw [pool_withPool] at htracks
    obtain ⟨e, he, haged⟩ := htracks.became _ d hd
    have hrestarted := Container.RestartedIn.aged hrestarted haged
    refine ⟨e, get?_of_holds ?_ he, hrestarted, hrestarted.state_eq⟩
    show m'.slots.holds c.id = true
    rw [hsame]
    exact (holds_of_get? hc).1
  · exact ((level_withPool hsettled.pool.hushed m).before hannounces).trans (announces_emit _ _)

end Manager
end ContainerHost
