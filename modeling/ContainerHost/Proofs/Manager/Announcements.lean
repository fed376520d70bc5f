import ContainerHost.Proofs.Event.ListenerLog
import ContainerHost.Proofs.Manager.Handling
/-!
# What a manager announces itself

A manager passes on what its containers announce, and has topics of its own for what it does with
them. Containers announce nothing under those (`Handled.announced`), so that what is heard of a
manager's own topics is what the manager announces, one event after the other: `m.Announces es m'`
says that it is the same, for all listeners, as if nothing but the events `es` had been emitted.
-/

namespace ContainerHost

def Topic.ofManagers : List Topic :=
  [.containerRemoved, .containerRestarted, .containerHotReloaded, .replicaCreated, .scaled,
    .dockerDeployed, .restartAll, .cleanup]

def Event.isOwn (e : Event) : Bool := Topic.ofManagers.any fun t => e.kind == t.name

/-- The notice is an event under a topic of managers. -/
def Notice.isOwn : Notice → Bool
  | .event e => e.isOwn
  | .delivered .. => false

/-- What was heard is an event under a topic of managers. -/
def Heard.isOwn : Heard → Bool
  | .event _ e => e.isOwn
  | .delivered .. => false

theorem Event.isOwn_of_notMem {t : Topic} (ht : t ∉ Topic.ofManagers) (id : Option String)
    (payload : Json.Value) : (⟨t.name, id, payload⟩ : Event).isOwn = false := by
  rw [isOwn, List.any_eq_false]
  intro s hs heq
  have hsame : t = s := Topic.name_injective (eq_of_beq heq)
  exact ht (hsame ▸ hs)

theorem Notice.isOwn_eq_any (n : Notice) : n.isOwn = Topic.ofManagers.any fun t => n.isOf t := by
  cases n with
  | event e => rfl
  | delivered tag state => rfl

/-! ## Containers -/

namespace Container

variable {c d : Container} {t : Topic}

def Hushed (c : Container) : Prop := ∀ t ∈ Topic.ofManagers, c.announced t = 0

theorem hushed_of_silent (h : c.outbox = []) : c.Hushed := by
  intro t _
  rw [announced, h]
  rfl

theorem Hushed.isOwn (h : c.Hushed) : ∀ n ∈ c.outbox, n.isOwn = false := by
  intro n hn
  rw [Notice.isOwn_eq_any, List.any_eq_false]
  intro t ht
  exact List.countP_eq_zero.mp (h t ht) n hn

theorem ne_of_ofManagers {s : Topic} (hs : s ∉ Topic.ofManagers) (ht : t ∈ Topic.ofManagers) :
    t ≠ s := by
  rintro rfl
  exact hs ht

theorem announced_updateState (ht : t ∈ Topic.ofManagers) (u : State) :
    (c.updateState u).announced t = c.announced t :=
  announced_of_updated (c.updated_updateState u) (ne_of_ofManagers (by decide) ht)

theorem announced_observed (ht : t ∈ Topic.ofManagers) (h : Observed c d) :
    d.announced t = c.announced t :=
  announced_of_observed h (ne_of_ofManagers (by decide) ht) (ne_of_ofManagers (by decide) ht)

theorem announced_announce_other (ht : t ∈ Topic.ofManagers) {s : Topic}
    (hs : s ∉ Topic.ofManagers) (payload : List (String × Json.Value)) :
    (c.announce s payload).announced t = c.announced t :=
  c.announced_announce_of_ne payload (ne_of_ofManagers hs ht).symm

theorem announced_stop (ht : t ∈ Topic.ofManagers) : c.stop.announced t = c.announced t := by
  unfold stop
  split
  · rfl
  · exact announced_announce_other ht (by decide) []

theorem announced_start (env : Surroundings) : (c.start env).2.announced t = c.announced t := by
  unfold start boot
  cases c.sandbox.instantiate env c.module c.id <;> rfl

theorem announced_endRestart (ht : t ∈ Topic.ofManagers) (snapshot : State) (env : Surroundings) :
    (c.endRestart snapshot env).2.announced t = c.announced t := by
  have hstart : ((c.setStatus .starting).start env).2.announced t = c.announced t :=
    announced_start env
  unfold endRestart revive
  generalize (c.setStatus .starting).start env = started at hstart ⊢
  obtain ⟨e | u, d⟩ := started
  · exact hstart
  · exact (announced_announce_other ht (by decide) _).trans
      ((announced_updateState ht snapshot).trans hstart)

theorem announced_hotReload (ht : t ∈ Topic.ofManagers) (m : Guest.Compiled)
    (digest : Option String) (env : Surroundings) :
    (c.hotReload m digest env).2.announced t = c.announced t := by
  unfold hotReload
  cases c.reloadedGuest m env with
  | error e => rfl
  | ok g =>
    refine (announced_announce_other ht (by decide) _).trans ?_
    split
    · exact announced_updateState (c := c.swap g m digest) ht c.state
    · rfl

theorem announced_settleCall (ht : t ∈ Topic.ofManagers) (function : String)
    (result : Except Error (List Wasm.Value)) (now : Nat) (took : Duration) :
    (c.settleCall function result now took).announced t = c.announced t := by
  cases result with
  | error e => exact announced_announce_other ht (by decide) _
  | ok vs =>
    dsimp only [settleCall]
    split
    · exact announced_announce_other ht (by decide) _
    · rfl

theorem announced_interact (ht : t ∈ Topic.ofManagers) (now : Nat) (x : Interaction) :
    (c.interact now x).announced t = c.announced t := by
  cases x with
  | call function args =>
    rw [interact]
    rcases beginCall_cases c function args now with
      ⟨-, hc⟩ | ⟨-, e, d, hobs, -, hc⟩ | ⟨-, g, d, hobs, -, hc⟩
    · rw [hc]
    · rw [hc]
      exact (announced_settleCall ht function _ now _).trans (announced_observed ht hobs)
    · rw [hc]
      have hd : d.announced t = c.announced t := announced_observed ht hobs
      exact hd
  | settle function result took => exact announced_settleCall ht function result now took
  | update u => exact announced_updateState ht u
  | subscribe tag fails replies => rfl
  | unsubscribe id => rfl
  | query q => exact announced_observed ht (c.observed_query now q)

/-- A container announces nothing under the topics of managers, whatever is done to it. -/
theorem Handled.announced (h : Handled c d) (ht : t ∈ Topic.ofManagers) :
    d.announced t = c.announced t := by
  cases h with
  | stopped => exact announced_stop ht
  | revived snapshot env => exact announced_endRestart ht snapshot env
  | reloaded m digest env => exact announced_hotReload ht m digest env
  | interacted now x => exact announced_interact ht now x
  | observed h => exact announced_observed ht h

theorem Hushed.handled (h : c.Hushed) (hd : Handled c d) : d.Hushed :=
  fun t ht => (hd.announced ht).trans (h t ht)

theorem hushed_create {id name : String} {box : Guest.Sandbox} {module : Guest.Compiled}
    {digest : Option String} {env : Surroundings}
    (h : create id name box module digest env = .ok c) : c.Hushed := by
  have hstart := (raw id name box module digest env.now).start_spec env
  unfold create at h
  split at h
  · cases h
  · generalize (raw id name box module digest env.now).start env = started at hstart h
    obtain ⟨e | u, d⟩ := started
    · cases h
    · cases h
      exact hushed_of_silent hstart.2.2.2

theorem hushed_replica {r : Container} {id : String} {env : Surroundings}
    (h : c.replica id env = .ok r) : r.Hushed := by
  unfold replica at h
  cases hc : create id c.name c.sandbox c.module c.digest env with
  | error e => simp [hc, Except.map] at h
  | ok d =>
    simp only [hc, Except.map, Except.ok.injEq] at h
    subst h
    exact fun t ht => (announced_updateState ht c.state).trans (hushed_create hc t ht)

theorem hushed_scale (c : Container) (tries : List (Stamp × Surroundings)) :
    ∀ r ∈ (c.scale tries).2, r.Hushed :=
  forall_scale (fun _ _ _ h => hushed_replica h) (fun _ h => h.handled (.stopped _)) tries

end Container

/-! ## Pools -/

namespace Pool

/-- Nothing that was heard, or is about to be, is under a topic of managers. -/
structure Hushed (y : Pool) : Prop where
  heard : ∀ n ∈ y.heard, n.isOwn = false
  containers : y.All Container.Hushed

variable {y y' : Pool}

theorem Hushed.of_same (h : y.Hushed) (hheard : y'.heard = y.heard)
    (hc : y'.containers = y.containers) : y'.Hushed :=
  ⟨hheard ▸ h.heard, h.containers.of_same hc⟩

theorem Hushed.put (h : y.Hushed) {c : Container} (hc : c.Hushed) : (y.put c).Hushed := by
  refine ⟨?_, h.containers.put (Container.hushed_of_silent rfl)⟩
  intro n hn
  rcases List.mem_append.mp hn with hn | hn
  · exact h.heard n hn
  · exact hc.isOwn n hn

theorem Hushed.act {α : Type} (h : y.Hushed) {id : String} {f : Container → α × Container}
    (hf : ∀ c, Container.Handled c (f c).2) {a : α} (ha : y.act id f = some (a, y')) :
    y'.Hushed := by
  unfold Pool.act at ha
  split at ha
  · cases ha
  · rename_i c hc
    cases ha
    have hpassed : (y.pass (.micros 1)).Hushed := h.of_same rfl rfl
    exact hpassed.put ((h.containers id c hc).handled (hf c))

theorem Hushed.report (h : y.Hushed) (fuel till : Nat) : (report fuel till y).Hushed := by
  induction fuel generalizing y with
  | zero => exact h
  | succ fuel ih =>
    unfold Pool.report
    split
    · exact h
    · rename_i time id _
      have hclock : ({ y with clock := { y.clock with timers := max y.clock.timers time } } :
        Pool).Hushed := h.of_same rfl rfl
      dsimp only
      split
      · exact hclock
      · rename_i y' ha
        exact ih (hclock.act (fun c => .observed (c.observed_strike _)) ha)

theorem Hushed.sleep (h : y.Hushed) (d : Duration) : (y.sleep d).Hushed :=
  Hushed.of_same (h.report _ _) rfl rfl

theorem Hushed.create (h : y.Hushed) (name : String) (box : Guest.Sandbox)
    (module : Guest.Compiled) (digest : Option String) :
    (y.create none name box module digest).2.Hushed := by
  have hstamped : y.stamp.2.Hushed := h.of_same rfl rfl
  simp only [Pool.create]
  cases hc : Container.create (generateId name y.stamp.1) name box module digest
      y.stamp.2.surroundings with
  | error e => exact hstamped
  | ok c => exact Hushed.of_same (hstamped.put (Container.hushed_create hc)) rfl rfl

theorem Hushed.putAll (h : y.Hushed) {made : List Container} (hmade : ∀ r ∈ made, r.Hushed) :
    (made.foldl Pool.put y).Hushed :=
  List.foldlRecOn made _ h fun _ hy r hr => hy.put (hmade r hr)

theorem Hushed.scale (h : y.Hushed) {id : String} {n : Nat} {result : Except Error (List String)}
    (hs : y.scale id n = some (result, y')) : y'.Hushed := by
  obtain ⟨c, -, hmade⟩ := Option.bind_eq_some_iff.mp hs
  simp only [Option.some.injEq, Prod.mk.injEq] at hmade
  obtain ⟨-, rfl⟩ := hmade
  have hattempts : (attempts n y).2.Hushed := by
    rw [attempts_snd]
    exact h.of_same rfl rfl
  exact Hushed.of_same (hattempts.putAll (c.hushed_scale _)) rfl rfl

end Pool

/-! ## Managers -/

namespace Manager

open Event.Bus (entriesOf entriesOf_erase)

def ownHeard (m : Manager) : List Heard := m.heard.filter Heard.isOwn

/-- The same was heard of the topics of managers, and the same listeners are there for them. -/
structure Level (m m' : Manager) : Prop where
  heard : m'.ownHeard = m.ownHeard
  persistent : ∀ t ∈ Topic.ofManagers,
    entriesOf m'.bus.persistent t.name = entriesOf m.bus.persistent t.name
  once : ∀ t ∈ Topic.ofManagers, entriesOf m'.bus.once t.name = entriesOf m.bus.once t.name

/-- As far as the topics of managers go, these events were emitted and nothing else. -/
def Announces (m : Manager) (es : List Event) (m' : Manager) : Prop := (es.foldl emit m).Level m'

variable {m m' m'' : Manager} {es fs : List Event}

theorem Level.refl (m : Manager) : m.Level m := ⟨rfl, fun _ _ => rfl, fun _ _ => rfl⟩

theorem Level.trans (h : m.Level m') (k : m'.Level m'') : m.Level m'' :=
  ⟨k.heard.trans h.heard, fun t ht => (k.persistent t ht).trans (h.persistent t ht),
    fun t ht => (k.once t ht).trans (h.once t ht)⟩

/-- Whatever is done to a manager besides its bus does not matter. -/
theorem level_of_same (hbus : m'.bus = m.bus) (hheard : m'.heard = m.heard) : m.Level m' := by
  refine ⟨?_, fun t _ => by rw [hbus], fun t _ => by rw [hbus]⟩
  rw [ownHeard, hheard]
  rfl

theorem ownHeard_emit (m : Manager) (e : Event) :
    (m.emit e).ownHeard = m.ownHeard ++
      if e.isOwn then (m.bus.listeners e.kind).map fun x => .event x.listener e else [] := by
  unfold ownHeard emit Event.Bus.take
  rw [List.filter_append]
  congr 1
  split
  · rename_i hown
    refine List.filter_eq_self.mpr ?_
    intro x hx
    obtain ⟨l, -, rfl⟩ := List.mem_map.mp hx
    exact hown
  · rename_i hother
    refine List.filter_eq_nil_iff.mpr ?_
    intro x hx
    obtain ⟨l, -, rfl⟩ := List.mem_map.mp hx
    exact hother

/-- Managers that are level stay so when they emit the same. -/
theorem Level.emit (h : m.Level m') (e : Event) : (m.emit e).Level (m'.emit e) := by
  refine ⟨?_, h.persistent, ?_⟩
  · rw [ownHeard_emit, ownHeard_emit, h.heard]
    by_cases hown : e.isOwn = true
    · -- the event is under a topic for which both have the same listeners
      obtain ⟨t, ht, hkind⟩ := List.any_eq_true.mp hown
      have hkind : e.kind = t.name := eq_of_beq hkind
      rw [if_pos hown, if_pos hown, Event.Bus.listeners, Event.Bus.listeners, hkind, h.persistent t ht,
        h.once t ht]
    · rw [if_neg hown, if_neg hown]
  · intro t ht
    show entriesOf (m'.bus.once.erase e.kind) t.name = entriesOf (m.bus.once.erase e.kind) t.name
    rw [entriesOf_erase, entriesOf_erase, h.once t ht]

theorem Level.emitAll (h : m.Level m') (es : List Event) :
    (es.foldl Manager.emit m).Level (es.foldl Manager.emit m') := by
  induction es generalizing m m' with
  | nil => exact h
  | cons e es ih => exact ih (h.emit e)

/-- An event under another topic is as good as none. -/
theorem level_emit {e : Event} (he : e.isOwn = false) (m : Manager) : m.Level (m.emit e) := by
  refine ⟨?_, fun _ _ => rfl, ?_⟩
  · rw [ownHeard_emit, he]
    exact List.append_nil _
  · intro t ht
    have hne : e.kind ≠ t.name := by
      intro heq
      have hown : e.isOwn = true := List.any_eq_true.mpr ⟨t, ht, by simp [heq]⟩
      rw [he] at hown
      cases hown
    show entriesOf (m.bus.once.erase e.kind) t.name = _
    rw [entriesOf_erase, if_neg hne]

theorem level_passOn {n : Notice} (hn : n.isOwn = false) (m : Manager) : m.Level (m.passOn n) := by
  cases n with
  | event e => exact level_emit hn m
  | delivered tag state =>
    refine ⟨?_, fun _ _ => rfl, fun _ _ => rfl⟩
    show (m.heard ++ [Heard.delivered tag state]).filter Heard.isOwn = m.heard.filter Heard.isOwn
    rw [List.filter_append]
    exact List.append_nil _

/-! ## Announcements one after the other -/

theorem Level.announces (h : m.Level m') : m.Announces [] m' := h

theorem Announces.trans (h : m.Announces es m') (k : m'.Announces fs m'') :
    m.Announces (es ++ fs) m'' := by
  unfold Announces
  rw [List.foldl_append]
  exact (Level.emitAll h fs).trans k

theorem announces_emit (m : Manager) (e : Event) : m.Announces [e] (m.emit e) := Level.refl _

theorem Level.before (h : m.Level m') (k : m'.Announces es m'') : m.Announces es m'' :=
  h.announces.trans k

theorem Announces.level (h : m.Announces es m') (k : m'.Level m'') : m.Announces es m'' :=
  Level.trans h k

theorem level_withPool {y : Pool} (h : y.Hushed) (m : Manager) : m.Level (m.withPool y) := by
  have hall (l : List Notice) (hl : ∀ n ∈ l, n.isOwn = false) (m : Manager) :
      m.Level (l.foldl passOn m) := by
    refine List.foldlRecOn l _ (Level.refl m) ?_
    intro m' hm' n hn
    exact hm'.trans (level_passOn (hl n hn) m')
  have hyard : m.Level { m with pool := y.takeHeard.2 } := level_of_same rfl rfl
  exact hyard.trans (hall y.heard h.heard _)

/-! ## Parts of operations -/

theorem Quiet.hushed (h : m.Quiet) : m.pool.Hushed where
  heard := by
    rw [h.heard]
    simp
  containers := fun id c hc => Container.hushed_of_silent (h.outboxes id c hc)

namespace Quiet

variable (h : m.Quiet)

include h

theorem level_act {α : Type} (id : String) (default : α) {f : Container → α × Container}
    (hf : ∀ c, Container.Handled c (f c).2) : m.Level (m.act id default f).2 := by
  unfold Manager.act
  split
  · rename_i ha
    exact level_withPool (h.hushed.act hf ha) m
  · exact Level.refl m

theorem level_watchOver (id : String) : m.Level (m.watchOver id) := by
  unfold Manager.watchOver
  split
  · split
    · rename_i ha
      exact level_withPool
        (h.hushed.act (fun c => .observed (c.observed_startTicker _ _)) ha) m
    · exact Level.refl m
  · exact Level.refl m

theorem level_sleep (d : Duration) : m.Level (m.sleep d) := level_withPool (h.hushed.sleep d) m

theorem level_register (r : Reservation) (ids : List String) : m.Level (m.register r ids) := by
  have hwatched : m.Level (ids.foldl Manager.watchOver m) ∧
      (ids.foldl Manager.watchOver m).Quiet := by
    refine List.foldlRecOn (motive := fun m' : Manager => m.Level m' ∧ m'.Quiet) ids _
      ⟨Level.refl m, h⟩ ?_
    rintro m' ⟨hlevel, hquiet⟩ id -
    exact ⟨hlevel.trans (hquiet.level_watchOver id), hquiet.watchOver id⟩
  exact hwatched.1.trans (level_of_same rfl rfl)

end Quiet

/-! ## Operations -/

/-- An announcement about a container. -/
def eventFor (t : Topic) (id : String) (more : List (String × Json.Value)) : Event :=
  ⟨t.name, some id, .obj (("containerId", .str id) :: more)⟩

/-- What a manager announces when it has scaled a container. -/
def scaledEvents (id : String) (n : Nat) (ids : List String) : List Event :=
  ids.map (fun x => eventFor .replicaCreated id [("replicaId", .str x)]) ++
    [eventFor .scaled id [("replicas", .nat n), ("replicaIds", .arr (ids.map .str))]]

theorem announceScaled_eq (m : Manager) (id : String) (n : Nat) (ids : List String) :
    m.announceScaled id n ids = (scaledEvents id n ids).foldl emit m := by
  unfold announceScaled scaledEvents
  rw [List.foldl_append, List.foldl_map]
  rfl

theorem announces_announceFor (m : Manager) (t : Topic) (id : String)
    (more : List (String × Json.Value)) :
    m.Announces [eventFor t id more] (m.announceFor t id more) := announces_emit m _

theorem level_beginScale (m : Manager) (id : String) (n : Nat) : m.Level (m.beginScale id n).2 := by
  unfold Manager.beginScale
  split
  · exact Level.refl m
  · split
    · exact Level.refl m
    · exact level_of_same rfl rfl

namespace Quiet

variable (h : m.Quiet)

include h

theorem announces_remove (id : String) :
    m.Announces [eventFor .containerRemoved id []] (m.remove id) := by
  have hhalted : m.Level { m.halt id with slots := (m.halt id).slots.remove id } :=
    (h.level_act id () fun c => .stopped c).trans (level_of_same rfl rfl)
  exact hhalted.before (announces_announceFor _ _ _ _)

theorem announces_afterRestart (id : String) (r : Except Error Unit) :
    m.Announces (match r with
      | .ok () => [eventFor .containerRestarted id []]
      | .error _ => []) (m.afterRestart id r) := by
  cases r with
  | error e => exact Level.refl m
  | ok u => exact (h.level_watchOver id).before (announces_announceFor _ _ _ _)

theorem announces_endRestart (id : String) (snapshot : State) :
    m.Announces (match (m.endRestart id snapshot).1 with
      | .ok () => [eventFor .containerRestarted id []]
      | .error _ => []) (m.endRestart id snapshot).2 := by
  have hacted := h.level_act id (.error (.containerNotFound id))
    (f := fun c => c.endRestart snapshot m.pool.surroundings) fun c => .revived c ..
  have hquiet := h.act id (.error (.containerNotFound id)) fun c =>
    c.endRestart snapshot m.pool.surroundings
  simp only [Manager.endRestart]
  exact hacted.before (hquiet.announces_afterRestart id _)

theorem announces_putIn (id key : String) (module : CachedModule) :
    m.Announces (match (m.putIn id key module).1 with
      | .ok () => [eventFor .containerHotReloaded id [("moduleDigest", .str module.digest)]]
      | .error _ => []) (m.putIn id key module).2 := by
  have hacted := h.level_act id (.ok ())
    (f := fun c => c.hotReload module.module (some module.digest) m.pool.surroundings)
    fun c => .reloaded c ..
  simp only [Manager.putIn]
  generalize m.act id (.ok ()) (fun c =>
    c.hotReload module.module (some module.digest) m.pool.surroundings) = acted at hacted ⊢
  obtain ⟨e | u, m'⟩ := acted
  · exact hacted
  · have hkept : m.Level (m'.keep key module) := hacted.trans (level_of_same rfl rfl)
    exact hkept.before (announces_announceFor _ _ _ _)

theorem level_startContainer (r : Reservation) (name : String) (c : ContainerConfig)
    (module : CachedModule) : m.Level (m.startContainer r name c module).2 := by
  have hhushed := h.hushed.create name (m.sandbox c) module.module (some module.digest)
  have hsilent : (m.pool.create none name (m.sandbox c) module.module (some module.digest)).2.All
      fun c => c.outbox = [] := h.outboxes.create fun _ _ _ _ => rfl
  simp only [Manager.startContainer]
  generalize m.pool.create none name (m.sandbox c) module.module (some module.digest) = created
    at hhushed hsilent ⊢
  obtain ⟨e | id, y⟩ := created
  · exact (level_withPool hhushed m).trans (level_of_same rfl rfl)
  · -- that a container was created is announced under a topic of containers
    exact ((level_withPool hhushed m).trans
      ((quiet_withPool m hsilent).level_register r [id])).trans
        (level_emit (Event.isOwn_of_notMem (by decide) _ _) _)

theorem level_resolve (r : Reservation) (name : String) (c : ContainerConfig) :
    m.Level (m.resolve r name c).2 := by
  unfold Manager.resolve
  split
  · exact level_of_same rfl rfl
  · generalize m.cache.lookup (ModuleCache.key name c) = looked
    obtain ⟨_ | module, cache⟩ := looked
    · dsimp only [Manager.fetch]
      split
      · split <;> exact level_of_same rfl rfl
      · exact level_of_same rfl rfl
    · have hlooked : ({ m with cache := cache } : Manager).Quiet := h.of_pool rfl
      have hlevel : m.Level { m with cache := cache } := level_of_same rfl rfl
      exact hlevel.trans (hlooked.level_startContainer r name c module)

theorem level_beginRun (name : String) (c : ContainerConfig) :
    m.Level (m.beginRun name c).2 := by
  unfold Manager.beginRun
  split
  · exact Level.refl m
  · rename_i r slots _
    have hreserved : ({ m with slots := slots } : Manager).Quiet := h.of_pool rfl
    have hlevel : m.Level { m with slots := slots } := level_of_same rfl rfl
    exact hlevel.trans (hreserved.level_resolve r name c)

theorem level_endRun (p : RunProgress) : m.Level (m.endRun p).2 := by
  cases p with
  | ended result => exact Level.refl m
  | waiting r name c bytes =>
    simp only [Manager.endRun]
    split
    · exact level_of_same rfl rfl
    · rename_i module _
      have hkept : (m.keep (ModuleCache.key name c) module).Quiet := h.of_pool rfl
      have hlevel : m.Level (m.keep (ModuleCache.key name c) module) := level_of_same rfl rfl
      exact hlevel.trans (hkept.level_startContainer r name c module)

theorem announces_endScale (r : Reservation) (id : String) (n : Nat) :
    m.Announces (match (m.endScale r id n).1 with
      | .ok ids => scaledEvents id n ids
      | .error _ => []) (m.endScale r id n).2 := by
  unfold Manager.endScale
  cases hs : m.pool.scale id n with
  | none => exact Level.announces (level_of_same rfl rfl)
  | some p =>
    obtain ⟨result, y⟩ := p
    have hlevel := level_withPool (h.hushed.scale hs) m
    have hsilent : y.All fun c => c.outbox = [] := h.outboxes.scale hs fun _ _ _ _ _ => rfl
    cases result with
    | error e => exact hlevel.trans (level_of_same rfl rfl)
    | ok ids =>
      dsimp only
      rw [announceScaled_eq]
      exact (hlevel.trans ((quiet_withPool m hsilent).level_register r ids)).before (Level.refl _)

end Quiet
end Manager
end ContainerHost
