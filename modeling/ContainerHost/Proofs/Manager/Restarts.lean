import ContainerHost.Proofs.Container.Subscribers
import ContainerHost.Proofs.Manager.Handles
import ContainerHost.Proofs.Manager.Removals
import Mathlib.Data.List.Nodup
/-!
# Restarts

A restart stops a container, lets it rest, and makes it come up with a new guest, or fail to. What
comes of it depends on the container and on what surrounds it when it comes up, and on nothing else
(`endRestart_stopped`). Each half is done to one container and leaves the others and the registry
aside (`beginRestart_spec`, `endRestart_ends`).

When all containers are restarted at the same time, the restart of each is in a `RestartPhase`, which
says what there is of the container. `AllRestarted` is how such an operation ends.

Correspondence: `Container.restartIn` ↔ what `ContainerInstance::restart` returns;
`Manager.restartSummary` ↔ `BulkSummary::from_results`; `restartedEvents`, `restartAllEvent` ↔ what
`ContainerManager::restart` and `ContainerManager::restart_all` emit.
-/

namespace ContainerHost

/-- The host is short of nothing for a guest that was made. -/
theorem Guest.Sandbox.shortage_of_instantiate {b : Sandbox} {env : Surroundings} {c : Compiled}
    {id : String} {g : Instance} (h : b.instantiate env c id = .ok g) :
    env.outside.shortage id env.now = none := by
  unfold instantiate at h
  split at h
  · cases h
  · split at h
    · cases h
    · split at h
      · cases h
      · split at h
        · cases h
        · split at h
          · cases h
          · assumption

namespace Container

variable {c d e : Container} {env : Surroundings}

def restartIn (c : Container) (env : Surroundings) : Except Error Unit :=
  match c.sandbox.instantiate env c.module c.id with
  | .ok _ => .ok ()
  | .error e => .error (.restartFailed c.id e)

/-- The updates that subscribers answer a restart with. A container that was stopped before keeps its
subscribers, and any other has none by then. -/
def restartEchoes (c : Container) (env : Surroundings) : List State :=
  if (c.restartIn env).isOk then c.stop.echoes c.state else []

/-- `d` is `c` after a restart that ended in these surroundings: it runs with a new guest or is in
error, and has the state that it had with what subscribers answered. -/
structure RestartedIn (c : Container) (env : Surroundings) (d : Container) : Prop where
  alike : Alike { c with
    guest := (c.sandbox.instantiate env c.module c.id).toOption.or c.stop.guest } d
  status : d.status = if (c.restartIn env).isOk then .running else .error
  state : d.state = (c.restartEchoes env).foldl Table.merge c.state

/-- A restart of the container makes nobody update its state. -/
def Undisturbed (c : Container) : Prop := c.status ≠ .stopped ∨ c.Unanswered

theorem RestartedIn.state_eq (h : c.RestartedIn env d) (hc : c.Undisturbed) :
    d.state = c.state := by
  have hnone : c.stop.echoes c.state = [] := by
    by_cases hstopped : c.status = .stopped
    · have hsame : c.stop = c := if_pos hstopped
      rw [hsame]
      exact echoes_unanswered (hc.resolve_left fun hne => hne hstopped) _
    · exact echoes_of_nil (c.subscribers_stop.1.trans (if_neg hstopped)) _
  rw [h.state, restartEchoes, hnone, ite_self]
  rfl

theorem RestartedIn.aged (h : c.RestartedIn env d) (k : Aged d e) : c.RestartedIn env e := by
  refine ⟨h.alike.trans k.alike, ?_, ?_⟩
  · obtain ⟨_, _, _, _, rfl⟩ := k
    exact h.status
  · obtain ⟨_, _, _, _, rfl⟩ := k
    exact h.state

/-- Any container may fail to come up, whatever it is and whatever becomes of the others: the host
is short of something for it. -/
theorem restartIn_of_shortage {reason : String}
    (h : env.outside.shortage c.id env.now = some reason) : (c.restartIn env).isOk = false := by
  unfold restartIn
  split
  · rename_i g hg
    rw [Guest.Sandbox.shortage_of_instantiate hg] at h
    cases h
  · rfl

/-- What was done to a container while time passed is still so when it is stopped. -/
theorem Aged.stop (h : Aged c d) : Aged c.stop d.stop := by
  obtain ⟨peak, warned, ticker, outbox, rfl⟩ := h
  unfold Container.stop
  split
  · exact ⟨peak, warned, ticker, outbox, rfl⟩
  · exact ⟨peak, warned, none, _, rfl⟩

theorem revive_of_error {err : Error}
    (h : c.sandbox.instantiate env c.module c.id = .error err) (snapshot : State) :
    c.revive snapshot env = (.error (.restartFailed c.id err), c.setStatus .error) := by
  unfold revive start boot
  rw [h]
  rfl

/-- A container that comes up has a new guest and no state until the snapshot is put back. -/
theorem revive_of_ok {g : Guest.Instance}
    (h : c.sandbox.instantiate env c.module c.id = .ok g) (snapshot : State) :
    ∃ booted : Container, c.revive snapshot env = (.ok (), (booted.updateState snapshot).announce
        .containerRestart [("restoredState", snapshot.toJson)]) ∧
      Alike { c with guest := some g } booted ∧ booted.status = .running ∧
      booted.state = .empty ∧ booted.subscribers = c.subscribers := by
  unfold revive start boot
  rw [h]
  exact ⟨_, rfl, ⟨rfl, rfl, rfl, rfl, rfl, rfl⟩, rfl, rfl, rfl⟩

/-- `r` is `c` after it was stopped and has rested: it is about to come up. -/
structure AboutToStart (c r : Container) : Prop where
  alike : Alike { c with guest := c.stop.guest } r
  state : r.state = c.state
  subscribers : r.subscribers = c.stop.subscribers

theorem aboutToStart_of_aged (he : Aged c.stop e) : c.AboutToStart (e.setStatus .starting) := by
  obtain ⟨_, _, _, _, rfl⟩ := he
  have hsame := c.sameModule_stop
  exact ⟨⟨hsame.id, hsame.name, hsame.sandbox, hsame.module, hsame.digest, rfl⟩, c.state_stop, rfl⟩

/-- A container that does not come up keeps the state that it had. -/
theorem AboutToStart.failed {r : Container} (h : c.AboutToStart r) {err : Error}
    (hmade : c.sandbox.instantiate env c.module c.id = .error err) :
    c.RestartedIn env (r.setStatus .error) := by
  have hfailed : c.restartIn env = .error (.restartFailed c.id err) := by
    rw [restartIn, hmade]
  refine ⟨?_, ?_, ?_⟩
  · rw [hmade]
    exact h.alike.trans (r.alike_setStatus .error)
  · rw [hfailed]
    rfl
  · rw [restartEchoes, hfailed]
    exact h.state

/-- A container that has come up is given its state back, and its subscribers answer. -/
theorem AboutToStart.worked {r booted : Container} (h : c.AboutToStart r) {g : Guest.Instance}
    (hmade : c.sandbox.instantiate env c.module c.id = .ok g) (ho : c.state.Ordered)
    (hbooted : Alike { r with guest := some g } booted) (hrunning : booted.status = .running)
    (hempty : booted.state = .empty) (hsubscribers : booted.subscribers = r.subscribers) :
    c.RestartedIn env ((booted.updateState c.state).announce .containerRestart
      [("restoredState", c.state.toJson)]) := by
  have hworked : c.restartIn env = .ok () := by
    rw [restartIn, hmade]
  have hupdated := booted.updated_updateState c.state
  refine ⟨?_, ?_, ?_⟩
  · rw [hmade]
    have hguest : Alike { c with guest := some g } booted :=
      ⟨hbooted.id.trans h.alike.id, hbooted.name.trans h.alike.name,
        hbooted.sandbox.trans h.alike.sandbox, hbooted.module.trans h.alike.module,
        hbooted.digest.trans h.alike.digest, hbooted.guest⟩
    exact (hguest.trans (alike_of_updated hupdated)).trans (Container.alike_announce ..)
  · obtain ⟨_, _, _, hsame, -⟩ := hupdated
    rw [hworked]
    show (booted.updateState c.state).status = .running
    rw [hsame]
    exact hrunning
  · show (booted.updateState c.state).state = _
    rw [state_updateState, echoes_congr (hsubscribers.trans h.subscribers) _ c.state, hempty,
      Table.empty_merge ho, restartEchoes, hworked]
    rfl

/-- A container that was stopped, and has rested, comes up or fails to by its module and what
surrounds it alone. -/
theorem endRestart_stopped (ho : c.state.Ordered) (he : Aged c.stop e) (env : Surroundings) :
    (e.endRestart c.state env).1 = c.restartIn env ∧
      c.RestartedIn env (e.endRestart c.state env).2 := by
  have hstarts := aboutToStart_of_aged he
  unfold endRestart
  generalize e.setStatus .starting = rested at hstarts ⊢
  have hsame : rested.sandbox.instantiate env rested.module rested.id =
      c.sandbox.instantiate env c.module c.id := by
    rw [hstarts.alike.sandbox, hstarts.alike.module, hstarts.alike.id]
  cases hmade : c.sandbox.instantiate env c.module c.id with
  | error err =>
    rw [revive_of_error (hsame.trans hmade)]
    refine ⟨?_, hstarts.failed hmade⟩
    rw [restartIn, hmade, hstarts.alike.id]
  | ok g =>
    obtain ⟨booted, hrevive, hbooted, hrunning, hempty, hsubscribers⟩ :=
      revive_of_ok (hsame.trans hmade) c.state
    rw [hrevive]
    refine ⟨?_, hstarts.worked hmade ho hbooted hrunning hempty hsubscribers⟩
    rw [restartIn, hmade]

end Container

theorem BulkSummary.ofResults_eq {α : Type} (rs : List (Except Error α)) :
    ofResults rs = ⟨rs.length, (rs.filter Except.isOk).length,
      rs.length - (rs.filter Except.isOk).length⟩ := by
  unfold ofResults
  dsimp only
  rw [List.filter_congr (q := Except.isOk) fun r _ => by cases r <;> rfl]

/-! ## One restart -/

namespace Pool

variable {y y' y'' : Pool} {id : String} {c : Container}

theorem keeps_outside (outside : Outside) :
    Keeps (fun _ _ => True) fun y : Pool => y.outside = outside where
  same := fun h _ hsame => hsame.trans h
  put := fun h _ _ => h

/-- `y'` is `y` after something was done with one container, which left the others aside. -/
structure Aside (y : Pool) (id : String) (y' : Pool) : Prop where
  outside : y'.outside = y.outside
  labelled : y'.Labelled
  others : ∀ x, x ≠ id → y'.get? x = y.get? x

/-- What is done with a container of the pool. -/
theorem act_there (h : y.Labelled) {α : Type} {f : Container → α × Container}
    (hc : y.get? id = some c) (hf : (f c).2.id = c.id) :
    ∃ y', y.act id f = some ((f c).1, y') ∧ y.Aside id y' ∧
      y'.get? id = some { (f c).2 with outbox := [] } := by
  have hid : (f c).2.id = id := hf.trans (h id c hc)
  refine ⟨(y.pass (.micros 1)).put (f c).2, ?_, ⟨rfl, ?_, ?_⟩, ?_⟩
  · unfold act
    rw [hc]
  · have hpassed : (y.pass (.micros 1)).Labelled := h.of_same rfl
    exact hpassed.put _
  · intro x hx
    rw [get?_put, hid, if_neg hx.symm]
    rfl
  · rw [get?_put, if_pos hid]

end Pool

namespace Manager

variable {m m' m'' : Manager} {id : String} {c d : Container}

/-- `m'` is `m` after something was done with one container, which left the others and the registry
aside. -/
structure Aside (m : Manager) (id : String) (m' : Manager) : Prop where
  slots : m'.slots = m.slots
  pool : m.pool.Aside id m'.pool

theorem Aside.trans (h : m.Aside id m') (k : m'.Aside id m'') : m.Aside id m'' :=
  ⟨k.slots.trans h.slots, k.pool.outside.trans h.pool.outside, k.pool.labelled,
    fun x hx => (k.pool.others x hx).trans (h.pool.others x hx)⟩

theorem Aside.announceFor (h : m.Aside id m') (t : Topic) (more : List (String × Json.Value)) :
    m.Aside id (m'.announceFor t id more) := ⟨h.slots, h.pool⟩

theorem aside_watchOver (h : m.pool.Labelled) : m.Aside id (m.watchOver id) where
  slots := m.slots_watchOver id
  pool :=
    { outside := ((Pool.keeps_outside m.pool.outside).mono fun _ _ _ => trivial).watchOver rfl id
      labelled := (Pool.keeps_labelled _).watchOver h id
      others := fun _ hx => get?_pool_watchOver_of_ne h hx }

/-- What is done with a container of a manager. -/
theorem act_there (h : m.pool.Labelled) {α : Type} (default : α) {f : Container → α × Container}
    (hc : m.pool.get? id = some c) (hf : (f c).2.id = c.id) :
    (m.act id default f).1 = (f c).1 ∧ m.Aside id (m.act id default f).2 ∧
      (m.act id default f).2.pool.get? id = some { (f c).2 with outbox := [] } := by
  obtain ⟨y, hact, haside, hafter⟩ := Pool.act_there h hc hf
  have hslots := m.slots_act id default f
  unfold act at hslots ⊢
  rw [hact] at hslots ⊢
  dsimp only at hslots ⊢
  rw [pool_withPool]
  exact ⟨rfl,
    ⟨hslots, pool_withPool m y ▸ ⟨haside.outside, haside.labelled.of_same rfl, haside.others⟩⟩,
    hafter⟩

/-- The first half of a restart remembers the state and stops the container. -/
theorem beginRestart_spec (h : m.pool.Labelled) (hget : m.pool.get? id = some d) :
    (m.beginRestart id).1 = d.state ∧ m.Aside id (m.beginRestart id).2 ∧
      (m.beginRestart id).2.pool.get? id = some { d.stop with outbox := [] } :=
  act_there h (Table.empty : State) (f := Container.beginRestart) hget d.sameIdentity_stop.id

/-- The second half does to the container what a restart that ends does, and lets it report from then
on. -/
theorem endRestart_ends (h : m.pool.Labelled) (hget : m.pool.get? id = some d) (snapshot : State) :
    (m.endRestart id snapshot).1 = (d.endRestart snapshot m.pool.surroundings).1 ∧
      m.Aside id (m.endRestart id snapshot).2 ∧
      ∃ e, (m.endRestart id snapshot).2.pool.get? id = some e ∧
        (d.endRestart snapshot m.pool.surroundings).2.Aged e := by
  obtain ⟨hresult, haside, hafter⟩ := act_there h (.error (.containerNotFound id))
    (f := fun c => c.endRestart snapshot m.pool.surroundings) hget
    (d.sameModule_endRestart snapshot _).id
  simp only [endRestart]
  generalize m.act id (.error (.containerNotFound id)) (fun c =>
    c.endRestart snapshot m.pool.surroundings) = acted at hresult hafter haside ⊢
  generalize d.endRestart snapshot m.pool.surroundings = ended at hresult hafter ⊢
  obtain ⟨e | u, m'⟩ := acted
  · exact ⟨hresult, haside, _, hafter, Container.aged_cleared _⟩
  · have htracks := (Pool.keeps_aged m'.pool).watchOver
      (haside.pool.labelled.tracks Container.Aged.refl) id
    obtain ⟨e, he, haged⟩ := htracks.became id _ hafter
    exact ⟨hresult, (haside.trans (aside_watchOver haside.pool.labelled)).announceFor _ _, e, he,
      (Container.aged_cleared _).trans haged⟩

end Manager

/-! ## Phases -/

/-- How far the restart of a container has come. It ends in what surrounds the container then. -/
inductive RestartPhase where
  | waiting
  | resting
  | ended (env : Surroundings)

namespace RestartPhase

def answer? (c : Container) : RestartPhase → Option (Except Error Unit)
  | .waiting | .resting => none
  | .ended env => some (c.restartIn env)

def Holds (c d : Container) : RestartPhase → Prop
  | .waiting => c.Aged d
  | .resting => c.stop.Aged d
  | .ended env => c.RestartedIn env d

def Within (seen : Outside → Prop) : RestartPhase → Prop
  | .ended env => seen env.outside
  | _ => True

theorem Holds.aged {c d e : Container} {s : RestartPhase} (h : s.Holds c d) (k : d.Aged e) :
    s.Holds c e := by
  cases s with
  | waiting => exact Container.Aged.trans h k
  | resting => exact Container.Aged.trans h k
  | ended env => exact Container.RestartedIn.aged h k

end RestartPhase

/-! ## All restarts -/

namespace Manager

variable {m : Manager} {first : Nat} {p q : Nat × Container}

def partTickets (m : Manager) (first : Nat) : List Nat := List.range' first m.containers.length

def parts (m : Manager) (first : Nat) : List (Nat × Container) :=
  (m.partTickets first).zip m.containers

theorem mem_containers (h : m.Settled) {c : Container} :
    c ∈ m.containers ↔ m.get? c.id = some c := by
  unfold containers
  rw [List.mem_filterMap]
  constructor
  · rintro ⟨id, hid, hget⟩
    rw [h.sound.named id c hget]
    exact get?_of_holds (Slots.holds_iff.mpr hid) hget
  · intro hget
    obtain ⟨hholds, hyard⟩ := holds_of_get? hget
    exact ⟨c.id, Slots.holds_iff.mp hholds, hyard⟩

/-- The containers stand under the ids that are registered, in the same order. -/
theorem ids_containers (h : m.Settled) : m.containers.map (·.id) = m.slots.ids := by
  have hall (l : List String) (hl : ∀ id ∈ l, m.slots.holds id = true) :
      (l.filterMap m.pool.get?).map (·.id) = l := by
    induction l with
    | nil => rfl
    | cons id l ih =>
      obtain ⟨c, hc⟩ := Option.isSome_iff_exists.mp (h.registered id (hl id List.mem_cons_self))
      rw [List.filterMap_cons, hc, List.map_cons, h.sound.named id c hc,
        ih fun x hx => hl x (List.mem_cons_of_mem _ hx)]
  exact hall m.slots.ids fun id hid => Slots.holds_iff.mpr hid

theorem fst_parts (m : Manager) (first : Nat) : (m.parts first).map (·.1) = m.partTickets first :=
  List.map_fst_zip (by simp [partTickets])

theorem snd_parts (m : Manager) (first : Nat) : (m.parts first).map (·.2) = m.containers :=
  List.map_snd_zip (by simp [partTickets])

theorem mem_containers_of_part (hp : p ∈ m.parts first) : p.2 ∈ m.containers := by
  rw [← m.snd_parts first]
  exact List.mem_map_of_mem hp

theorem mem_partTickets (hp : p ∈ m.parts first) : p.1 ∈ m.partTickets first := by
  rw [← m.fst_parts]
  exact List.mem_map_of_mem hp

theorem nodup_partTickets (m : Manager) (first : Nat) : ((m.parts first).map (·.1)).Nodup := by
  rw [fst_parts]
  exact List.nodup_range'

theorem part_eq_of_ticket (hp : p ∈ m.parts first) (hq : q ∈ m.parts first) (h : p.1 = q.1) :
    p = q := List.inj_on_of_nodup_map (m.nodup_partTickets first) hp hq h

theorem part_eq_of_id (h : m.Settled) (hids : m.slots.ids.Nodup) (hp : p ∈ m.parts first)
    (hq : q ∈ m.parts first) (heq : p.2.id = q.2.id) : p = q := by
  have hnodup : ((m.parts first).map (·.2.id)).Nodup := by
    have hmap : (m.parts first).map (·.2.id) = ((m.parts first).map (·.2)).map (·.id) := by
      rw [List.map_map]
      rfl
    rw [hmap, snd_parts, ids_containers h]
    exact hids
  exact List.inj_on_of_nodup_map hnodup hp hq heq

theorem part_of_get? (h : m.Settled) {id : String} {c : Container} (hc : m.get? id = some c) :
    c.id = id ∧ ∃ k, (k, c) ∈ m.parts first := by
  have hid := h.sound.named id c (holds_of_get? hc).2
  have hmem : c ∈ (m.parts first).map (·.2) := by
    rw [m.snd_parts]
    exact (mem_containers h).mpr (hid.symm ▸ hc)
  obtain ⟨p, hp, rfl⟩ := List.mem_map.mp hmem
  exact ⟨hid, p.1, hp⟩

/-- If each restart has ended in some surroundings, there are such for each id. -/
theorem choose_parts (h : m.Settled) (hids : m.slots.ids.Nodup) {Q : Outside → Prop}
    (hQ : ∃ outside, Q outside) {P : Nat × Container → Surroundings → Prop}
    (hP : ∀ p ∈ m.parts first, ∃ env : Surroundings, Q env.outside ∧ P p env) :
    ∃ env : String → Surroundings, (∀ id, Q (env id).outside) ∧
      ∀ p ∈ m.parts first, P p (env p.2.id) := by
  have hone (id : String) : ∃ env : Surroundings, Q env.outside ∧
      ∀ p ∈ m.parts first, p.2.id = id → P p env := by
    by_cases hpart : ∃ p ∈ m.parts first, p.2.id = id
    · obtain ⟨p, hp, rfl⟩ := hpart
      obtain ⟨env, hs, hat⟩ := hP p hp
      refine ⟨env, hs, ?_⟩
      intro q hq heq
      rw [part_eq_of_id h hids hq hp heq]
      exact hat
    · obtain ⟨outside, hs⟩ := hQ
      exact ⟨⟨outside, 0⟩, hs, fun p hp heq => absurd ⟨p, hp, heq⟩ hpart⟩
  choose env hs hat using hone
  exact ⟨env, hs, fun p hp => hat p.2.id p hp rfl⟩

/-- The registered containers that come up in these surroundings. -/
def succeeding (m : Manager) (env : String → Surroundings) : List Container :=
  m.containers.filter fun c => (c.restartIn (env c.id)).isOk

/-- So many containers are registered, and so many of them come up. -/
def restartSummary (m : Manager) (env : String → Surroundings) : BulkSummary :=
  ⟨m.slots.ids.length, (m.succeeding env).length,
    m.slots.ids.length - (m.succeeding env).length⟩

theorem ofResults_restarts (h : m.Settled) (env : String → Surroundings) :
    BulkSummary.ofResults (m.containers.map fun c => c.restartIn (env c.id)) =
      m.restartSummary env := by
  rw [BulkSummary.ofResults_eq, List.filter_map, List.length_map, List.length_map, restartSummary,
    ← ids_containers h, List.length_map]
  rfl

theorem holds_of_get?_none (h : m.Settled) {id : String} (hc : m.get? id = none) :
    m.slots.holds id = false := by
  cases hin : m.slots.holds id with
  | false => rfl
  | true =>
    obtain ⟨c, hget⟩ := Option.isSome_iff_exists.mp (h.registered id hin)
    rw [get?_of_holds hin hget] at hc
    cases hc

theorem mem_succeeding (h : m.Settled) {env : String → Surroundings} {id : String} :
    id ∈ (m.succeeding env).map (·.id) ↔
      ∃ c, m.get? id = some c ∧ (c.restartIn (env id)).isOk = true := by
  unfold succeeding
  simp only [List.mem_map, List.mem_filter, mem_containers h]
  constructor
  · rintro ⟨c, ⟨hc, hok⟩, rfl⟩
    exact ⟨c, hc, hok⟩
  · rintro ⟨c, hc, hok⟩
    obtain rfl := h.sound.named id c (holds_of_get? hc).2
    exact ⟨c, ⟨hc, hok⟩, rfl⟩

/-- What can be relied on when all containers are restarted and nothing else is under way. -/
structure Restartable (m : Manager) : Prop where
  settled : m.Settled
  distinct : m.slots.ids.Nodup
  ordered : ∀ c ∈ m.containers, c.state.Ordered

theorem nodup_succeeding (h : m.Restartable) (env : String → Surroundings) :
    ((m.succeeding env).map (·.id)).Nodup := by
  have hids := h.distinct
  rw [← ids_containers h.settled] at hids
  exact hids.sublist (List.filter_sublist.map _)

/-- What is announced when restarts succeed. -/
def restartedEvents (ids : List String) : List Event :=
  ids.map fun id => eventFor .containerRestarted id []

/-- What is announced when all restarts have ended. -/
def restartAllEvent (summary : BulkSummary) : Event :=
  ⟨Topic.restartAll.name, none, .obj summary.members⟩

/-- How restarting all containers ends if they come up in these surroundings: each is registered as
before, runs or is in error as its own restart has ended, and has its state, unless a subscriber
updates it; the summary counts them, and each success and the summary are announced. -/
def AllRestarted (m : Manager) (env : String → Surroundings) : BulkSummary × Manager → Prop
  | (summary, m') => summary = m.restartSummary env ∧ m'.slots = m.slots ∧
    (∀ id c, m.get? id = some c → ∃ d, m'.get? id = some d ∧ c.RestartedIn (env id) d ∧
      (c.Undisturbed → d.state = c.state)) ∧
    ∃ order, order.Perm ((m.succeeding env).map (·.id)) ∧
      m.Announces (restartedEvents order ++ [restartAllEvent summary]) m'

end Manager

namespace ConcurrentManager

/-- The manager can be relied on when nothing is under way. -/
theorem Reachable.restartable {config : ManagerConfig} {t : ConcurrentManager}
    (h : t.Reachable config) :
    t.manager.Restartable := by
  refine ⟨h.settled, h.nodup_ids, ?_⟩
  intro c hc
  exact h.ordered c.id c (Manager.holds_of_get? ((Manager.mem_containers h.settled).mp hc)).2

end ConcurrentManager
end ContainerHost
