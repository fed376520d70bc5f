import ContainerHost.Proofs.Manager.Capacity
import ContainerHost.Proofs.Manager.Upkeep
/-!
# Between operations

Containers leave what they announce in an outbox, and the pool hears it from there. Whatever a manager
does with its pool, it passes on all that was heard before anything else comes between. A manager is
therefore `Quiet` whenever it is looked at: no outbox holds anything, and nothing is left to be heard.

What is proved: each manager that operations lead to, however they interleave, is quiet, has a sound
pool, and has taken no more slots than its limit (`Reached.settled`), and so it is after anything
that is done to one of its containers (`Settled.act`).
-/

namespace ContainerHost

theorem Pool.keeps_outboxes : Keeps (fun _ _ => True) (All fun c => c.outbox = []) :=
  keeps_all fun _ _ _ _ => rfl

namespace Manager

/-- All that was announced has been passed on. -/
structure Quiet (m : Manager) : Prop where
  heard : m.pool.heard = []
  outboxes : m.pool.All fun c => c.outbox = []

variable {m m' : Manager}

theorem Quiet.of_pool (h : m.Quiet) (hy : m'.pool = m.pool) : m'.Quiet :=
  ⟨hy ▸ h.heard, hy ▸ h.outboxes⟩

theorem pool_withPool (m : Manager) (y : Pool) : (m.withPool y).pool = { y with heard := [] } :=
  (passOn_frame y.heard _).2

/-- A pool in which nothing was heard only takes the place of the old one. -/
theorem withPool_of_silent (m : Manager) {y : Pool} (h : y.heard = []) :
    m.withPool y = { m with pool := y } := by
  have hsame : ({ y with heard := [] } : Pool) = y := by
    rw [← h]
  unfold withPool Pool.takeHeard
  rw [h, hsame]
  rfl

theorem quiet_withPool (m : Manager) {y : Pool} (h : y.All fun c => c.outbox = []) :
    (m.withPool y).Quiet := by
  refine ⟨?_, Pool.keeps_outboxes.withPool m h⟩
  rw [pool_withPool]

namespace Quiet

/-! ## Single containers -/

theorem act {α : Type} (h : m.Quiet) (id : String) (default : α) (f : Container → α × Container) :
    (m.act id default f).2.Quiet := by
  unfold Manager.act
  split
  · rename_i ha
    exact quiet_withPool m (Pool.keeps_outboxes.act h.outboxes (fun _ _ => trivial) ha)
  · exact h

theorem watchOver (h : m.Quiet) (id : String) : (m.watchOver id).Quiet := by
  unfold Manager.watchOver
  split
  · split
    · rename_i ha
      exact quiet_withPool m (Pool.keeps_outboxes.act h.outboxes (fun _ _ => trivial) ha)
    · exact h
  · exact h

theorem sleep (h : m.Quiet) (d : Duration) : (m.sleep d).Quiet :=
  quiet_withPool m ((Pool.keeps_outboxes.mono fun _ _ _ => trivial).sleep h.outboxes d)

theorem remove (h : m.Quiet) (id : String) : (m.remove id).Quiet :=
  Quiet.of_pool (h.act id () fun c => ((), c.stop)) rfl

theorem afterRestart (h : m.Quiet) (id : String) (r : Except Error Unit) :
    (m.afterRestart id r).Quiet := by
  cases r with
  | error e => exact h
  | ok u => exact Quiet.of_pool (h.watchOver id) rfl

theorem endRestart (h : m.Quiet) (id : String) (snapshot : State) :
    (m.endRestart id snapshot).2.Quiet := by
  have hacted := h.act id (.error (.containerNotFound id)) fun c =>
    c.endRestart snapshot m.pool.surroundings
  simp only [Manager.endRestart]
  exact hacted.afterRestart id _

theorem putIn (h : m.Quiet) (id key : String) (module : CachedModule) :
    (m.putIn id key module).2.Quiet := by
  have hacted := h.act id (.ok ()) fun c =>
    c.hotReload module.module (some module.digest) m.pool.surroundings
  simp only [Manager.putIn]
  generalize m.act id (.ok ()) (fun c =>
    c.hotReload module.module (some module.digest) m.pool.surroundings) = acted at hacted ⊢
  obtain ⟨e | u, m'⟩ := acted
  · exact hacted
  · exact hacted.of_pool rfl

theorem fetchAndCompile (h : m.Quiet) (name : String) : (m.fetchAndCompile name).2.Quiet := by
  simp only [Manager.fetchAndCompile, Manager.fetch]
  split
  · exact h.of_pool rfl
  · exact h.of_pool rfl

/-! ## New containers -/

theorem register (h : m.Quiet) (r : Reservation) (ids : List String) :
    (m.register r ids).Quiet := by
  have hwatched : (ids.foldl Manager.watchOver m).Quiet :=
    ids.foldlRecOn Manager.watchOver h fun _ h id _ => h.watchOver id
  exact hwatched.of_pool rfl

theorem startContainer (h : m.Quiet) (r : Reservation) (name : String) (c : ContainerConfig)
    (module : CachedModule) : (m.startContainer r name c module).2.Quiet := by
  have hmade : (m.pool.create none name (m.sandbox c) module.module (some module.digest)).2.All
      fun c => c.outbox = [] := h.outboxes.create fun _ _ _ _ => rfl
  simp only [Manager.startContainer]
  generalize m.pool.create none name (m.sandbox c) module.module (some module.digest) = created
    at hmade ⊢
  obtain ⟨e | id, y⟩ := created
  · exact Quiet.of_pool (quiet_withPool m hmade) rfl
  · exact Quiet.of_pool ((quiet_withPool m hmade).register r [id]) rfl

theorem beginRun (h : m.Quiet) (name : String) (c : ContainerConfig) :
    (m.beginRun name c).2.Quiet := by
  unfold Manager.beginRun
  split
  · exact h
  · rename_i r slots _
    unfold resolve
    split
    · exact h.of_pool rfl
    · generalize m.cache.lookup (ModuleCache.key name c) = looked
      obtain ⟨found | module, cache⟩ := looked
      · dsimp only [Manager.fetch]
        split
        · split
          · exact h.of_pool rfl
          · exact h.of_pool rfl
        · exact h.of_pool rfl
      · have hfound : ({ m with slots := slots, cache := cache } : Manager).Quiet := h.of_pool rfl
        exact hfound.startContainer r name c module

theorem endRun (h : m.Quiet) (p : RunProgress) : (m.endRun p).2.Quiet := by
  cases p with
  | ended result => exact h
  | waiting r name c bytes =>
    simp only [Manager.endRun]
    split
    · exact h.of_pool rfl
    · rename_i module _
      have hkept : (m.keep (ModuleCache.key name c) module).Quiet := h.of_pool rfl
      exact hkept.startContainer r name c module

theorem endScale (h : m.Quiet) (r : Reservation) (id : String) (n : Nat) :
    (m.endScale r id n).2.Quiet := by
  unfold Manager.endScale
  split
  · exact h.of_pool rfl
  · rename_i result y hs
    have hmade : y.All fun c => c.outbox = [] := h.outboxes.scale hs fun _ _ _ _ _ => rfl
    have hheard := quiet_withPool m hmade
    cases result with
    | error e => exact hheard.of_pool rfl
    | ok ids =>
      have hregistered := hheard.register r ids
      refine Quiet.of_pool (m := (m.withPool y).register r ids) hregistered ?_
      exact Pool.Keeps.announceScaled (Q := fun z => z = ((m.withPool y).register r ids).pool) rfl
        id n ids

/-! ## Managers that were opened -/

theorem of_opened {config : ManagerConfig} {host : Guest.Host} {source : Source}
    {deployer : Deployer} {network : Http.Network} {outside : Outside}
    (h : Manager.opened config host source deployer network outside = .ok m) : m.Quiet := by
  unfold Manager.opened at h
  cases hvalid : config.validate with
  | error e => simp [hvalid, Except.map] at h
  | ok u =>
    simp only [hvalid, Except.map, Except.ok.injEq] at h
    subst h
    exact ⟨rfl, Pool.all_opened _ outside⟩

end Quiet
end Manager

/-! ## Moves -/

namespace ConcurrentManager

variable {t : ConcurrentManager} {ticket : Nat}

theorem quiet_find (h : t.manager.Quiet) (ticket : Nat) (id : String) (task : Container → Task) :
    (t.find ticket id task).manager.Quiet := by
  unfold ConcurrentManager.find
  split
  · exact h
  · exact h

theorem quiet_ask (h : t.manager.Quiet) (q : Request) : (t.ask q).manager.Quiet := by
  cases q with
  | run name config =>
    have hbegun := h.beginRun name config
    simp only [ask]
    generalize t.manager.beginRun name config = begun at hbegun ⊢
    obtain ⟨result | ⟨r, name, config, bytes⟩, m⟩ := begun
    · exact hbegun
    · exact hbegun
  | scale id n =>
    simp only [ask, Manager.beginScale]
    cases t.manager.lookup id with
    | error e => exact h
    | ok c =>
      dsimp only
      cases t.manager.slots.reserve n with
      | error e => exact h
      | ok p => exact h.of_pool rfl
  | stop id => exact quiet_find (t := { t with tickets := t.tickets + 1 }) h ..
  | restart id => exact quiet_find (t := { t with tickets := t.tickets + 1 }) h ..
  | hotReload id => exact quiet_find (t := { t with tickets := t.tickets + 1 }) h ..
  | restartAll => exact h
  | cleanup => exact h.of_pool rfl

theorem quiet_proceed (h : t.manager.Quiet) (ticket : Nat) (task : Task) :
    (t.proceed ticket task).manager.Quiet := by
  cases task with
  | run r name config bytes => exact h.endRun (.waiting r name config bytes)
  | scale r id n =>
    rw [proceed, manager_scaled]
    exact h.endScale r id n
  | stop id => exact h.remove id
  | restart id => exact h.act id .empty Container.beginRestart
  | rest id snapshot => exact h.endRestart id snapshot
  | fetch id name key =>
    have hfetched := h.fetchAndCompile name
    simp only [proceed]
    generalize t.manager.fetchAndCompile name = fetched at hfetched ⊢
    obtain ⟨e | module, m⟩ := fetched
    · exact hfetched
    · exact hfetched
  | reload id key module => exact h.putIn id key module
  | sweep id => exact h.act id () fun c => ((), c.stop)
  | gather parts cleans =>
    cases cleans with
    | false => exact h.of_pool rfl
    | true => exact h.of_pool rfl

theorem quiet_go (h : t.manager.Quiet) (i : Nat) : (t.go i).manager.Quiet := by
  unfold go
  split
  · exact h
  · split
    · exact quiet_proceed (t := { t with tasks := t.tasks.eraseIdx i }) h ..
    · exact h

theorem quiet_abandon (h : t.manager.Quiet) (i : Nat) : (t.abandon i).manager.Quiet := by
  unfold abandon
  split
  · exact h
  · exact h.of_pool rfl

theorem quiet_move (h : t.manager.Quiet) (x : Move) : (t.move x).manager.Quiet := by
  cases x with
  | ask q => exact quiet_ask h q
  | go i => exact quiet_go h i
  | abandon i => exact quiet_abandon h i
  | interact id x => exact h.act id () fun c => ((), c.interact t.manager.pool.clock.wall x)
  | observe event who => exact h.of_pool rfl
  | sleep d => exact h.sleep d
  | pass d => exact ⟨h.heard, h.outboxes⟩
  | surround source network outside => exact ⟨h.heard, h.outboxes⟩

theorem quiet_run (h : t.manager.Quiet) (xs : List Move) : (t.run xs).manager.Quiet :=
  run_induction (P := fun t => t.manager.Quiet) (fun _ x h => quiet_move h x) h xs

end ConcurrentManager

/-! ## Managers that are reached -/

/-- What is true of a manager between the steps of operations, whichever are under way
(`ConcurrentManager.Reached.settled`). -/
structure Manager.Settled (m : Manager) : Prop where
  quiet : m.Quiet
  sound : m.pool.Sound
  within : m.slots.occupied ≤ m.slots.limit
  registered : ∀ id, m.slots.holds id = true → (m.pool.get? id).isSome

theorem Manager.Settled.labelled {m : Manager} (h : m.Settled) : m.pool.Labelled := h.sound.named

theorem Manager.Settled.withNetwork {m : Manager} (h : m.Settled) (network : Http.Network) :
    ({ m with network := network } : Manager).Settled :=
  ⟨h.quiet.of_pool rfl, h.sound, h.within, h.registered⟩

/-- Containers that are there stay. -/
theorem Pool.keeps_present (R : Container → Container → Prop) (P : String → Prop) :
    Keeps R fun y => ∀ id, P id → (y.get? id).isSome where
  same := by
    intro y y' h hc _ id hid
    rw [get?_of_same hc]
    exact h id hid
  put := by
    intro y _ _ d h _ _ id hid
    rw [get?_put]
    split
    · rfl
    · exact h id hid

/-- Whatever someone who has a container does with it, the manager is settled after that. -/
theorem Manager.Settled.act {m : Manager} (h : m.Settled) {α : Type} (id : String) (default : α)
    {f : Container → α × Container} (hf : ∀ c, (f c).2.id = c.id) :
    (m.act id default f).2.Settled := by
  refine ⟨h.quiet.act id default f, ?_, ?_, ?_⟩
  · have hshows : m.Shows m.slots m.pool.statusOf := ⟨rfl, h.sound, fun _ => rfl⟩
    cases hc : m.pool.statusOf id with
    | none =>
      have hact : m.pool.act id f = none := by
        unfold Pool.act
        rw [Option.map_eq_none_iff.mp hc]
      unfold Manager.act
      rw [hact]
      exact h.sound
    | some st =>
      have hin : (m.pool.statusOf id).isSome := by rw [hc]; rfl
      obtain ⟨c, -, hafter⟩ := hshows.act default hf hin
      exact hafter.pool.sound
  · rw [m.slots_act]
    exact h.within
  · rw [m.slots_act]
    exact (Pool.keeps_present (fun _ _ => True) (m.slots.holds · = true)).acted h.registered id
      default fun _ _ => trivial

namespace ConcurrentManager

/-- A manager that was opened with these settings, after some moves. -/
def Reached (config : ManagerConfig) (t : ConcurrentManager) : Prop :=
  ∃ host source deployer network outside m moves,
    Manager.opened config host source deployer network outside = .ok m ∧ t = (opened m).run moves

variable {config : ManagerConfig} {t : ConcurrentManager}

/-- A reservation of the manager goes by the limit in its settings. -/
theorem limit_of_books {limit : Nat} (h : t.Books limit) : t.manager.slots.limit = limit := by
  obtain ⟨l, hl, hbooked⟩ := h
  rw [← hbooked.slots]
  exact hl.limit_eq

theorem Reached.books (h : t.Reached config) : t.Books config.maxContainers := by
  obtain ⟨host, source, deployer, network, outside, m, moves, hm, rfl⟩ := h
  have hshows := shows_of_opened hm
  exact books_run (sane_of_opened rfl hshows []) (books_opened hshows.slots) moves

theorem Reached.limit (h : t.Reached config) : t.manager.slots.limit = config.maxContainers :=
  limit_of_books h.books

/-- Each id is registered once. -/
theorem nodup_ids_of_books {limit : Nat} (h : t.Books limit) : t.manager.slots.ids.Nodup := by
  obtain ⟨l, hl, hbooked⟩ := h
  rw [← hbooked.slots]
  exact Table.keys_nodup hl.ordered

theorem Reached.nodup_ids (h : t.Reached config) : t.manager.slots.ids.Nodup :=
  nodup_ids_of_books h.books

theorem settled_of_books {limit : Nat} (hs : t.Sane) (h : t.Books limit) (hq : t.manager.Quiet) :
    t.manager.Settled := by
  obtain ⟨slots, s, hagrees⟩ := hs
  refine ⟨hq, hagrees.shows.pool.sound, ?_, ?_⟩
  · rw [limit_of_books h]
    exact (within_of_books h).1
  · intro id hid
    rw [hagrees.shows.slots] at hid
    have hpresent := (hagrees.filed.registered id hid).1
    rw [← hagrees.shows.pool.status id, Pool.statusOf, Option.isSome_map] at hpresent
    exact hpresent

theorem Reached.settled (h : t.Reached config) : t.manager.Settled := by
  have hbooks := h.books
  obtain ⟨host, source, deployer, network, outside, m, moves, hm, rfl⟩ := h
  exact settled_of_books (sane_of_opened rfl (shows_of_opened hm) moves) hbooks
    (quiet_run (Manager.Quiet.of_opened hm) moves)

end ConcurrentManager
end ContainerHost
