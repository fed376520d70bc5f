import ContainerHost.Proofs.Manager.ConcurrentManager
/-!
# What operations leave as it is

Whatever happens to a manager, its settings and the capacity of its cache stay, and ids of listeners
are only given out, never taken back (`Frames`).
-/

namespace ContainerHost

namespace Manager

/-- The settings and the capacity of the cache are the same, and no id of a listener was taken back.
-/
structure Frames (m m' : Manager) : Prop where
  config : m'.config = m.config
  capacity : m'.cache.capacity = m.cache.capacity
  nextId : m.bus.nextId ≤ m'.bus.nextId

variable {m m' m'' : Manager}

theorem Frames.refl (m : Manager) : m.Frames m := ⟨rfl, rfl, Nat.le_refl _⟩

theorem Frames.trans (h : m.Frames m') (k : m'.Frames m'') : m.Frames m'' :=
  ⟨k.config.trans h.config, k.capacity.trans h.capacity, Nat.le_trans h.nextId k.nextId⟩

/-- Whatever is done besides does not matter. -/
theorem frames_of_same (hconfig : m'.config = m.config) (hcache : m'.cache = m.cache)
    (hbus : m'.bus = m.bus) : m.Frames m' :=
  ⟨hconfig, congrArg ModuleCache.capacity hcache, hbus ▸ Nat.le_refl _⟩

theorem frames_foldl {α : Type} {f : Manager → α → Manager} (l : List α)
    (hf : ∀ (m : Manager) a, m.Frames (f m a)) (m : Manager) : m.Frames (l.foldl f m) :=
  List.foldlRecOn (motive := fun m' => m.Frames m') l f (Frames.refl m)
    fun _ h _ _ => h.trans (hf _ _)

/-! ## Parts of operations -/

theorem frames_emit (m : Manager) (e : Event) : m.Frames (m.emit e) := ⟨rfl, rfl, Nat.le_refl _⟩

theorem frames_announceFor (m : Manager) (t : Topic) (id : String)
    (more : List (String × Json.Value)) : m.Frames (m.announceFor t id more) := m.frames_emit _

theorem frames_withPool (m : Manager) (y : Pool) : m.Frames (m.withPool y) := by
  have hyard : m.Frames { m with pool := y.takeHeard.2 } := frames_of_same rfl rfl rfl
  refine hyard.trans (frames_foldl y.takeHeard.1 ?_ _)
  intro m n
  cases n with
  | event e => exact m.frames_emit e
  | delivered tag state => exact frames_of_same rfl rfl rfl

theorem frames_act (m : Manager) {α : Type} (id : String) (default : α)
    (f : Container → α × Container) : m.Frames (m.act id default f).2 := by
  unfold act
  split
  · exact m.frames_withPool _
  · exact Frames.refl m

theorem frames_watchOver (m : Manager) (id : String) : m.Frames (m.watchOver id) := by
  unfold watchOver
  split
  · split
    · exact m.frames_withPool _
    · exact Frames.refl m
  · exact Frames.refl m

theorem frames_remove (m : Manager) (id : String) : m.Frames (m.remove id) := by
  have hhalted : m.Frames { m.halt id with slots := (m.halt id).slots.remove id } :=
    (m.frames_act id () _).trans (frames_of_same rfl rfl rfl)
  exact hhalted.trans (frames_announceFor ..)

theorem frames_endRestart (m : Manager) (id : String) (snapshot : State) :
    m.Frames (m.endRestart id snapshot).2 := by
  have hacted := m.frames_act id (.error (.containerNotFound id)) fun c =>
    c.endRestart snapshot m.pool.surroundings
  simp only [endRestart]
  generalize m.act id (.error (.containerNotFound id)) (fun c =>
    c.endRestart snapshot m.pool.surroundings) = acted at hacted ⊢
  obtain ⟨e | u, m'⟩ := acted
  · exact hacted
  · exact (hacted.trans (m'.frames_watchOver id)).trans (frames_announceFor ..)

theorem frames_register (m : Manager) (r : Reservation) (ids : List String) :
    m.Frames (m.register r ids) :=
  (frames_foldl ids frames_watchOver m).trans (frames_of_same rfl rfl rfl)

theorem frames_keep (m : Manager) (key : String) (c : CachedModule) : m.Frames (m.keep key c) := by
  refine ⟨rfl, ?_, Nat.le_refl _⟩
  unfold keep ModuleCache.keep
  split <;> rfl

theorem frames_putIn (m : Manager) (id key : String) (module : CachedModule) :
    m.Frames (m.putIn id key module).2 := by
  have hacted := m.frames_act id (.ok ()) fun c =>
    c.hotReload module.module (some module.digest) m.pool.surroundings
  simp only [putIn]
  split
  · exact hacted
  · exact (hacted.trans (frames_keep ..)).trans (frames_announceFor ..)

theorem frames_startContainer (m : Manager) (r : Reservation) (name : String) (c : ContainerConfig)
    (module : CachedModule) : m.Frames (m.startContainer r name c module).2 := by
  simp only [startContainer]
  generalize m.pool.create none name (m.sandbox c) module.module (some module.digest) = created
  obtain ⟨e | id, y⟩ := created
  · exact (m.frames_withPool y).trans (frames_of_same rfl rfl rfl)
  · exact ((m.frames_withPool y).trans (frames_register ..)).trans (frames_announceFor ..)

theorem frames_beginRun (m : Manager) (name : String) (c : ContainerConfig) :
    m.Frames (m.beginRun name c).2 := by
  unfold beginRun resolve
  split
  · exact Frames.refl m
  · rename_i r slots _
    split
    · exact frames_of_same rfl rfl rfl
    · have hcapacity : (m.cache.lookup (ModuleCache.key name c)).2.capacity = m.cache.capacity := by
        unfold ModuleCache.lookup
        split <;> rfl
      have hlooked : m.Frames { m with
          slots := slots, cache := (m.cache.lookup (ModuleCache.key name c)).2 } :=
        ⟨rfl, hcapacity, Nat.le_refl _⟩
      dsimp only [fetch]
      split
      · exact hlooked.trans (frames_startContainer ..)
      · split
        · split <;> exact hlooked.trans (frames_of_same rfl rfl rfl)
        · exact hlooked.trans (frames_of_same rfl rfl rfl)

theorem frames_endRun (m : Manager) (p : RunProgress) : m.Frames (m.endRun p).2 := by
  cases p with
  | ended result => exact Frames.refl m
  | waiting r name c bytes =>
    simp only [endRun]
    split
    · exact frames_of_same rfl rfl rfl
    · exact (m.frames_keep _ _).trans (frames_startContainer ..)

theorem frames_endScale (m : Manager) (r : Reservation) (id : String) (n : Nat) :
    m.Frames (m.endScale r id n).2 := by
  unfold endScale
  split
  · exact frames_of_same rfl rfl rfl
  · rename_i result y _
    have hput := m.frames_withPool y
    cases result with
    | error e => exact hput.trans (frames_of_same rfl rfl rfl)
    | ok ids =>
      have hreplicas := frames_foldl ids (f := fun m replica =>
        m.announceFor .replicaCreated id [("replicaId", .str replica)])
        (fun m _ => m.frames_announceFor ..) ((m.withPool y).register r ids)
      exact ((hput.trans (frames_register ..)).trans hreplicas).trans (frames_announceFor ..)

end Manager

/-! ## Moves -/

namespace ConcurrentManager

open Manager (frames_of_same)

variable {t : ConcurrentManager}

theorem frames_ask (t : ConcurrentManager) (q : Request) : t.manager.Frames (t.ask q).manager := by
  have hfind (t : ConcurrentManager) (ticket : Nat) (id : String) (task : Container → Task) :
      t.manager.Frames (t.find ticket id task).manager := by
    unfold find
    split <;> exact Manager.Frames.refl _
  cases q with
  | run name config =>
    have hbegun := t.manager.frames_beginRun name config
    simp only [ask]
    generalize t.manager.beginRun name config = begun at hbegun ⊢
    obtain ⟨result | ⟨r, name, config, bytes⟩, m⟩ := begun
    · exact hbegun
    · exact hbegun
  | scale id n =>
    simp only [ask, Manager.beginScale]
    cases t.manager.lookup id with
    | error e => exact Manager.Frames.refl _
    | ok c =>
      dsimp only
      cases t.manager.slots.reserve n with
      | error e => exact Manager.Frames.refl _
      | ok p => exact frames_of_same rfl rfl rfl
  | stop id => exact hfind { t with tickets := t.tickets + 1 } ..
  | restart id => exact hfind { t with tickets := t.tickets + 1 } ..
  | hotReload id => exact hfind { t with tickets := t.tickets + 1 } ..
  | restartAll => exact Manager.Frames.refl _
  | cleanup => exact frames_of_same rfl rfl rfl

theorem frames_proceed (t : ConcurrentManager) (ticket : Nat) (task : Task) :
    t.manager.Frames (t.proceed ticket task).manager := by
  cases task with
  | run r name config bytes => exact t.manager.frames_endRun (.waiting r name config bytes)
  | scale r id n =>
    rw [proceed, manager_scaled]
    exact t.manager.frames_endScale r id n
  | stop id => exact t.manager.frames_remove id
  | restart id => exact t.manager.frames_act id .empty Container.beginRestart
  | rest id snapshot => exact t.manager.frames_endRestart id snapshot
  | fetch id name key =>
    simp only [proceed, Manager.fetchAndCompile, Manager.fetch]
    generalize t.manager.source.fetch name t.manager.network = fetched
    obtain ⟨e | b, network⟩ := fetched
    · exact frames_of_same rfl rfl rfl
    · dsimp only
      cases ({ t.manager with network := network } : Manager).compile name b with
      | error e => exact frames_of_same rfl rfl rfl
      | ok module => exact frames_of_same rfl rfl rfl
  | reload id key module => exact t.manager.frames_putIn id key module
  | sweep id => exact t.manager.frames_act id () fun c => ((), c.stop)
  | gather parts cleans =>
    cases cleans with
    | false => exact t.manager.frames_emit _
    | true => exact ⟨rfl, rfl, Nat.le_refl _⟩

theorem frames_move (t : ConcurrentManager) (x : Move) : t.manager.Frames (t.move x).manager := by
  cases x with
  | ask q => exact t.frames_ask q
  | go i =>
    simp only [move, go]
    split
    · exact Manager.Frames.refl _
    · split
      · exact frames_proceed { t with tasks := t.tasks.eraseIdx i } ..
      · exact Manager.Frames.refl _
  | abandon i =>
    simp only [move, abandon]
    split
    · exact Manager.Frames.refl _
    · exact frames_of_same rfl rfl rfl
  | interact id x =>
    exact t.manager.frames_act id () fun c => ((), c.interact t.manager.pool.clock.wall x)
  | observe event who => exact ⟨rfl, rfl, Nat.le_succ _⟩
  | sleep d => exact t.manager.frames_withPool _
  | pass d => exact frames_of_same rfl rfl rfl
  | surround source network outside => exact frames_of_same rfl rfl rfl

theorem frames_run (t : ConcurrentManager) (xs : List Move) : t.manager.Frames (t.run xs).manager :=
  run_induction (P := fun u => t.manager.Frames u.manager)
    (fun u x h => h.trans (u.frames_move x)) (Manager.Frames.refl _) xs

end ConcurrentManager
end ContainerHost
