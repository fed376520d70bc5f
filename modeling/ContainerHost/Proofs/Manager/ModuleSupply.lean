import ContainerHost.Proofs.Manager.ConcurrentManager
/-!
# Behind a manager

Where a manager has its modules from: the source, the network, the cache and its capacity. All of it
is the manager's `ModuleSupply`, and whatever a manager does apart from finding a module does not
depend on it: what is done with another supply is the same, and the supply stays (`vary_..`).
-/

namespace ContainerHost

/-- Where a manager has its modules from, and how it compiles them. -/
structure ModuleSupply where
  host : Guest.Host
  source : Source
  network : Http.Network
  cacheSize : Nat
  cache : ModuleCache

namespace Manager

def vary (m : Manager) (v : ModuleSupply) : Manager :=
  { m with
    config := { m.config with cacheSize := v.cacheSize }
    host := v.host
    source := v.source
    network := v.network
    cache := v.cache }

def moduleSupply (m : Manager) : ModuleSupply :=
  ⟨m.host, m.source, m.network, m.config.cacheSize, m.cache⟩

end Manager

def ModuleSupply.carry {α : Type} (v : ModuleSupply) (p : α × Manager) : α × Manager :=
  (p.1, p.2.vary v)

namespace Manager

variable (m : Manager) (v w : ModuleSupply)

@[simp] theorem vary_moduleSupply : m.vary m.moduleSupply = m := rfl

@[simp] theorem moduleSupply_vary : (m.vary v).moduleSupply = v := rfl

@[simp] theorem carry_carry {α : Type} (p : α × Manager) : v.carry (w.carry p) = v.carry p := rfl

@[simp] theorem pool_vary : (m.vary v).pool = m.pool := rfl

@[simp] theorem slots_vary : (m.vary v).slots = m.slots := rfl

/-! ## Events -/

theorem vary_announceFor (t : Topic) (id : String) (more : List (String × Json.Value)) :
    (m.vary v).announceFor t id more = (m.announceFor t id more).vary v := rfl

theorem vary_passOn (n : Notice) : (m.vary v).passOn n = (m.passOn n).vary v := by
  cases n <;> rfl

/-- What is done for each of some things is done for all. -/
theorem vary_foldl {α : Type} {f : Manager → α → Manager} (l : List α)
    (hf : ∀ m a, f (vary m v) a = (f m a).vary v) : l.foldl f (m.vary v) = (l.foldl f m).vary v :=
  List.foldl_hom (fun m => vary m v) hf

theorem vary_withPool (y : Pool) : (m.vary v).withPool y = (m.withPool y).vary v :=
  vary_foldl { m with pool := y.takeHeard.2 } v y.takeHeard.1 fun m n => m.vary_passOn v n

theorem vary_announceScaled (id : String) (n : Nat) (ids : List String) :
    (m.vary v).announceScaled id n ids = (m.announceScaled id n ids).vary v := by
  have hreplicas := vary_foldl m v
    (f := fun m replica => m.announceFor .replicaCreated id [("replicaId", .str replica)]) ids
    fun m replica => m.vary_announceFor v _ id _
  simp only [announceScaled]
  rw [hreplicas, vary_announceFor]

/-! ## Single containers -/

theorem vary_act {α : Type} (id : String) (default : α) (f : Container → α × Container) :
    (m.vary v).act id default f = v.carry (m.act id default f) := by
  unfold act
  rw [pool_vary]
  cases m.pool.act id f with
  | none => rfl
  | some p => exact congrArg (p.1, ·) (vary_withPool m v p.2)

theorem vary_halt (id : String) : (m.vary v).halt id = (m.halt id).vary v := by
  unfold halt
  rw [vary_act]
  rfl

theorem vary_remove (id : String) : (m.vary v).remove id = (m.remove id).vary v := by
  simp only [remove]
  rw [vary_halt]
  rfl

theorem vary_stop (id : String) : (m.vary v).stop id = v.carry (m.stop id) := by
  have hlookup : (m.vary v).lookup id = m.lookup id := rfl
  unfold stop
  rw [hlookup, vary_remove]
  cases m.lookup id <;> rfl

theorem vary_watchOver (id : String) : (m.vary v).watchOver id = (m.watchOver id).vary v := by
  have hmetrics : (m.vary v).config.enableMetrics = m.config.enableMetrics ∧
      (m.vary v).config.metricsInterval = m.config.metricsInterval := ⟨rfl, rfl⟩
  unfold watchOver
  rw [pool_vary, hmetrics.1, hmetrics.2]
  split
  · split
    · exact vary_withPool ..
    · rfl
  · rfl

theorem vary_afterRestart (id : String) (r : Except Error Unit) :
    (m.vary v).afterRestart id r = (m.afterRestart id r).vary v := by
  cases r with
  | error e => rfl
  | ok u =>
    simp only [afterRestart]
    rw [vary_watchOver]
    rfl

theorem vary_endRestart (id : String) (snapshot : State) :
    (m.vary v).endRestart id snapshot = v.carry (m.endRestart id snapshot) := by
  simp only [endRestart]
  rw [vary_act, pool_vary]
  exact congrArg (_, ·) (vary_afterRestart ..)

theorem vary_sleep (d : Duration) : (m.vary v).sleep d = (m.sleep d).vary v :=
  vary_withPool m v _

theorem vary_restart (id : String) : (m.vary v).restart id = v.carry (m.restart id) := by
  have hlookup : (m.vary v).lookup id = m.lookup id := rfl
  unfold restart
  rw [hlookup]
  cases m.lookup id with
  | error e => rfl
  | ok c =>
    simp only [beginRestart]
    rw [vary_act]
    simp only [ModuleSupply.carry]
    rw [vary_sleep, vary_endRestart]
    rfl

/-! ## New containers -/

theorem vary_register (r : Reservation) (ids : List String) :
    (m.vary v).register r ids = (m.register r ids).vary v := by
  simp only [register]
  rw [vary_foldl m v ids fun m id => m.vary_watchOver v id]
  rfl

theorem vary_beginScale (id : String) (n : Nat) :
    (m.vary v).beginScale id n = v.carry (m.beginScale id n) := by
  have hlookup : (m.vary v).lookup id = m.lookup id := rfl
  unfold beginScale
  rw [hlookup, slots_vary]
  cases m.lookup id with
  | error e => rfl
  | ok c => cases m.slots.reserve n <;> rfl

theorem vary_endScale (r : Reservation) (id : String) (n : Nat) :
    (m.vary v).endScale r id n = v.carry (m.endScale r id n) := by
  unfold endScale
  rw [pool_vary]
  cases m.pool.scale id n with
  | none => rfl
  | some p =>
    obtain ⟨result, y⟩ := p
    simp only [vary_withPool]
    cases result with
    | error e => rfl
    | ok ids =>
      simp only
      rw [vary_register, vary_announceScaled]
      rfl

theorem vary_scale (id : String) (n : Nat) : (m.vary v).scale id n = v.carry (m.scale id n) := by
  unfold scale
  rw [vary_beginScale]
  rcases m.beginScale id n with ⟨e | r, m'⟩
  · rfl
  · exact vary_endScale m' v r id n

/-- A container is made in the same way behind another module supply, if the host is the same. -/
theorem vary_startContainer (h : v.host = m.host) (r : Reservation) (name : String)
    (c : ContainerConfig) (module : CachedModule) :
    (m.vary v).startContainer r name c module = v.carry (m.startContainer r name c module) := by
  have hbox : (m.vary v).sandbox c = m.sandbox c := by
    unfold sandbox
    rw [show (m.vary v).host = m.host from h]
    rfl
  simp only [startContainer]
  rw [hbox, pool_vary]
  rcases m.pool.create none name (m.sandbox c) module.module (some module.digest) with ⟨e | id, y⟩
  · simp only [vary_withPool]
    rfl
  · simp only [vary_withPool]
    rw [vary_register]
    rfl

/-! ## All containers -/

theorem vary_restartAll : (m.vary v).restartAll = v.carry m.restartAll := by
  simp only [restartAll]
  rw [vary_withPool, slots_vary, pool_vary,
    vary_foldl _ v _ fun m p => m.vary_afterRestart v p.1 p.2]
  rfl

theorem vary_cleanup :
    (m.vary v).cleanup = ModuleSupply.carry { v with cache := v.cache.clear } m.cleanup := by
  simp only [cleanup, slots_vary]
  have hhalted := vary_foldl { m with slots := m.slots.drain.2 } v m.slots.drain.1
    fun m id => m.vary_halt v id
  exact congrArg (fun h : Manager => (_, h.endCleanup _)) hhalted

end Manager
end ContainerHost
