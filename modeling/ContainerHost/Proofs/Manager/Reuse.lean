import ContainerHost.Manager.Report
import ContainerHost.Proofs.Event.Renumbering
import ContainerHost.Proofs.Leftovers
import ContainerHost.Proofs.Manager.Quiet
/-!
# Managers that are used on

A manager that was used before, and has nothing registered any more, still has containers that others
may hold, what was heard, the next id for a listener, and the counts of look-ups. `m.Atop left u`
says that `u` is `m` with what `left` has of that. Whatever is done with `u` comes to the same result
as with `m`, and leaves the one atop again (`Matches`), as long as it is done with containers that `m`
has.
-/

namespace ContainerHost

open Pool (keeps_present)

namespace Manager

def onto (m left : Manager) (y : Pool) : Manager :=
  { m with
    bus := m.bus.raise (left.bus.nextId - 1)
    cache := { m.cache with
      hits := left.cache.hits + m.cache.hits, misses := left.cache.misses + m.cache.misses }
    pool := y
    heard := left.heard ++ m.heard }

structure Atop (m left u : Manager) : Prop where
  pool : m.pool.Atop left.pool u.pool
  same : u = m.onto left u.pool

/-- The same came of both, and the one is atop of the other again. -/
structure Matches {α : Type} (left : Manager) (p q : α × Manager) : Prop where
  result : q.1 = p.1
  after : p.2.Atop left q.2

/-- Every registered container is there. -/
def Housed (m : Manager) : Prop := ∀ id, m.slots.holds id = true → (m.pool.get? id).isSome

variable {m left u : Manager} {y y' : Pool} {id : String}

theorem atop_onto (h : m.pool.Atop left.pool y) : m.Atop left (m.onto left y) := ⟨h, rfl⟩

namespace Atop

theorem exists_onto (h : m.Atop left u) :
    ∃ y, m.pool.Atop left.pool y ∧ u = m.onto left y := ⟨u.pool, h.pool, h.same⟩

theorem slots (h : m.Atop left u) : u.slots = m.slots := by rw [h.same]; rfl

theorem heard (h : m.Atop left u) : u.heard = left.heard ++ m.heard := by rw [h.same]; rfl

theorem get? (h : m.Atop left u) (hm : m.Housed) (id : String) : u.get? id = m.get? id := by
  unfold Manager.get?
  rw [h.slots]
  split
  · rename_i hid
    exact h.pool.get?_of_isSome (hm id hid)
  · rfl

theorem lookup (h : m.Atop left u) (hm : m.Housed) (id : String) : u.lookup id = m.lookup id := by
  unfold Manager.lookup
  rw [h.get? hm]

/-! ## Events -/

theorem emit (h : m.Atop left u) (e : Event) : (m.emit e).Atop left (u.emit e) := by
  obtain ⟨y, hy, rfl⟩ := h.exists_onto
  have hemit : (m.onto left y).emit e = (m.emit e).onto left y := by
    simp only [Manager.emit, onto]
    rw [Event.Bus.take_raise]
    simp only [List.map_map, List.append_assoc]
    rfl
  rw [hemit]
  exact atop_onto hy

theorem announceFor (h : m.Atop left u) (t : Topic) (id : String)
    (more : List (String × Json.Value)) :
    (m.announceFor t id more).Atop left (u.announceFor t id more) := h.emit _

theorem passOn (h : m.Atop left u) (n : Notice) : (m.passOn n).Atop left (u.passOn n) := by
  cases n with
  | event e => exact h.emit e
  | delivered tag state =>
    obtain ⟨y, hy, rfl⟩ := h.exists_onto
    have hpass : (m.onto left y).passOn (.delivered tag state) =
        (m.passOn (.delivered tag state)).onto left y := by
      simp only [Manager.passOn, onto, List.append_assoc]
    rw [hpass]
    exact atop_onto hy

/-- What is done with each of some things is done with all of them. -/
theorem foldl {α : Type} {f : Manager → α → Manager} (l : List α) (h : m.Atop left u)
    (hf : ∀ m u, m.Atop left u → ∀ a, (f m a).Atop left (f u a)) :
    (l.foldl f m).Atop left (l.foldl f u) := by
  induction l generalizing m u with
  | nil => exact h
  | cons a l ih => exact ih (hf m u h a)

theorem withPool (h : m.Atop left u) (hy : y.Atop left.pool y') :
    (m.withPool y).Atop left (u.withPool y') := by
  obtain ⟨y₀, -, rfl⟩ := h.exists_onto
  have hput : ({ m with pool := y.takeHeard.2 } : Manager).Atop left
      { m.onto left y₀ with pool := y'.takeHeard.2 } := atop_onto hy.takeHeard
  have hnotices : y'.takeHeard.1 = y.takeHeard.1 := hy.heard
  show Atop (y.takeHeard.1.foldl Manager.passOn { m with pool := y.takeHeard.2 }) left
    (y'.takeHeard.1.foldl Manager.passOn { m.onto left y₀ with pool := y'.takeHeard.2 })
  rw [hnotices]
  exact foldl _ hput fun _ _ h n => h.passOn n

theorem announceScaled (h : m.Atop left u) (id : String) (n : Nat) (ids : List String) :
    (m.announceScaled id n ids).Atop left (u.announceScaled id n ids) := by
  have hreplicas := h.foldl ids
    (f := fun m replica => m.announceFor .replicaCreated id [("replicaId", .str replica)])
    fun _ _ h _ => h.announceFor ..
  exact hreplicas.announceFor ..

/-! ## Single containers -/

/-- What is done with a container that both have, or neither has. -/
theorem act {α : Type} (h : m.Atop left u) (hid : u.pool.get? id = m.pool.get? id) (default : α)
    (f : Container → α × Container) :
    Matches left (m.act id default f) (u.act id default f) := by
  unfold Manager.act
  rcases h.pool.act hid f with ⟨hnone', hnone⟩ | ⟨a, y₁, y₁', hsome', hsome, hnext⟩
  · rw [hnone', hnone]
    exact ⟨rfl, h⟩
  · rw [hsome', hsome]
    exact ⟨rfl, h.withPool hnext⟩

theorem halt (h : m.Atop left u) (hid : (m.pool.get? id).isSome) :
    (m.halt id).Atop left (u.halt id) := (h.act (h.pool.get?_of_isSome hid) ..).after

/-- The slots are other ones in both. -/
theorem withSlots (h : m.Atop left u) (s : Slots) :
    ({ m with slots := s } : Manager).Atop left { u with slots := s } := by
  obtain ⟨y, hy, rfl⟩ := h.exists_onto
  exact atop_onto (m := { m with slots := s }) hy

theorem remove (h : m.Atop left u) (hid : (m.pool.get? id).isSome) :
    (m.remove id).Atop left (u.remove id) := by
  have hhalted := h.halt hid
  simp only [Manager.remove]
  rw [hhalted.slots]
  exact (hhalted.withSlots _).announceFor ..

theorem watchOver (h : m.Atop left u) (hid : (m.pool.get? id).isSome) :
    (m.watchOver id).Atop left (u.watchOver id) := by
  have hsame := h.pool.get?_of_isSome hid
  have hconfig : u.config = m.config := by rw [h.same]; rfl
  have hclock : u.pool.clock = m.pool.clock := h.pool.clock
  unfold Manager.watchOver
  rw [hconfig, hclock]
  split
  · rcases h.pool.act hsame fun c =>
      ((), c.startTicker m.pool.clock.timers m.config.metricsInterval.nanos) with
      ⟨hnone', hnone⟩ | ⟨a, y₁, y₁', hsome', hsome, hnext⟩
    · rw [hnone', hnone]
      exact h
    · rw [hsome', hsome]
      exact h.withPool hnext
  · exact h

theorem afterRestart (h : m.Atop left u) (hid : (m.pool.get? id).isSome) (r : Except Error Unit) :
    (m.afterRestart id r).Atop left (u.afterRestart id r) := by
  cases r with
  | error e => exact h
  | ok _ => exact (h.watchOver hid).announceFor ..

theorem isSome_act {α : Type} (hid : (m.pool.get? id).isSome) (x : String) (default : α)
    (f : Container → α × Container) : ((m.act x default f).2.pool.get? id).isSome := by
  have hkept := (keeps_present (fun _ _ => True) (· = id)).acted (m := m)
    (by rintro _ rfl; exact hid) x default (f := f) fun _ _ => trivial
  exact hkept id rfl

theorem endRestart (h : m.Atop left u) (hid : (m.pool.get? id).isSome) (snapshot : State) :
    Matches left (m.endRestart id snapshot) (u.endRestart id snapshot) := by
  have hacted := h.act (h.pool.get?_of_isSome hid) (.error (.containerNotFound id)) fun c =>
    c.endRestart snapshot m.pool.surroundings
  have hthere := isSome_act hid id (.error (.containerNotFound id)) fun c =>
    c.endRestart snapshot m.pool.surroundings
  simp only [Manager.endRestart]
  rw [h.pool.surroundings]
  refine ⟨hacted.result, ?_⟩
  rw [hacted.result]
  exact hacted.after.afterRestart hthere _

theorem sleep (h : m.Atop left u) (d : Duration) : (m.sleep d).Atop left (u.sleep d) :=
  h.withPool (h.pool.sleep d)

/-! ## Modules -/

theorem drop (h : m.Atop left u) (r : Reservation) : (m.drop r).Atop left (u.drop r) := by
  unfold Manager.drop
  rw [h.slots]
  exact h.withSlots _

theorem fetch (h : m.Atop left u) (name : String) : Matches left (m.fetch name) (u.fetch name) := by
  obtain ⟨y, hy, rfl⟩ := h.exists_onto
  exact ⟨rfl, atop_onto (m := (m.fetch name).2) hy⟩

theorem compile (h : m.Atop left u) (name : String) : u.compile name = m.compile name := by
  obtain ⟨y, hy, rfl⟩ := h.exists_onto
  rfl

theorem keep (h : m.Atop left u) (key : String) (c : CachedModule) :
    (m.keep key c).Atop left (u.keep key c) := by
  obtain ⟨y, hy, rfl⟩ := h.exists_onto
  have hkeep : (m.onto left y).keep key c = (m.keep key c).onto left y := by
    have hbytes : (m.onto left y).cache.bytesWith key c = m.cache.bytesWith key c := rfl
    have hcapacity : (m.onto left y).cache.capacity = m.cache.capacity := rfl
    unfold Manager.keep ModuleCache.keep
    rw [hbytes, hcapacity]
    by_cases hover : m.cache.bytesWith key c > m.cache.capacity
    · rw [if_pos hover, if_pos hover]
    · rw [if_neg hover, if_neg hover]
      rfl
  rw [hkeep]
  exact atop_onto hy

theorem lookupCache (h : m.Atop left u) (key : String) :
    (u.cache.lookup key).1 = (m.cache.lookup key).1 ∧
      ({ m with cache := (m.cache.lookup key).2 } : Manager).Atop left
        { u with cache := (u.cache.lookup key).2 } := by
  obtain ⟨y, hy, rfl⟩ := h.exists_onto
  unfold ModuleCache.lookup
  dsimp only [onto]
  cases m.cache.entries.get? key with
  | none =>
    exact ⟨rfl, atop_onto (m := { m with cache := { m.cache with misses := m.cache.misses + 1 } }) hy⟩
  | some _ =>
    exact ⟨rfl, atop_onto (m := { m with cache := { m.cache with hits := m.cache.hits + 1 } }) hy⟩

theorem fetchAndCompile (h : m.Atop left u) (name : String) :
    Matches left (m.fetchAndCompile name) (u.fetchAndCompile name) := by
  obtain ⟨hbytes, hfetched⟩ := h.fetch name
  simp only [Manager.fetchAndCompile]
  rw [hbytes]
  cases (m.fetch name).1 with
  | error e => exact ⟨rfl, hfetched⟩
  | ok b => exact ⟨congrFun (hfetched.compile name) b, hfetched⟩

theorem putIn (h : m.Atop left u) (hid : (m.pool.get? id).isSome) (key : String)
    (module : CachedModule) : Matches left (m.putIn id key module) (u.putIn id key module) := by
  obtain ⟨hresult, hacted⟩ := h.act (h.pool.get?_of_isSome hid) (.ok ()) fun c =>
    c.hotReload module.module (some module.digest) m.pool.surroundings
  simp only [Manager.putIn]
  rw [h.pool.surroundings, hresult]
  split
  · exact ⟨rfl, hacted⟩
  · exact ⟨rfl, (hacted.keep key module).announceFor ..⟩

/-! ## New containers -/

theorem register (h : m.Atop left u) (r : Reservation) {ids : List String}
    (hids : ∀ id ∈ ids, (m.pool.get? id).isSome) : (m.register r ids).Atop left (u.register r ids) := by
  have hwatched (l : List String) (hl : ∀ id ∈ l, (m.pool.get? id).isSome) :
      (l.foldl Manager.watchOver m).Atop left (l.foldl Manager.watchOver u) := by
    clear hids
    induction l generalizing m u with
    | nil => exact h
    | cons id l ih =>
      have hkept := (keeps_present (fun _ _ => True) (· ∈ l)).mono (R := Container.Observed)
        (fun _ _ _ => trivial)
      exact ih (h.watchOver (hl id List.mem_cons_self))
        (hkept.watchOver (fun x hx => hl x (List.mem_cons_of_mem _ hx)) id)
  have hall := hwatched ids hids
  simp only [Manager.register]
  rw [hall.slots]
  exact (hall.withSlots _).drop _

theorem isSome_create {name : String} {box : Guest.Sandbox} {module : Guest.Compiled}
    {digest : Option String} (h : y.create none name box module digest = (.ok id, y')) :
    (y'.get? id).isSome := by
  simp only [Pool.create] at h
  split at h
  · cases h
  · cases h
    show ((Pool.put _ _).get? _).isSome = true
    rw [Pool.get?_put_self]
    rfl

theorem startContainer (h : m.Atop left u) (r : Reservation) (name : String) (c : ContainerConfig)
    (module : CachedModule) :
    Matches left (m.startContainer r name c module) (u.startContainer r name c module) := by
  have hbox : u.sandbox c = m.sandbox c := by rw [h.same]; rfl
  obtain ⟨hresult, hmade⟩ := h.pool.create name (m.sandbox c) module.module (some module.digest)
  simp only [Manager.startContainer]
  rw [hbox, hresult]
  cases hcreate : m.pool.create none name (m.sandbox c) module.module (some module.digest) with
  | mk result y =>
    rw [hcreate] at hmade
    have hput := h.withPool hmade
    cases result with
    | error e => exact ⟨rfl, hput.drop r⟩
    | ok id =>
      have hthere : ((m.withPool y).pool.get? id).isSome := by
        rw [pool_withPool]
        show (y.get? id).isSome = true
        exact isSome_create hcreate
      exact ⟨rfl, (hput.register r (by simpa using hthere)).announceFor ..⟩

theorem resolve (h : m.Atop left u) (r : Reservation) (name : String) (c : ContainerConfig) :
    Matches left (m.resolve r name c) (u.resolve r name c) := by
  unfold Manager.resolve
  split
  · exact ⟨rfl, h.drop r⟩
  · obtain ⟨hfound, hlooked⟩ := h.lookupCache (ModuleCache.key name c)
    dsimp only
    rw [hfound]
    cases (m.cache.lookup (ModuleCache.key name c)).1 with
    | some module =>
      obtain ⟨hresult, hstarted⟩ := hlooked.startContainer r name c module
      exact ⟨congrArg RunProgress.ended hresult, hstarted⟩
    | none =>
      obtain ⟨hbytes, hfetched⟩ := hlooked.fetch name
      generalize ({ m with cache := (m.cache.lookup (ModuleCache.key name c)).2 } : Manager).fetch
        name = fetched at hbytes hfetched ⊢
      generalize ({ u with cache := (u.cache.lookup (ModuleCache.key name c)).2 } : Manager).fetch
        name = fetched' at hbytes hfetched ⊢
      obtain ⟨bytes, m'⟩ := fetched
      obtain ⟨bytes', u'⟩ := fetched'
      obtain rfl : bytes' = bytes := hbytes
      have hafter : m'.Atop left u' := hfetched
      have hsource : u'.source = m'.source := by rw [hafter.same]; rfl
      dsimp only
      rw [hsource]
      split
      · split
        · exact ⟨rfl, hafter⟩
        · exact ⟨rfl, hafter.drop r⟩
      · exact ⟨rfl, hafter⟩

theorem beginRun (h : m.Atop left u) (name : String) (c : ContainerConfig) :
    Matches left (m.beginRun name c) (u.beginRun name c) := by
  unfold Manager.beginRun
  rw [h.slots]
  split
  · exact ⟨rfl, h⟩
  · exact (h.withSlots _).resolve ..

theorem endRun (h : m.Atop left u) (p : RunProgress) : Matches left (m.endRun p) (u.endRun p) := by
  cases p with
  | ended result => exact ⟨rfl, h⟩
  | waiting r name c bytes =>
    simp only [Manager.endRun]
    rw [h.compile]
    split
    · exact ⟨rfl, h.drop r⟩
    · exact (h.keep ..).startContainer ..

theorem beginScale (h : m.Atop left u) (hm : m.Housed) (id : String) (n : Nat) :
    Matches left (m.beginScale id n) (u.beginScale id n) := by
  unfold Manager.beginScale
  rw [h.lookup hm, h.slots]
  split
  · exact ⟨rfl, h⟩
  · split
    · exact ⟨rfl, h⟩
    · exact ⟨rfl, h.withSlots _⟩

theorem isSome_scale {n : Nat} {ids : List String} (h : y.scale id n = some (.ok ids, y')) :
    ∀ x ∈ ids, (y'.get? x).isSome := by
  intro x hx
  obtain ⟨c, hc, -⟩ := Option.bind_eq_some_iff.mp h
  obtain ⟨d, hd, -⟩ := Pool.copied_of_scale hc h x hx
  rw [hd]
  rfl

theorem endScale (h : m.Atop left u) (hid : (m.pool.get? id).isSome) (r : Reservation) (n : Nat) :
    Matches left (m.endScale r id n) (u.endScale r id n) := by
  unfold Manager.endScale
  rcases h.pool.scale (h.pool.get?_of_isSome hid) n with
    ⟨hnone', hnone⟩ | ⟨result, y₁, y₁', hsome', hsome, hmade⟩
  · rw [hnone', hnone]
    exact ⟨rfl, h.drop r⟩
  · rw [hsome', hsome]
    have hput := h.withPool hmade
    cases result with
    | error e => exact ⟨rfl, hput.drop r⟩
    | ok ids =>
      have hthere : ∀ x ∈ ids, ((m.withPool y₁).pool.get? x).isSome := by
        rw [pool_withPool]
        show ∀ x ∈ ids, (y₁.get? x).isSome
        exact isSome_scale hsome
      exact ⟨rfl, (hput.register r hthere).announceScaled id n ids⟩

/-! ## Listeners -/

theorem register_bus (h : m.Atop left u) (event : String) (once : Bool) (who : Observer) :
    ({ m with bus := (m.bus.register event once who).2 } : Manager).Atop left
      { u with bus := (u.bus.register event once who).2 } := by
  obtain ⟨y, hy, rfl⟩ := h.exists_onto
  dsimp only [onto]
  rw [Event.Bus.register_raise]
  exact atop_onto (m := { m with bus := (m.bus.register event once who).2 }) hy

theorem off_bus (h : m.Atop left u) (event : String) (id : Nat) :
    (u.bus.off event (left.bus.nextId - 1 + id)).1 = (m.bus.off event id).1 ∧
      ({ m with bus := (m.bus.off event id).2 } : Manager).Atop left
        { u with bus := (u.bus.off event (left.bus.nextId - 1 + id)).2 } := by
  obtain ⟨y, hy, rfl⟩ := h.exists_onto
  dsimp only [onto]
  rw [Event.Bus.off_raise]
  exact ⟨rfl, atop_onto (m := { m with bus := (m.bus.off event id).2 }) hy⟩

theorem removeAll_bus (h : m.Atop left u) (which : Option String) :
    ({ m with bus := m.bus.removeAll which } : Manager).Atop left
      { u with bus := u.bus.removeAll which } := by
  obtain ⟨y, hy, rfl⟩ := h.exists_onto
  dsimp only [onto]
  rw [Event.Bus.removeAll_raise]
  exact atop_onto (m := { m with bus := m.bus.removeAll which }) hy

/-! ## All containers, and outside -/

theorem endCleanup (h : m.Atop left u) (summary : BulkSummary) :
    (m.endCleanup summary).Atop left (u.endCleanup summary) := by
  have hcleared : ({ m with cache := m.cache.clear } : Manager).Atop left
      { u with cache := u.cache.clear } := by
    obtain ⟨y, hy, rfl⟩ := h.exists_onto
    exact atop_onto (m := { m with cache := m.cache.clear }) hy
  exact (hcleared.emit _).removeAll_bus none

/-- All registered containers are asked something. -/
theorem askAll {α : Type} (h : m.Atop left u) (f : Container → α × Container) {ids : List String}
    (hids : ∀ id ∈ ids, (m.pool.get? id).isSome) :
    Matches left (Manager.askAll f ids m) (Manager.askAll f ids u) := by
  induction ids generalizing m u with
  | nil => exact ⟨rfl, h⟩
  | cons id ids ih =>
    have hid := hids id List.mem_cons_self
    have hrest : ∀ x ∈ ids, (m.pool.get? x).isSome := fun x hx => hids x (List.mem_cons_of_mem _ hx)
    unfold Manager.askAll
    rcases h.pool.act (h.pool.get?_of_isSome hid) f with
      ⟨hnone', hnone⟩ | ⟨a, y₁, y₁', hsome', hsome, hnext⟩
    · rw [hnone', hnone]
      exact ih h hrest
    · have hkept := (keeps_present (fun _ _ => True) (· ∈ ids)).act hrest (fun _ _ => trivial) hsome
      obtain ⟨hanswers, hasked⟩ := ih (h.withPool hnext) (by rw [pool_withPool]; exact hkept)
      rw [hsome', hsome]
      refine ⟨?_, hasked⟩
      dsimp only
      rw [hanswers]

theorem deploy (h : m.Atop left u) (hm : m.Housed) (id : String) :
    Matches left (m.deploy id) (u.deploy id) := by
  have hlookup := h.lookup hm id
  obtain ⟨y, hy, rfl⟩ := h.exists_onto
  have hbehind (deployer : Deployer) (network : Http.Network) :
      ({ m with deployer := deployer, network := network } : Manager).Atop left
        { m.onto left y with deployer := deployer, network := network } :=
    atop_onto (m := { m with deployer := deployer, network := network }) hy
  unfold Manager.deploy
  rw [hlookup]
  split
  · exact ⟨rfl, h⟩
  · rename_i c _
    have hdeployer : (m.onto left y).deployer = m.deployer := rfl
    have hnetwork : (m.onto left y).network = m.network := rfl
    rw [hdeployer, hnetwork]
    generalize m.deployer.create (deploymentRequest c) m.network = made
    obtain ⟨created, deployer, network⟩ := made
    cases created with
    | error e => exact ⟨rfl, hbehind ..⟩
    | ok deployment =>
      dsimp only
      generalize deployer.start deployment network = begun
      obtain ⟨started, deployer, network⟩ := begun
      cases started with
      | error e => exact ⟨rfl, hbehind ..⟩
      | ok deployment => exact ⟨rfl, (hbehind ..).announceFor ..⟩

end Atop
end Manager
end ContainerHost
