import ContainerHost.Proofs.Manager.Capacity
import ContainerHost.Proofs.Manager.Keys
import ContainerHost.Proofs.Manager.Modules
import ContainerHost.Proofs.Manager.ManagerSteps
import ContainerHost.Proofs.Sources
/-!
# What a source is asked for

Two operations of a manager go to its source: a run that finds no module in the cache, and a reload,
which goes by the name of the container that it has looked up. What is asked for is read off the
step (`ConcurrentManager.fetches?`), and `Asks` says that this is right: with another source that
has the same for that name all comes to the same, and what becomes of the network is what the source
makes of it. Most operations do nothing with the source at all (`Manager.Unsourced`).

That a run only asks for a valid name is its own check. A reload checks nothing: its name is valid
because containers are only made of valid names, are only copied with the names they have, and keep
them. This goes through every step of a manager (`Confined`).

What is proved (`names_confined`): whatever is done with a manager, its source is only asked for valid
names, and neither a directory nor a registry goes anywhere for a name but where that name leads.
-/

namespace ContainerHost

namespace Manager

variable {m : Manager}

def sourced (m : Manager) (s : Source) : Manager := { m with source := s }

/-- An operation does nothing with the source: with another one it comes to the same, and the network
stays as it is. -/
structure Unsourced {α : Type} (m : Manager) (f : Manager → α × Manager) : Prop where
  same : ∀ s, f (m.sourced s) = ((f m).1, (f m).2.sourced s)
  network : (f m).2.network = m.network

/-- What does not depend on the module supply does not depend on the source. -/
theorem unsourced_of_vary {α : Type} {f : Manager → α × Manager}
    (hf : ∀ v : ModuleSupply, v.host = m.host → f (m.vary v) = v.carry (f m)) : m.Unsourced f := by
  have hback : (f m).2.moduleSupply = m.moduleSupply :=
    congrArg (fun p : α × Manager => p.2.moduleSupply) (hf m.moduleSupply rfl)
  refine ⟨fun s => ?_, congrArg ModuleSupply.network hback⟩
  have hsourced : (f m).2.sourced s = (f m).2.vary { m.moduleSupply with source := s } := by
    rw [← hback]
    rfl
  rw [hsourced]
  exact hf { m.moduleSupply with source := s } rfl

theorem unsourced_act {α : Type} (m : Manager) (id : String) (default : α)
    (f : Container → α × Container) : m.Unsourced fun m => m.act id default f :=
  unsourced_of_vary fun v _ => vary_act m v id default f

theorem unsourced_startContainer (m : Manager) (r : Reservation) (name : String)
    (c : ContainerConfig) (module : CachedModule) :
    m.Unsourced fun m => m.startContainer r name c module :=
  unsourced_of_vary fun v h => vary_startContainer m v h r name c module

theorem unsourced_endRun (m : Manager) (r : Reservation) (name : String) (c : ContainerConfig)
    (bytes : Except Error Blob) : m.Unsourced fun m => m.endRun (.waiting r name c bytes) := by
  have hcompile (s : Source) : (m.sourced s).compile name = m.compile name := rfl
  have hstart (module : CachedModule) :=
    (m.keep (ModuleCache.key name c) module).unsourced_startContainer r name c module
  simp only [endRun]
  cases hmodule : bytes.bind (m.compile name) with
  | error e =>
    refine ⟨fun s => ?_, ?_⟩
    · rw [hcompile, hmodule]
      rfl
    · rw [hmodule]
      rfl
  | ok module =>
    refine ⟨fun s => ?_, ?_⟩
    · rw [hcompile, hmodule]
      exact (hstart module).same s
    · rw [hmodule]
      exact (hstart module).network

theorem unsourced_putIn (m : Manager) (id key : String) (module : CachedModule) :
    m.Unsourced fun m => m.putIn id key module := by
  obtain ⟨cache, hback⟩ := m.moduleSupply_putIn id key module
  refine ⟨fun s => ?_, congrArg ModuleSupply.network hback⟩
  have hacted := (m.unsourced_act id (.ok ()) fun c =>
    c.hotReload module.module (some module.digest) m.pool.surroundings).same s
  have hyard : (m.sourced s).pool = m.pool := rfl
  simp only [putIn]
  rw [hyard, hacted]
  generalize m.act id (.ok ()) (fun c =>
    c.hotReload module.module (some module.digest) m.pool.surroundings) = acted
  obtain ⟨e | u, m'⟩ := acted
  · rfl
  · rfl

theorem vary_askAll {α : Type} (f : Container → α × Container) (ids : List String) (m : Manager)
    (v : ModuleSupply) : askAll f ids (m.vary v) = v.carry (askAll f ids m) := by
  induction ids generalizing m with
  | nil => rfl
  | cons id ids ih =>
    unfold askAll
    rw [pool_vary]
    cases m.pool.act id f with
    | none => exact ih m
    | some p =>
      simp only [vary_withPool, ih]
      rfl

/-- A deployment goes to the network by itself, and not by way of the source. -/
theorem sourced_deploy (m : Manager) (id : String) (s : Source) :
    (m.sourced s).deploy id = ((m.deploy id).1, (m.deploy id).2.sourced s) := by
  have hlookup : (m.sourced s).lookup id = m.lookup id := rfl
  have hdeployer : (m.sourced s).deployer = m.deployer := rfl
  have hnetwork : (m.sourced s).network = m.network := rfl
  simp only [deploy, hlookup, hdeployer, hnetwork]
  cases m.lookup id with
  | error e => rfl
  | ok c =>
    dsimp only
    generalize m.deployer.create (deploymentRequest c) m.network = created
    obtain ⟨e | deployment, deployer, network⟩ := created
    · rfl
    · dsimp only
      generalize deployer.start deployment network = started
      obtain ⟨e | deployment, deployer, network⟩ := started
      · rfl
      · rfl

/-! ## Fetching -/

section

variable {s : Source} {name : String}
  (h : s.fetch name m.network = m.source.fetch name m.network)

include h

theorem sourced_fetch : (m.sourced s).fetch name = ((m.fetch name).1, (m.fetch name).2.sourced s) :=
  by
  have hsame : (m.sourced s).source.fetch name (m.sourced s).network =
      m.source.fetch name m.network := h
  unfold fetch
  rw [hsame]
  rfl

theorem sourced_fetchAndCompile : (m.sourced s).fetchAndCompile name =
    ((m.fetchAndCompile name).1, (m.fetchAndCompile name).2.sourced s) := by
  unfold fetchAndCompile
  rw [sourced_fetch h]
  generalize m.fetch name = fetched
  obtain ⟨e | b, m'⟩ := fetched
  · rfl
  · rfl

end

theorem network_fetchAndCompile (m : Manager) (name : String) :
    (m.fetchAndCompile name).2.network = (m.source.fetch name m.network).2 := by
  simp only [fetchAndCompile, fetch]
  generalize m.source.fetch name m.network = fetched
  obtain ⟨e | b, network⟩ := fetched
  · rfl
  · rfl

section

variable {s : Source} {name : String} {c : ContainerConfig}

/-- A run behind its reservation goes to the source if its name is valid and no module is in the
cache. -/
theorem sourced_resolve (hremote : s.isRemote = m.source.isRemote)
    (h : validateName name = .ok () → (m.cache.lookup (ModuleCache.key name c)).1 = none →
      s.fetch name m.network = m.source.fetch name m.network) (r : Reservation) :
    (m.sourced s).resolve r name c = ((m.resolve r name c).1, (m.resolve r name c).2.sourced s) := by
  have hlookup : (m.sourced s).cache.lookup = m.cache.lookup := rfl
  have hcached (cache : ModuleCache) : ({ m.sourced s with cache := cache } : Manager) =
      ({ m with cache := cache } : Manager).sourced s := rfl
  simp only [resolve, hlookup, hcached]
  cases hvalid : validateName name with
  | error reason => rfl
  | ok u =>
    dsimp only
    generalize m.cache.lookup (ModuleCache.key name c) = looked at h ⊢
    obtain ⟨_ | module, cache⟩ := looked
    · have hsource : (({ m with cache := cache } : Manager).fetch name).2.source = m.source := rfl
      dsimp only
      rw [sourced_fetch (m := { m with cache := cache }) (h hvalid rfl)]
      generalize ({ m with cache := cache } : Manager).fetch name = fetched at hsource ⊢
      obtain ⟨e | b, m'⟩ := fetched
      · have hsame : (m'.sourced s).source.isRemote = m'.source.isRemote :=
          hremote.trans (congrArg Source.isRemote hsource.symm)
        dsimp only
        rw [hsame]
        split <;> rfl
      · rfl
    · dsimp only
      rw [(unsourced_startContainer { m with cache := cache } r name c module).same s]

theorem network_resolve (m : Manager) (r : Reservation) (name : String) (c : ContainerConfig) :
    (m.resolve r name c).2.network =
      match validateName name, (m.cache.lookup (ModuleCache.key name c)).1 with
      | .ok (), none => (m.source.fetch name m.network).2
      | _, _ => m.network := by
  unfold resolve
  cases hvalid : validateName name with
  | error reason => rfl
  | ok u =>
    dsimp only
    generalize m.cache.lookup (ModuleCache.key name c) = looked
    obtain ⟨_ | module, cache⟩ := looked
    · simp only [fetch]
      generalize m.source.fetch name m.network = fetched
      obtain ⟨e | b, network⟩ := fetched
      · by_cases hremote : m.source.isRemote = true
        · exact congrArg (fun p : RunProgress × Manager => p.2.network) (if_pos hremote)
        · exact congrArg (fun p : RunProgress × Manager => p.2.network) (if_neg hremote)
      · rfl
    · exact (unsourced_startContainer { m with cache := cache } r name c module).network

end

theorem fetches?_run (m : Manager) (name : String) (c : ContainerConfig) :
    m.fetches? (.run name c) =
      match m.slots.reserve 1, validateName name, (m.cache.lookup (ModuleCache.key name c)).1 with
      | .ok _, .ok (), none => some name
      | _, _, _ => none := by
  have hfound : (m.cache.lookup (ModuleCache.key name c)).1 =
      m.cache.entries.get? (ModuleCache.key name c) := by
    unfold ModuleCache.lookup
    cases m.cache.entries.get? (ModuleCache.key name c) <;> rfl
  rw [hfound]
  rfl

theorem of_fetches?_run {name name' : String} {c : ContainerConfig}
    (h : m.fetches? (.run name c) = some name') : name = name' ∧ ValidName name := by
  unfold fetches? at h
  dsimp only at h
  split at h
  · rename_i hvalid _
    exact ⟨Option.some.inj h, hvalid⟩
  · cases h

/-- What a run does where it begins goes by what the source has for the name that it asks for, if it
asks at all. -/
theorem asks_beginRun (m : Manager) (name : String) (c : ContainerConfig) :
    (∀ s, s.isRemote = m.source.isRemote → (∀ n ∈ m.fetches? (.run name c),
      s.fetch n m.network = m.source.fetch n m.network) →
      (m.sourced s).beginRun name c = ((m.beginRun name c).1, (m.beginRun name c).2.sourced s)) ∧
    (m.beginRun name c).2.network = (m.fetches? (.run name c)).elim m.network fun n =>
      (m.source.fetch n m.network).2 := by
  have hslots (s : Source) : (m.sourced s).slots = m.slots := rfl
  rw [fetches?_run]
  simp only [beginRun, hslots]
  cases m.slots.reserve 1 with
  | error e => exact ⟨fun _ _ _ => rfl, rfl⟩
  | ok p =>
    obtain ⟨r, slots⟩ := p
    refine ⟨fun s hremote h => ?_, ?_⟩
    · refine sourced_resolve (m := { m with slots := slots }) hremote (fun hvalid hnone => ?_) r
      rw [hvalid, hnone] at h
      exact h name rfl
    · refine (network_resolve { m with slots := slots } r name c).trans ?_
      dsimp only
      cases validateName name with
      | error reason => rfl
      | ok u => cases (m.cache.lookup (ModuleCache.key name c)).1 <;> rfl

end Manager

/-- The name of the module that a task fetches when it goes on. A run has fetched its module before.
-/
def Task.wanted? : Task → Option String
  | .fetch _ name _ => some name
  | _ => none

/-- The network is reached, or changed, in another way than by the source. -/
def ManagerStep.isOutward : ManagerStep → Bool
  | .deploy _ | .move (.surround ..) => true
  | _ => false

namespace ConcurrentManager

open Manager (unsourced_of_vary)

variable {t : ConcurrentManager}

/-! ## What a step asks for -/

def sourced (t : ConcurrentManager) (s : Source) : ConcurrentManager :=
  t.withManager (t.manager.sourced s)

/-- The name of the module that the source is asked for when something is done. A run asks where it
begins, and a reload where it goes on, after it has looked its container up. -/
def fetches? (t : ConcurrentManager) : ManagerStep → Option String
  | .move (.ask (.run name config)) => t.manager.fetches? (.run name config)
  | .move x => (t.goesOn x).bind fun e => e.2.wanted?
  | _ => none

/-- The source is asked for one name or for none, and that is all that it is used for: another source
that takes its time alike and has the same for the name comes to the same, but for the source itself;
and the network becomes what the source makes of it. -/
structure Asks (t : ConcurrentManager) (first : Nat) (x : ManagerStep) (name? : Option String) :
    Prop where
  only : ∀ s, s.isRemote = t.manager.source.isRemote →
    (∀ name ∈ name?, s.fetch name t.manager.network = t.manager.source.fetch name t.manager.network) →
    ∃ s', (t.sourced s).doStep first x = ((t.doStep first x).1, (t.doStep first x).2.sourced s')
  network : x.isOutward = false → (t.doStep first x).2.manager.network =
    name?.elim t.manager.network fun name => (t.manager.source.fetch name t.manager.network).2

/-- What happens has nothing to do with the source. -/
structure Unsourced (t : ConcurrentManager) (g : ConcurrentManager → ConcurrentManager) : Prop where
  same : ∀ s, g (t.sourced s) = (g t).sourced s
  network : (g t).manager.network = t.manager.network

/-- What is done with the outcome of an operation has nothing to do with the source if the operation
has nothing to do with it. -/
theorem unsourced_after {α : Type} {f : Manager → α × Manager} (hf : t.manager.Unsourced f)
    {g : ConcurrentManager → α × Manager → ConcurrentManager}
    (hsame : ∀ s p, g (t.sourced s) (p.1, p.2.sourced s) = (g t p).sourced s)
    (hmanager : ∀ p, (g t p).manager = p.2) : t.Unsourced fun t => g t (f t.manager) where
  same s := by
    show g (t.sourced s) (f (t.manager.sourced s)) = _
    rw [hf.same]
    exact hsame s (f t.manager)
  network := by
    show (g t (f t.manager)).manager.network = _
    rw [hmanager]
    exact hf.network

theorem unsourced_find (t : ConcurrentManager) (ticket : Nat) (id : String)
    (task : Container → Task) :
    t.Unsourced fun t => t.find ticket id task := by
  have hlookup (s : Source) : (t.sourced s).manager.lookup id = t.manager.lookup id := rfl
  refine ⟨fun s => ?_, ?_⟩
  · simp only [find, hlookup]
    cases t.manager.lookup id <;> rfl
  · simp only [find]
    cases t.manager.lookup id <;> rfl

theorem unsourced_ask (t : ConcurrentManager) {q : Request}
    (hq : ∀ name config, q ≠ .run name config) :
    t.Unsourced (·.ask q) := by
  have hfind (id : String) (task : Container → Task) :
      t.Unsourced fun t => { t with tickets := t.tickets + 1 }.find t.tickets id task := by
    have hfound := unsourced_find { t with tickets := t.tickets + 1 } t.tickets id task
    exact ⟨hfound.same, hfound.network⟩
  cases q with
  | run name config => exact absurd rfl (hq name config)
  | scale id n =>
    have hbegin : t.manager.Unsourced fun m => m.beginScale id n :=
      unsourced_of_vary fun v _ => Manager.vary_beginScale _ v id n
    refine ⟨fun s => ?_, ?_⟩
    · have hsame : (t.sourced s).manager.beginScale id n = _ := hbegin.same s
      simp only [ask, hsame]
      generalize t.manager.beginScale id n = begun
      obtain ⟨e | r, m⟩ := begun <;> rfl
    · have hnetwork := hbegin.network
      simp only [ask]
      generalize t.manager.beginScale id n = begun at hnetwork ⊢
      obtain ⟨e | r, m⟩ := begun <;> exact hnetwork
  | stop id => exact hfind ..
  | restart id => exact hfind ..
  | hotReload id => exact hfind ..
  | restartAll => exact ⟨fun _ => rfl, rfl⟩
  | cleanup => exact ⟨fun _ => rfl, rfl⟩

theorem unsourced_proceed (t : ConcurrentManager) (ticket : Nat) {task : Task}
    (htask : task.wanted? = none) : t.Unsourced (·.proceed ticket task) := by
  cases task with
  | fetch id name key => cases htask
  | run r name config bytes =>
    exact unsourced_after (t.manager.unsourced_endRun r name config bytes)
      (g := fun t p => t.ran ticket p.1 p.2) (fun _ _ => rfl) fun _ => rfl
  | scale r id n =>
    have hend : t.manager.Unsourced fun m => m.endScale r id n :=
      unsourced_of_vary fun v _ => Manager.vary_endScale _ v r id n
    refine unsourced_after hend (g := fun t p => t.scaled ticket p.1 p.2) ?_
      fun _ => manager_scaled ..
    rintro s ⟨e | ids, m⟩ <;> rfl
  | stop id =>
    have hremove : t.manager.Unsourced fun m => ((), m.remove id) :=
      unsourced_of_vary fun v _ => congrArg ((), ·) (Manager.vary_remove _ v id)
    exact unsourced_after hremove
      (g := fun t p => ((t.withManager p.2).mark [id] .stopped).answer ticket (.done (.ok ())))
      (fun _ _ => rfl) fun _ => rfl
  | restart id =>
    exact unsourced_after (t.manager.unsourced_act id Table.empty Container.beginRestart)
      (g := fun t p => ((t.withManager p.2).mark [id] .rested).enlist ticket (.rest id p.1))
      (fun _ _ => rfl) fun _ => rfl
  | rest id snapshot =>
    have hend : t.manager.Unsourced fun m => m.endRestart id snapshot :=
      unsourced_of_vary fun v _ => Manager.vary_endRestart _ v id snapshot
    refine ⟨fun s => ?_, hend.network⟩
    -- the mark depends on the result, which is the same with any source
    have hsame : (t.sourced s).manager.endRestart id snapshot = _ := hend.same s
    simp only [proceed, hsame]
    rfl
  | reload id key module =>
    exact unsourced_after (t.manager.unsourced_putIn id key module)
      (g := fun t p => (t.withManager p.2).answer ticket (.done p.1)) (fun _ _ => rfl) fun _ => rfl
  | sweep id =>
    have hhalt : t.manager.Unsourced fun m => ((), m.halt id) :=
      unsourced_of_vary fun v _ => congrArg ((), ·) (Manager.vary_halt _ v id)
    exact unsourced_after hhalt
      (g := fun t p => ((t.withManager p.2).mark [id] .stopped).answer ticket (.done (.ok ())))
      (fun _ _ => rfl) fun _ => rfl
  | gather parts cleans =>
    cases cleans with
    | false => exact ⟨fun _ => rfl, rfl⟩
    | true => exact ⟨fun _ => rfl, rfl⟩

theorem asks_proceed (t : ConcurrentManager) (ticket : Nat) (task : Task) :
    (∀ s, (∀ name ∈ task.wanted?,
        s.fetch name t.manager.network = t.manager.source.fetch name t.manager.network) →
      (t.sourced s).proceed ticket task = (t.proceed ticket task).sourced s) ∧
    (t.proceed ticket task).manager.network = task.wanted?.elim t.manager.network fun name =>
      (t.manager.source.fetch name t.manager.network).2 := by
  cases hwanted : task.wanted? with
  | none =>
    have hnothing := t.unsourced_proceed ticket hwanted
    exact ⟨fun s _ => hnothing.same s, hnothing.network⟩
  | some name =>
    cases task with
    | fetch id name' key =>
      obtain rfl : name' = name := Option.some.inj hwanted
      have hnetwork := t.manager.network_fetchAndCompile name'
      refine ⟨fun s h => ?_, ?_⟩
      · have hsame : (t.sourced s).manager.fetchAndCompile name' = _ :=
          Manager.sourced_fetchAndCompile (h name' rfl)
        simp only [proceed, hsame]
        generalize t.manager.fetchAndCompile name' = fetched
        obtain ⟨e | module, m⟩ := fetched <;> rfl
      · simp only [proceed]
        generalize t.manager.fetchAndCompile name' = fetched at hnetwork ⊢
        obtain ⟨e | module, m⟩ := fetched <;> exact hnetwork
    | _ => cases hwanted

theorem Unsourced.asks {x : Move} (h : t.Unsourced (·.move x)) (first : Nat) :
    t.Asks first (.move x) none where
  only s _ _ := ⟨s, congrArg (Outcome.done, ·) (h.same s)⟩
  network _ := h.network

theorem asks_go (t : ConcurrentManager) (first i : Nat) :
    t.Asks first (.move (.go i)) (t.fetches? (.move (.go i))) := by
  have hgoes (s : Source) : (t.sourced s).goesOn (.go i) = t.goesOn (.go i) := rfl
  show t.Asks first (.move (.go i)) ((t.goesOn (.go i)).bind fun e => e.2.wanted?)
  cases hgo : t.goesOn (.go i) with
  | none =>
    have hstays : t.Unsourced (·.move (.go i)) := by
      refine ⟨fun s => ?_, ?_⟩
      · show (t.sourced s).go i = (t.go i).sourced s
        rw [go_of_goesOn_none hgo, go_of_goesOn_none ((hgoes s).trans hgo)]
      · show (t.go i).manager.network = _
        rw [go_of_goesOn_none hgo]
    exact hstays.asks first
  | some e =>
    obtain ⟨ticket, task⟩ := e
    have hmoves (s : Source) : (t.sourced s).move (.go i) = _ :=
      (go_of_goesOn ((hgoes s).trans hgo)).2.2
    have hmove : t.move (.go i) = _ := (go_of_goesOn hgo).2.2
    obtain ⟨hsame, hnetwork⟩ := asks_proceed { t with tasks := t.tasks.eraseIdx i } ticket task
    refine ⟨fun s _ h => ⟨s, ?_⟩, fun _ => ?_⟩
    · show (Outcome.done, (t.sourced s).move (.go i)) = (.done, (t.move (.go i)).sourced s)
      rw [hmoves, hmove, ← hsame s h]
      rfl
    · show (t.move (.go i)).manager.network = _
      rw [hmove]
      exact hnetwork

theorem asks_run (t : ConcurrentManager) (first : Nat) (name : String) (config : ContainerConfig) :
    t.Asks first (.move (.ask (.run name config))) (t.manager.fetches? (.run name config)) := by
  obtain ⟨hsame, hnetwork⟩ := t.manager.asks_beginRun name config
  refine ⟨fun s hremote h => ⟨s, ?_⟩, fun _ => ?_⟩
  · have hbegins : (t.sourced s).manager.beginRun name config = _ := hsame s hremote h
    show (Outcome.done, (t.sourced s).ask (.run name config)) =
      (.done, (t.ask (.run name config)).sourced s)
    simp only [ask, hbegins]
    generalize t.manager.beginRun name config = begun
    obtain ⟨result | ⟨r, name, config, bytes⟩, m⟩ := begun <;> rfl
  · show (t.ask (.run name config)).manager.network = _
    rw [← hnetwork]
    simp only [ask]
    generalize t.manager.beginRun name config = begun
    obtain ⟨result | ⟨r, name, config, bytes⟩, m⟩ := begun <;> rfl

theorem unsourced_abandon (t : ConcurrentManager) (i : Nat) : t.Unsourced (·.abandon i) := by
  have htasks (s : Source) : (t.sourced s).tasks = t.tasks := rfl
  refine ⟨fun s => ?_, ?_⟩
  · simp only [abandon, htasks]
    cases t.tasks[i]?.bind (·.2.reservation?) <;> rfl
  · simp only [abandon]
    cases t.tasks[i]?.bind (·.2.reservation?) <;> rfl

theorem asks_move (t : ConcurrentManager) (first : Nat) (x : Move) :
    t.Asks first (.move x) (t.fetches? (.move x)) := by
  -- what an operation makes of the manager is all that changes
  have hwith {f : Manager → Unit × Manager} (hf : t.manager.Unsourced f) :
      t.Unsourced fun t => t.withManager (f t.manager).2 :=
    unsourced_after hf (g := fun t p => t.withManager p.2) (fun _ _ => rfl) fun _ => rfl
  cases x with
  | ask q =>
    cases q with
    | run name config => exact t.asks_run first name config
    | _ =>
      refine Unsourced.asks (x := .ask _) (t.unsourced_ask ?_) first
      rintro _ _ ⟨⟩
  | go i => exact t.asks_go first i
  | abandon i => exact Unsourced.asks (x := .abandon i) (t.unsourced_abandon i) first
  | interact id y =>
    have hinteract : t.manager.Unsourced fun m =>
        m.act id () fun c => ((), c.interact m.pool.clock.wall y) :=
      unsourced_of_vary fun v _ => Manager.vary_act _ v id () _
    exact Unsourced.asks (x := .interact id y) (hwith hinteract) first
  | observe event who => exact Unsourced.asks ⟨fun _ => rfl, rfl⟩ first
  | sleep d =>
    have hsleep : t.manager.Unsourced fun m => ((), m.sleep d) :=
      unsourced_of_vary fun v _ => congrArg ((), ·) (Manager.vary_sleep _ v d)
    exact Unsourced.asks (x := .sleep d) (hwith hsleep) first
  | pass d => exact Unsourced.asks ⟨fun _ => rfl, rfl⟩ first
  | surround source network outside => exact ⟨fun _ _ _ => ⟨source, rfl⟩, nofun⟩

theorem asks_doStep (t : ConcurrentManager) (first : Nat) (x : ManagerStep) : t.Asks first x
    (t.fetches? x) := by
  -- a report on all containers has nothing to do with the source
  have hreport {α : Type} {f : Manager → α × Manager} (hf : t.manager.Unsourced f)
      (outcome : α → Outcome) (s : Source) :
      (outcome (f (t.sourced s).manager).1, (t.sourced s).withManager (f (t.sourced s).manager).2) =
        (outcome (f t.manager).1, (t.withManager (f t.manager).2).sourced s) := by
    have hsame : f (t.sourced s).manager = _ := hf.same s
    rw [hsame]
    rfl
  cases x with
  | move x => exact t.asks_move first x
  | deploy id =>
    refine ⟨fun s _ _ => ⟨s, ?_⟩, nofun⟩
    have hdeploy : (t.sourced s).manager.deploy id = _ := t.manager.sourced_deploy id s
    simp only [doStep, hdeploy]
    rfl
  | health =>
    have hhealth : t.manager.Unsourced Manager.health :=
      unsourced_of_vary fun v _ => Manager.vary_askAll _ _ _ v
    exact ⟨fun s _ _ => ⟨s, hreport hhealth .checked s⟩, fun _ => hhealth.network⟩
  | metrics =>
    have hmetrics : t.manager.Unsourced Manager.metrics :=
      unsourced_of_vary fun v _ => Manager.vary_askAll _ _ _ v
    exact ⟨fun s _ _ => ⟨s, hreport hmetrics .measured s⟩, fun _ => hmetrics.network⟩
  | once event who => exact ⟨fun s _ _ => ⟨s, rfl⟩, fun _ => rfl⟩
  | off event number => exact ⟨fun s _ _ => ⟨s, rfl⟩, fun _ => rfl⟩
  | removeAll event => exact ⟨fun s _ _ => ⟨s, rfl⟩, fun _ => rfl⟩

end ConcurrentManager

/-! ## Names along all steps -/

namespace Pool

theorem enduresFor_named {y : Pool} (h : y.Named) : EnduresFor ValidName y Named where
  toKeeps := keeps_all fun _ _ hd hc => show ValidName _ from hd.lasts.name ▸ hc
  created hname := by
    refine All.create h fun id env c hc => ?_
    obtain ⟨g, -, halike⟩ := Container.create_made hc
    exact show ValidName c.name from halike.name ▸ hname
  scaled hs := All.scale h hs fun c hc tries r hr =>
    show ValidName r.name from (c.copied_scale tries r hr).name ▸ h _ c hc
  moved _ := h

end Pool

/-- Reports on all containers look at them only. -/
theorem Pool.Keeps.askAll {Q : Pool → Prop} (k : Keeps Container.Observed Q) {α : Type}
    {f : Container → α × Container} (hf : ∀ c, Container.Observed c (f c).2) (ids : List String)
    {m : Manager} (h : Q m.pool) : Q (Manager.askAll f ids m).2.pool := by
  induction ids generalizing m with
  | nil => exact h
  | cons id ids ih =>
    unfold Manager.askAll
    split
    · exact ih h
    · rename_i a y ha
      exact ih (k.withPool m (k.act h (fun c _ => hf c) ha))

namespace ConcurrentManager

variable {t : ConcurrentManager} {first : Nat}

def Rightful (y : Pool) : Task → Prop
  | .run _ name _ _ => ValidName name
  | .fetch id name _ => ∃ c, y.get? id = some c ∧ c.name = name
  | _ => True

/-- All names are valid ones: those of the containers, and those of the runs and reloads under way. -/
structure Confined (t : ConcurrentManager) : Prop where
  sane : t.Sane
  named : t.manager.pool.Named
  tasks : ∀ e ∈ t.tasks, Rightful t.manager.pool e.2

namespace Confined

theorem valid (h : t.Confined) {e : Nat × Task} (he : e ∈ t.tasks) {name : String}
    (hname : e.2.name? = some name) : ValidName name := by
  have hrightful := h.tasks e he
  obtain ⟨ticket, task⟩ := e
  cases task with
  | run r name' config bytes =>
    obtain rfl : name' = name := Option.some.inj hname
    exact hrightful
  | fetch id name' key =>
    obtain rfl : name' = name := Option.some.inj hname
    obtain ⟨c, hc, rfl⟩ := hrightful
    exact h.named id c hc
  | _ => cases hname

end Confined

theorem pool_deploy (m : Manager) (id : String) : (m.deploy id).2.pool = m.pool := by
  unfold Manager.deploy
  split
  · rfl
  · dsimp only
    split
    · rfl
    · split <;> rfl

theorem names_doStep (h : t.Sane) (x : ManagerStep) {id : String} {c : Container}
    (hc : t.manager.pool.get? id = some c) :
    ∃ d, (t.doStep first x).2.manager.pool.get? id = some d ∧ d.name = c.name := by
  have hreport {α : Type} {f : Container → α × Container}
      (hf : ∀ c, Container.Observed c (f c).2) :
      ∃ d, (Manager.askAll f t.manager.slots.ids t.manager).2.pool.get? id = some d ∧
        d.name = c.name := by
    obtain ⟨slots, st, hagrees⟩ := h
    have hlabelled : t.manager.pool.Labelled := hagrees.shows.pool.sound.named
    obtain ⟨d, hd, halike⟩ := ((Pool.keeps_alike t.manager.pool).askAll hf t.manager.slots.ids
      (hlabelled.tracks Container.Alike.refl)).became id c hc
    exact ⟨d, hd, halike.name⟩
  cases x with
  | move x =>
    obtain ⟨d, hd, hlasts⟩ := lasts_move h x hc
    exact ⟨d, hd, hlasts.name⟩
  | deploy id' =>
    refine ⟨c, ?_, rfl⟩
    show (t.manager.deploy id').2.pool.get? id = some c
    rw [pool_deploy]
    exact hc
  | health => exact hreport fun c => c.observed_health _
  | metrics => exact hreport fun c => c.observed_metrics _
  | _ => exact ⟨c, hc, rfl⟩

theorem Rightful.kept {y y' : Pool} (hnames : ∀ id c, y.get? id = some c →
    ∃ d, y'.get? id = some d ∧ d.name = c.name) {task : Task} (h : Rightful y task) :
    Rightful y' task := by
  cases task with
  | fetch id name key =>
    obtain ⟨c, hc, rfl⟩ := h
    exact hnames id c hc
  | run r name config bytes => exact h
  | _ => trivial

/-- A task that a move brings has a name with the same right as those that were there. -/
theorem rightful_of_begins (h : t.Confined) {x : Move} {e : Nat × Task} (hbegins : t.Begins x e) :
    Rightful t.manager.pool e.2 := by
  cases hbegins with
  | stays he => exact h.tasks e he
  | run hlooks r bytes => exact hlooks.2
  | scale hin r n => trivial
  | fetch hc ticket => exact ⟨_, (Manager.holds_of_get? hc).2, rfl⟩
  | reload htask module => trivial
  | plain hplain =>
    obtain ⟨ticket, task⟩ := e
    cases task with
    | run | fetch => cases hplain
    | _ => trivial

theorem confined_doStep (h : t.Confined) (first : Nat) (x : ManagerStep) :
    (t.doStep first x).2.Confined := by
  have hkept {task : Task} (hrightful : Rightful t.manager.pool task) :
      Rightful (t.doStep first x).2.manager.pool task :=
    hrightful.kept fun _ _ hc => names_doStep h.sane x hc
  have hreport {α : Type} {f : Container → α × Container}
      (hf : ∀ c, Container.Observed c (f c).2) :
      (Manager.askAll f t.manager.slots.ids t.manager).2.pool.Named :=
    Pool.keeps_named_sameModule.observed.askAll hf _ h.named
  refine ⟨sane_doStep h.sane x, ?_, ?_⟩
  · cases x with
    | move x =>
      exact (Pool.enduresFor_named h.named).move (fun _ hname => hname)
        (fun e he name hname => h.valid he hname) h.named x
    | deploy id =>
      show (t.manager.deploy id).2.pool.Named
      rw [pool_deploy]
      exact h.named
    | health => exact hreport fun c => c.observed_health _
    | metrics => exact hreport fun c => c.observed_metrics _
    | _ => exact h.named
  · intro e he
    cases x with
    | move x => exact hkept (rightful_of_begins h ((brings_move h.sane x).tasks e he))
    | _ => exact hkept (h.tasks e he)

theorem confined_doSteps (h : t.Confined) (first : Nat) (xs : List ManagerStep) :
    (doSteps first xs t).2.Confined := by
  induction xs generalizing t with
  | nil => exact h
  | cons x xs ih => exact ih (confined_doStep h first x)

theorem Confined.valid_fetches? (h : t.Confined) {x : ManagerStep} {name : String}
    (hname : t.fetches? x = some name) : ValidName name := by
  cases x with
  | move x =>
    cases x with
    | ask q =>
      cases q with
      | run name' config =>
        obtain ⟨rfl, hvalid⟩ := Manager.of_fetches?_run hname
        exact hvalid
      | _ => cases hname
    | go i =>
      obtain ⟨e, hgoes, hwanted⟩ := Option.bind_eq_some_iff.mp hname
      obtain ⟨ticket, task⟩ := e
      obtain ⟨he, -, -⟩ := go_of_goesOn hgoes
      cases task with
      | fetch id name' key => exact h.valid (List.mem_of_getElem? he) hwanted
      | _ => cases hwanted
    | _ => cases hname
  | _ => cases hname

theorem confined_opened {config : ManagerConfig} {host : Guest.Host} {source : Source}
    {deployer : Deployer} {network : Http.Network} {outside : Outside} {m : Manager}
    (hm : Manager.opened config host source deployer network outside = .ok m) :
    (opened m).Confined where
  sane := sane_of_opened rfl (shows_of_opened hm) []
  named := by
    rw [Manager.eq_of_opened hm]
    exact Pool.named_opened outside
  tasks _ he := nomatch he

/-- The source is asked for a valid name or for none when something is done: for the one that a run
was asked for, or for the one of the container that a reload goes by. -/
structure AsksRightly (t : ConcurrentManager) (first : Nat) (x : ManagerStep) : Prop where
  asks : t.Asks first x (t.fetches? x)
  valid : ∀ name ∈ t.fetches? x, ValidName name
  reloads : ∀ i ticket id name key, t.goesOn (.go i) = some (ticket, .fetch id name key) →
    ∃ c, t.manager.pool.get? id = some c ∧ c.name = name

theorem Confined.asksRightly (h : t.Confined) (first : Nat) (x : ManagerStep) :
    t.AsksRightly first x where
  asks := t.asks_doStep first x
  valid _ hname := h.valid_fetches? hname
  reloads _ _ _ _ _ hgoes := h.tasks _ (List.mem_of_getElem? (go_of_goesOn hgoes).1)

/-- Names stay confined. Whatever was done with a manager, and whatever is done next, its source is
asked for no name but a valid one, which is that of a run or that of the container of a reload. For
any text, a directory does not look at the disk if the text is no valid name, and else looks at two
of its own entries only, at the second if the first is no file; a registry sends no request if the
text is no valid name, and else the one for its own address with the name behind it. No two valid
names have a path or an address in common. -/
theorem names_confined {config : ManagerConfig} {host : Guest.Host} {source : Source}
    {deployer : Deployer} {network : Http.Network} {outside : Outside} {m : Manager}
    (hm : Manager.opened config host source deployer network outside = .ok m) (first : Nat)
    (before : List ManagerStep) (x : ManagerStep) :
    (doSteps first before (opened m)).2.AsksRightly first x ∧
    (∀ root name, Source.StaysBelow root name) ∧
    (∀ url timeout name, Registry.AsksOnly url timeout name) ∧
    ∀ name name', ValidName name → ValidName name' → name ≠ name' → Source.Apart name name' :=
  ⟨(confined_doSteps (confined_opened hm) first before).asksRightly first x, Source.staysBelow,
    Registry.asksOnly, fun _ _ => Source.apart⟩

/-- A container is run and scaled, a reload of its copy is asked for, and a deployment comes
between. -/
def copying : List ManagerStep :=
  [.move (.ask (.run "a" .standard)), .move (.go 0), .move (.ask (.scale firstId 1)), .move (.go 0),
    .deploy firstId, .move (.ask (.hotReload copyId))]

/-- The reload of the copy asks for the name that the run was asked for. A run asks for no name that
leads out of a directory, and the directory would not look for it. -/
theorem names_confined_copying :
    Manager.opened roomy solo.host solo.source solo.deployer .silent (.ofDirs []) = .ok lodge ∧
    (doSteps 1 copying (opened lodge)).2.fetches? (.move (.go 0)) = some "a" ∧ ValidName "a" ∧
    (doSteps 1 copying (opened lodge)).2.fetches? (.move (.ask (.run "../b" .standard))) = none ∧
    (∀ disk, ((Source.visit "/srv" "../b").on disk).2 = []) ∧
    (∀ disk, ∀ e ∈ ((Source.visit "/srv" "b").on disk).2, e.2 = "/srv/b.wasm" ∨ e.2 = "/srv/b.wat") ∧
    Source.Apart "a" "b" := by
  have hopened :
      Manager.opened roomy solo.host solo.source solo.deployer .silent (.ofDirs []) = .ok lodge := rfl
  obtain ⟨hasks, hdirectory, -, hapart⟩ := names_confined hopened 1 copying (.move (.go 0))
  have hname : (doSteps 1 copying (opened lodge)).2.fetches? (.move (.go 0)) = some "a" := by
    decide +kernel
  have hwasm : Source.below "/srv" ++ ("b" ++ ".wasm") = "/srv/b.wasm" := by decide +kernel
  have hwat : Source.below "/srv" ++ ("b" ++ ".wat") = "/srv/b.wat" := by decide +kernel
  refine ⟨hopened, hname, hasks.valid "a" hname, by decide +kernel, fun disk => ?_,
    fun disk e he => ?_, hapart "a" "b" rfl rfl (by decide)⟩
  · rw [((hdirectory "/srv" "../b").refused _ rfl).1]
    rfl
  · rcases (hdirectory "/srv" "b").looks rfl disk e he with hfirst | ⟨hsecond, -⟩
    · exact .inl (hfirst.trans hwasm)
    · exact .inr (hsecond.trans hwat)

end ConcurrentManager
end ContainerHost
