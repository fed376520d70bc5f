import ContainerHost.Proofs.Manager.Registry
import ContainerHost.Proofs.Manager.Transparency
import ContainerHost.Proofs.Manager.Upkeep
/-!
# What operations do to modules

Each operation of a manager that has to do with modules, said once: how a run comes by its module
(`run_cases`), how a reload does (`hotReload_cases`), and what is in the containers afterwards. A
restart makes a guest of the module that is there (`Restarted`), a reload puts in a new one as a whole
or not at all (`Reloaded`), and scaling hands the module on, where it ends (`endScale_ok`) and as a
whole (`scale_spec`). `KeepsModules` is all of this together.
-/

namespace ContainerHost

/-- The module in the cache is what the bytes give, with their digest and their size. -/
structure CachedModule.Of (host : Guest.Host) (name : String) (b : Blob) (c : CachedModule) :
    Prop where
  module : host.compile name b = .ok c.module
  digest : c.digest = Sha256.hexDigest b.toBytes
  size : c.size = b.toBytes.size

theorem Blob.size_toBytes (b : Blob) : b.toBytes.size = b.size := by
  cases b with
  | bytes b => rfl
  | zeros n => exact Array.size_replicate

theorem Manager.of_compile {m : Manager} {name : String} {b : Blob} {c : CachedModule}
    (h : m.compile name b = .ok c) : c.Of m.host name b := by
  unfold Manager.compile at h
  cases hb : m.host.compile name b with
  | error e => simp [hb, Except.map] at h
  | ok module =>
    simp only [hb, Except.map, Except.ok.injEq] at h
    subst h
    exact ⟨hb, rfl, b.size_toBytes.symm⟩

/-- The module may stand in a cache under the key: bytes of the log give it, and the key is one of the
name that they have there. -/
def CachedModule.Offered (host : Guest.Host) (log : List (String × Blob)) (key : String)
    (c : CachedModule) : Prop :=
  ∃ name config b, ValidName name ∧ key = ModuleCache.key name config ∧ (name, b) ∈ log ∧
    c.Of host name b

theorem CachedModule.Offered.mono {host : Guest.Host} {log log' : List (String × Blob)}
    {key : String} {c : CachedModule} (h : c.Offered host log key) (hlog : log ⊆ log') :
    c.Offered host log' key := by
  obtain ⟨name, config, b, hname, hkey, hb, hof⟩ := h
  exact ⟨name, config, b, hname, hkey, hlog hb, hof⟩

namespace ModuleCache

/-- What is in a cache to which a module was offered is that module or was there before. -/
theorem get?_keep {c : ModuleCache} {key key' : String} {module found : CachedModule}
    (h : (c.keep key module).2.entries.get? key' = some found) :
    (key' = key ∧ found = module) ∨ c.entries.get? key' = some found := by
  unfold keep at h
  split at h
  · exact .inr h
  · simp only [Table.get?_insert] at h
    split at h
    · rename_i heq
      exact .inl ⟨heq.symm, (Option.some.inj h).symm⟩
    · exact .inr h

end ModuleCache

namespace Manager

variable {m : Manager}

/-! ## Runs -/

/-- The name of the module that a request asks the source for. A run with a slot does so if the
module is not in the cache, and a reload always does. -/
def fetches? (m : Manager) : Request → Option String
  | .run name config =>
    match m.slots.reserve 1, validateName name, m.cache.entries.get? (ModuleCache.key name config) with
    | .ok _, .ok (), none => some name
    | _, _, _ => none
  | .hotReload id => (m.get? id).map (·.name)
  | _ => none

/-- The bytes that come for a request, under the name of the module. -/
def received (m : Manager) (q : Request) : List (String × Blob) :=
  match m.fetches? q with
  | none => []
  | some name =>
    match (m.source.fetch name m.network).1 with
    | .ok b => [(name, b)]
    | .error _ => []

/-- A container comes up in its sandbox with the module that it was started with, and is
registered. -/
theorem startContainer_ok {r : Reservation} {name : String} {c : ContainerConfig}
    {module : CachedModule} {id : String}
    (hstart : (m.startContainer r name c module).1 = .ok id) (h : m.pool.Labelled) :
    ∃ d, (m.startContainer r name c module).2.get? id = some d ∧ d.name = name ∧
      d.sandbox = m.sandbox c ∧ d.module = module.module ∧ d.digest = some module.digest := by
  simp only [startContainer, Pool.create] at hstart ⊢
  cases hc : Container.create (generateId name m.pool.stamp.1) name (m.sandbox c) module.module
      (some module.digest) m.pool.stamp.2.surroundings with
  | error e =>
    simp only [hc] at hstart
    cases hstart
  | ok q =>
    simp only [hc] at hstart ⊢
    obtain rfl : q.id = id := Except.ok.inj hstart
    obtain ⟨g, -, hq⟩ := Container.create_made hc
    have hstamped : m.pool.stamp.2.Labelled := h.of_same rfl
    have hput : ((m.pool.stamp.2.put q).pass (.micros 1)).Labelled := (hstamped.put q).of_same rfl
    have hstands : ((m.pool.stamp.2.put q).pass (.micros 1)).get? q.id =
        some { q with outbox := [] } := m.pool.stamp.2.get?_put_self q
    -- nothing is done to the container until it is announced but that it may report
    have hkeeps := Pool.keeps_alike ((m.pool.stamp.2.put q).pass (.micros 1))
    have htracks := hkeeps.register (hkeeps.withPool m (hput.tracks Container.Alike.refl)) r [q.id]
    obtain ⟨d, hd, halike⟩ := htracks.became q.id _ hstands
    refine ⟨d, ?_, halike.name.trans hq.name, halike.sandbox.trans hq.sandbox,
      halike.module.trans hq.module, halike.digest.trans hq.digest⟩
    have hholds : ((m.withPool ((m.pool.stamp.2.put q).pass (.micros 1))).register r
        [q.id]).slots.holds q.id = true := by
      simp only [register, drop, List.foldl_cons, List.foldl_nil, Slots.holds_drop]
      exact Slots.holds_commit.mpr (.inr List.mem_cons_self)
    exact get?_of_holds hholds hd

theorem moduleSupply_startContainer (m : Manager) (r : Reservation) (name : String)
    (c : ContainerConfig) (module : CachedModule) :
    (m.startContainer r name c module).2.moduleSupply = m.moduleSupply :=
  congrArg (fun p : _ × Manager => p.2.moduleSupply)
    (vary_startContainer m m.moduleSupply rfl r name c module)

theorem cache_startContainer (m : Manager) (r : Reservation) (name : String)
    (c : ContainerConfig) (module : CachedModule) :
    (m.startContainer r name c module).2.cache = m.cache :=
  congrArg ModuleSupply.cache (m.moduleSupply_startContainer r name c module)

/-- How a run goes: it fails and leaves containers and cache alone, or it starts what it finds in the
cache, or it starts what the bytes that it receives give and offers it to the cache. -/
inductive RunOf (m : Manager) (name : String) (c : ContainerConfig) :
    Except Failure String × Manager → Prop where
  | failed (e : Failure) (m' : Manager) (hyard : m'.pool = m.pool) (hhost : m'.host = m.host)
      (hsource : m'.source = m.source) (hentries : m'.cache.entries = m.cache.entries) :
      RunOf m name c (.error e, m')
  | found (r : Reservation) (slots : Slots) (module : CachedModule) (hname : ValidName name)
      (hfound : m.cache.entries.get? (ModuleCache.key name c) = some module) :
      RunOf m name c ({ m with
        slots := slots
        cache := (m.cache.lookup (ModuleCache.key name c)).2 }.startContainer r name c module)
  | made (r : Reservation) (slots : Slots) (b : Blob) (module : CachedModule)
      (hname : ValidName name) (hreceived : m.received (.run name c) = [(name, b)])
      (hmade : m.compile name b = .ok module) :
      RunOf m name c ({ m with
        slots := slots
        network := (m.source.fetch name m.network).2
        cache := ((m.cache.lookup (ModuleCache.key name c)).2.keep
          (ModuleCache.key name c) module).2 }.startContainer r name c module)

theorem run_cases (m : Manager) (name : String) (c : ContainerConfig) :
    m.RunOf name c (m.run name c) := by
  show m.RunOf name c (toEnd (m.beginRun name c))
  unfold beginRun
  cases hreserve : m.slots.reserve 1 with
  | error e => exact .failed e m rfl rfl rfl rfl
  | ok p =>
    obtain ⟨r, slots⟩ := p
    unfold resolve
    cases hname : validateName name with
    | error reason => exact .failed _ _ rfl rfl rfl rfl
    | ok u =>
      dsimp only
      cases hget : m.cache.entries.get? (ModuleCache.key name c) with
      | some module =>
        have hfound := RunOf.found (m := m) r slots module hname hget
        simpa only [toEnd, endRun, ModuleCache.lookup, hget] using hfound
      | none =>
        -- nothing stands under the key, so that the source is asked, at once or over the network
        simp only [ModuleCache.lookup, hget, fetch]
        cases hfetch : (m.source.fetch name m.network).1 with
        | error e =>
          by_cases hremote : m.source.isRemote = true
          · simp only [if_pos hremote]
            exact .failed _ _ rfl rfl rfl rfl
          · simp only [if_neg hremote]
            exact .failed _ _ rfl rfl rfl rfl
        | ok b =>
          have hreceived : m.received (.run name c) = [(name, b)] := by
            simp only [received, fetches?, hreserve, hname, hget, hfetch]
          have hsame (slots : Slots) (network : Http.Network) (cache : ModuleCache) :
              { m with slots := slots, network := network, cache := cache }.compile name b =
                m.compile name b := rfl
          simp only [toEnd, endRun, Except.bind, hsame]
          cases hmade : m.compile name b with
          | error e => exact .failed _ _ rfl rfl rfl rfl
          | ok module =>
            have hrun := RunOf.made (m := m) r slots b module hname hreceived hmade
            simp only [ModuleCache.lookup, hget] at hrun
            exact hrun

/-- A run leaves in the cache what was there, and may add what the bytes that it receives give. -/
theorem cached_run {name : String} {c : ContainerConfig} {key : String} {found : CachedModule}
    (h : (m.run name c).2.cache.entries.get? key = some found) :
    m.cache.entries.get? key = some found ∨
      found.Offered m.host (m.received (.run name c)) key := by
  have hcases := m.run_cases name c
  generalize m.run name c = ran at hcases h
  cases hcases with
  | failed e m' hyard hhost hsource hentries => exact .inl (hentries ▸ h)
  | found r slots module hname hfound =>
    rw [cache_startContainer, ModuleCache.entries_lookup] at h
    exact .inl h
  | made r slots b module hname hreceived hmade =>
    rw [cache_startContainer] at h
    rcases ModuleCache.get?_keep h with ⟨rfl, rfl⟩ | hold
    · refine .inr ⟨name, c, b, hname, rfl, ?_, of_compile hmade⟩
      rw [hreceived]
      exact List.mem_cons_self
    · rw [ModuleCache.entries_lookup] at hold
      exact .inl hold

/-! ## Reloads -/

/-- How a reload goes: it finds no container, or no module, or it puts in what the bytes that it
receives give. -/
inductive ReloadOf (m : Manager) (id : String) : Except Error Unit × Manager → Prop where
  | missing (e : Error) (hc : m.get? id = none) : ReloadOf m id (.error e, m)
  | failed (e : Error) (network : Http.Network) :
      ReloadOf m id (.error e, { m with network := network })
  | made (c : Container) (network : Http.Network) (b : Blob) (module : CachedModule)
      (hc : m.get? id = some c) (hfetch : (m.source.fetch c.name m.network).1 = .ok b)
      (hmade : m.compile c.name b = .ok module) :
      ReloadOf m id ({ m with network := network }.putIn id (ModuleCache.key c.name c.config) module)

theorem hotReload_cases (m : Manager) (id : String) : m.ReloadOf id (m.hotReload id) := by
  unfold hotReload lookup
  cases hc : m.get? id with
  | none => exact .missing _ hc
  | some c =>
    simp only [fetchAndCompile, fetch]
    cases hfetch : (m.source.fetch c.name m.network).1 with
    | error e => exact .failed _ _
    | ok b =>
      have hsame (network : Http.Network) :
          { m with network := network }.compile c.name b = m.compile c.name b := rfl
      simp only [hsame]
      cases hmade : m.compile c.name b with
      | error e => exact .failed _ _
      | ok module => exact .made c _ b module hc hfetch hmade

theorem moduleSupply_act {α : Type} (m : Manager) (id : String) (default : α)
    (f : Container → α × Container) : (m.act id default f).2.moduleSupply = m.moduleSupply :=
  congrArg (fun p : _ × Manager => p.2.moduleSupply) (vary_act m m.moduleSupply id default f)

/-- A module is put in as a whole, and offered to the cache then; or the container stays as it is. -/
theorem putIn_spec (h : m.pool.Labelled) {id : String} {c : Container} (hc : m.get? id = some c)
    (key : String) (module : CachedModule) :
    match m.putIn id key module with
    | (.error _, m') => m'.moduleSupply = m.moduleSupply ∧ ∃ d, m'.get? id = some d ∧ c.Alike d
    | (.ok (), m') => m'.moduleSupply = { m.moduleSupply with cache := (m.cache.keep key module).2 } ∧
      ∃ g d, c.sandbox.instantiate m.pool.surroundings module.module id = .ok g ∧ m'.get? id = some d ∧
        Container.Alike { c with
          module := module.module, digest := some module.digest, guest := some g } d := by
  obtain ⟨hholds, hget⟩ := holds_of_get? hc
  have hid := h id c hget
  obtain ⟨hresult, -, hafter⟩ := act_spec hget (.ok ()) fun c =>
    c.hotReload module.module (some module.digest) m.pool.surroundings
  have hback := moduleSupply_act m id (.ok ()) fun c =>
    c.hotReload module.module (some module.digest) m.pool.surroundings
  have hslots := m.slots_act id (.ok ()) fun c =>
    c.hotReload module.module (some module.digest) m.pool.surroundings
  have hspec := c.hotReload_made module.module (some module.digest) m.pool.surroundings
  simp only [putIn]
  generalize m.act id (.ok ()) (fun c =>
    c.hotReload module.module (some module.digest) m.pool.surroundings) = acted
    at hresult hafter hback hslots ⊢
  generalize c.hotReload module.module (some module.digest) m.pool.surroundings = reloaded
    at hspec hresult hafter
  obtain ⟨result, m'⟩ := acted
  obtain ⟨e | u, d⟩ := reloaded
  · obtain rfl : result = .error e := hresult
    obtain ⟨-, rfl⟩ := hspec
    -- nothing was put in, and nothing is offered
    refine ⟨hback, { d with outbox := [] }, ?_, d.alike_cleared⟩
    rw [hid] at hafter
    exact get?_of_holds (hslots ▸ hholds) hafter
  · obtain rfl : result = .ok () := hresult
    obtain ⟨g, hmade, hd⟩ := hspec
    have hdid : d.id = id := hd.id.trans hid
    refine ⟨?_, g, { d with outbox := [] }, hid ▸ hmade, ?_, hd.trans d.alike_cleared⟩
    · exact congrArg (fun v : ModuleSupply => { v with cache := (v.cache.keep key module).2 }) hback
    · rw [hdid] at hafter
      exact get?_of_holds (hslots ▸ hholds) hafter

/-- Whatever is put into a container, the others are left alone. -/
theorem keeps_putIn {Q : Pool → Prop} {R : Container → Container → Prop} (k : Pool.Keeps R Q)
    (h : Q m.pool) (id key : String) (module : CachedModule)
    (hR : ∀ c, m.pool.get? id = some c →
      R c (c.hotReload module.module (some module.digest) m.pool.surroundings).2) :
    Q (m.putIn id key module).2.pool := by
  have hacted := k.acted h id (.ok ()) (f := fun c =>
    c.hotReload module.module (some module.digest) m.pool.surroundings) hR
  simp only [putIn]
  generalize m.act id (.ok ()) (fun c =>
    c.hotReload module.module (some module.digest) m.pool.surroundings) = acted at hacted ⊢
  obtain ⟨e | u, m'⟩ := acted
  · exact hacted
  · exact hacted

/-- What a reload has done to a container: it put in what the bytes that were received give, with
their digest and a guest, all together, or nothing. -/
def Reloaded (m : Manager) (id : String) (c : Container) : Except Error Unit × Manager → Prop
  | (.ok (), m') => ∃ b module g d, (m.source.fetch c.name m.network).1 = .ok b ∧
    m.host.compile c.name b = .ok module ∧
    c.sandbox.instantiate m.pool.surroundings module id = .ok g ∧ m'.get? id = some d ∧
    Container.Alike { c with
      module := module, digest := some (Sha256.hexDigest b.toBytes), guest := some g } d
  | (.error _, m') => ∃ d, m'.get? id = some d ∧ c.Alike d

theorem hotReload_spec (h : m.pool.Labelled) {id : String} {c : Container}
    (hc : m.get? id = some c) : m.Reloaded id c (m.hotReload id) := by
  have hcases := m.hotReload_cases id
  generalize m.hotReload id = reloaded at hcases ⊢
  cases hcases with
  | missing e hnone =>
    rw [hc] at hnone
    cases hnone
  | failed e network => exact ⟨c, hc, Container.Alike.refl c⟩
  | made c' network b module hc' hfetch hmade =>
    obtain rfl : c = c' := Option.some.inj (hc.symm.trans hc')
    have hspec := putIn_spec (m := { m with network := network }) h hc
      (ModuleCache.key c.name c.config) module
    have hof := of_compile hmade
    generalize { m with network := network }.putIn id (ModuleCache.key c.name c.config) module =
      put at hspec ⊢
    obtain ⟨e | u, m'⟩ := put
    · obtain ⟨-, d, hd, halike⟩ := hspec
      exact ⟨d, hd, halike⟩
    · obtain ⟨-, g, d, hguest, hd, halike⟩ := hspec
      rw [hof.digest] at halike
      exact ⟨b, module.module, g, d, hfetch, hof.module, hguest, hd, halike⟩

/-- Putting a module in changes the cache at most, beside the container. -/
theorem moduleSupply_putIn (m : Manager) (id key : String) (module : CachedModule) :
    ∃ cache, (m.putIn id key module).2.moduleSupply = { m.moduleSupply with cache := cache } := by
  have hback := m.moduleSupply_act id (.ok ()) fun c =>
    c.hotReload module.module (some module.digest) m.pool.surroundings
  simp only [putIn]
  generalize m.act id (.ok ()) (fun c =>
    c.hotReload module.module (some module.digest) m.pool.surroundings) = acted at hback ⊢
  obtain ⟨e | u, m'⟩ := acted
  · exact ⟨m.cache, hback⟩
  · exact ⟨_,
      congrArg (fun v : ModuleSupply => { v with cache := (v.cache.keep key module).2 }) hback⟩

theorem received_hotReload {id : String} {c : Container} {b : Blob} (hc : m.get? id = some c)
    (hfetch : (m.source.fetch c.name m.network).1 = .ok b) :
    m.received (.hotReload id) = [(c.name, b)] := by
  simp only [received, fetches?, hc, Option.map_some, hfetch]

/-- A reload leaves in the cache what was there, and may add what the bytes that it receives give. -/
theorem cached_hotReload (h : m.pool.Labelled) {id : String}
    (hname : ∀ c, m.get? id = some c → ValidName c.name) {key : String} {found : CachedModule}
    (hget : (m.hotReload id).2.cache.entries.get? key = some found) :
    m.cache.entries.get? key = some found ∨
      found.Offered m.host (m.received (.hotReload id)) key := by
  have hcases := m.hotReload_cases id
  generalize m.hotReload id = reloaded at hcases hget
  cases hcases with
  | missing e hc => exact .inl hget
  | failed e network => exact .inl hget
  | made c network b module hc hfetch hmade =>
    have hspec := putIn_spec (m := { m with network := network }) h hc
      (ModuleCache.key c.name c.config) module
    generalize { m with network := network }.putIn id (ModuleCache.key c.name c.config) module =
      put at hspec hget
    obtain ⟨e | u, m'⟩ := put
    · have hcache : m'.cache = m.cache := congrArg ModuleSupply.cache hspec.1
      exact .inl (hcache ▸ hget)
    · have hcache : m'.cache = (m.cache.keep (ModuleCache.key c.name c.config) module).2 :=
        congrArg ModuleSupply.cache hspec.1
      change m'.cache.entries.get? key = some found at hget
      rw [hcache] at hget
      rcases ModuleCache.get?_keep hget with ⟨rfl, rfl⟩ | hold
      · refine .inr ⟨c.name, c.config, b, hname c hc, rfl, ?_, of_compile hmade⟩
        rw [received_hotReload hc hfetch]
        exact List.mem_cons_self
      · exact .inl hold

/-! ## Restarts -/

theorem lookup_of_get? {id : String} {c : Container} (h : m.get? id = some c) :
    m.lookup id = .ok c := by
  unfold lookup
  rw [h]

/-- The second half of a restart, of a container that has rested. -/
theorem endRestart_spec (h : m.pool.Labelled) {id : String} {c : Container}
    (hget : m.pool.get? id = some c) (snapshot : State) :
    (m.endRestart id snapshot).2.slots = m.slots ∧
    match m.endRestart id snapshot with
    | (.ok (), m') => ∃ g d, c.sandbox.instantiate m.pool.surroundings c.module id = .ok g ∧
      m'.pool.get? id = some d ∧ Container.Alike { c with guest := some g } d
    | (.error e, m') => ∃ e' d, c.sandbox.instantiate m.pool.surroundings c.module id = .error e' ∧
      e = .restartFailed id e' ∧ m'.pool.get? id = some d ∧ c.Alike d := by
  have hid := h id c hget
  obtain ⟨hresult, -, hafter⟩ := act_spec hget (.error (.containerNotFound id)) fun c =>
    c.endRestart snapshot m.pool.surroundings
  have hslots := m.slots_act id (.error (.containerNotFound id)) fun c =>
    c.endRestart snapshot m.pool.surroundings
  have hlabelled := (Pool.keeps_labelled fun _ _ => True).acted h id
    (.error (.containerNotFound id)) (f := fun c => c.endRestart snapshot m.pool.surroundings)
    fun _ _ => trivial
  have hspec := c.endRestart_made snapshot m.pool.surroundings
  simp only [endRestart]
  generalize m.act id (.error (.containerNotFound id)) (fun c =>
    c.endRestart snapshot m.pool.surroundings) = acted at hresult hafter hslots hlabelled ⊢
  generalize c.endRestart snapshot m.pool.surroundings = ended at hspec hresult hafter
  obtain ⟨result, m'⟩ := acted
  obtain ⟨e | u, d⟩ := ended
  · obtain rfl : result = .error e := hresult
    obtain ⟨⟨e', hmade, rfl⟩, hd⟩ := hspec
    rw [show d.id = id from hd.id.trans hid] at hafter
    exact ⟨hslots, e', { d with outbox := [] }, hid ▸ hmade,
      congrArg (Error.restartFailed · e') hid, hafter, hd.trans d.alike_cleared⟩
  · obtain rfl : result = .ok () := hresult
    obtain ⟨g, hmade, hd⟩ := hspec
    rw [show d.id = id from hd.id.trans hid] at hafter
    -- the report that starts now is all that happens to the container until it is announced
    have htracks := (Pool.keeps_alike m'.pool).afterRestart
      (hlabelled.tracks Container.Alike.refl) id (.ok ())
    obtain ⟨f, hf, halike⟩ := htracks.became id _ hafter
    exact ⟨(m'.slots_afterRestart id (.ok ())).trans hslots, g, f, hid ▸ hmade, hf,
      hd.trans (d.alike_cleared.trans halike)⟩

/-- What a restart has done to a container, by what surrounds it when it comes up: it made a guest of
the module that the container keeps, or none can be made and the container is left as a stop leaves
it. -/
def Restarted (m : Manager) (id : String) (c : Container) (p : Except Error Unit × Manager) : Prop :=
  ∃ env : Surroundings, env.outside = m.pool.outside ∧
    match p with
    | (.ok (), m') => ∃ g d, c.sandbox.instantiate env c.module id = .ok g ∧
      m'.get? id = some d ∧ Container.Alike { c with guest := some g } d
    | (.error e, m') => ∃ e' d, c.sandbox.instantiate env c.module id = .error e' ∧
      e = .restartFailed id e' ∧ m'.get? id = some d ∧ c.stop.Alike d

theorem restart_spec (h : m.pool.Labelled) {id : String} {c : Container}
    (hc : m.get? id = some c) : m.Restarted id c (m.restart id) := by
  obtain ⟨hholds, hget⟩ := holds_of_get? hc
  have hstop := c.sameModule_stop
  obtain ⟨-, houtside, hstopped⟩ := act_spec hget .empty Container.beginRestart
  rw [show c.beginRestart.2.id = id from hstop.id.trans (h id c hget)] at hstopped
  have hlabelled := (Pool.keeps_labelled fun _ _ => True).acted h id .empty
    (f := Container.beginRestart) fun _ _ => trivial
  have hslots := m.slots_act id .empty Container.beginRestart
  unfold restart
  rw [lookup_of_get? hc]
  simp only [beginRestart]
  generalize m.act id .empty Container.beginRestart = begun at houtside hstopped hlabelled hslots ⊢
  -- the rest only lets time pass, so that the stopped container is found again after it
  have hrested := (Pool.keeps_alike begun.2.pool).slept
    (hlabelled.tracks Container.Alike.refl) Limits.restartGrace
  obtain ⟨d, hd, halike⟩ := hrested.became id _ hstopped
  obtain ⟨hslots', hended⟩ := endRestart_spec hrested.labelled hd begun.1
  rw [slots_sleep, hslots] at hslots'
  generalize (begun.2.sleep Limits.restartGrace).endRestart id begun.1 = ended at hslots' hended ⊢
  have hmade (env : Surroundings) :
      d.sandbox.instantiate env d.module id = c.sandbox.instantiate env c.module id :=
    calc d.sandbox.instantiate env d.module id
      _ = c.stop.sandbox.instantiate env c.stop.module id := by
        rw [halike.sandbox, halike.module]
        rfl
      _ = c.sandbox.instantiate env c.module id := by rw [hstop.sandbox, hstop.module]
  have hregistered {f : Container} (hf : ended.2.pool.get? id = some f) :
      ended.2.get? id = some f := get?_of_holds (hslots' ▸ hholds) hf
  refine ⟨(begun.2.sleep Limits.restartGrace).pool.surroundings, hrested.outside.trans houtside, ?_⟩
  obtain ⟨e | u, m'⟩ := ended
  · obtain ⟨e', f, hfailed, rfl, hf, hfd⟩ := hended
    exact ⟨e', f, (hmade _).symm.trans hfailed, rfl, hregistered hf,
      c.stop.alike_cleared.trans (halike.trans hfd)⟩
  · obtain ⟨g, f, hworked, hf, hfd⟩ := hended
    refine ⟨g, f, (hmade _).symm.trans hworked, hregistered hf, ?_⟩
    exact ⟨(hfd.id.trans halike.id).trans hstop.id, (hfd.name.trans halike.name).trans hstop.name,
      (hfd.sandbox.trans halike.sandbox).trans hstop.sandbox,
      (hfd.module.trans halike.module).trans hstop.module,
      (hfd.digest.trans halike.digest).trans hstop.digest, hfd.guest⟩

theorem slots_restartAll (m : Manager) : m.restartAll.2.slots = m.slots := by
  have hfold (l : List (String × Except Error Unit)) (n : Manager) :
      (l.foldl (fun m p => m.afterRestart p.1 p.2) n).slots = n.slots := by
    induction l generalizing n with
    | nil => rfl
    | cons p l ih => exact (ih _).trans (n.slots_afterRestart p.1 p.2)
  exact (hfold _ _).trans (m.slots_withPool _)

/-- Restarting all containers, each is there afterwards as restarts leave it. -/
theorem restartAll_spec (h : m.pool.Labelled) {id : String} {c : Container}
    (hc : m.get? id = some c) : ∃ d, m.restartAll.2.get? id = some d ∧ c.SameModule d := by
  obtain ⟨hholds, hget⟩ := holds_of_get? hc
  have hrefl (c : Container) : c.SameModule c := (Container.Alike.refl c).sameModule
  have htracks := (Pool.keeps_sameModule m.pool).restartAll (h.tracks hrefl)
  obtain ⟨d, hd, htended⟩ := htracks.became id c hget
  exact ⟨d, get?_of_holds (m.slots_restartAll ▸ hholds) hd, htended⟩

/-! ## Scaling -/

/-- Scaling that ends well has made containers like the one that it was asked for, and registered
them. -/
theorem endScale_ok (h : m.pool.Labelled) {r : Reservation} {id : String} {n : Nat}
    {ids : List String} (hscale : (m.endScale r id n).1 = .ok ids) :
    ∃ c, m.pool.get? id = some c ∧
      ∀ x ∈ ids, ∃ d, (m.endScale r id n).2.get? x = some d ∧ c.Copied d := by
  unfold endScale at hscale ⊢
  rcases hs : m.pool.scale id n with _ | ⟨e | made, y⟩
  · rw [hs] at hscale
    cases hscale
  · rw [hs] at hscale
    cases hscale
  · rw [hs] at hscale
    obtain rfl : made = ids := Except.ok.inj hscale
    obtain ⟨c, hc, -⟩ := Option.bind_eq_some_iff.mp hs
    refine ⟨c, hc, fun x hx => ?_⟩
    -- what scaling made stands in the pool, and is left alone until it is announced
    obtain ⟨d, hd, hcopied⟩ := Pool.copied_of_scale hc hs x hx
    have hkeeps := Pool.keeps_alike y
    have hmade := hkeeps.withPool m ((h.scale hs).tracks Container.Alike.refl)
    obtain ⟨e, he, halike⟩ :=
      (Pool.Keeps.announceScaled (hkeeps.register hmade r made) id n made).became x d hd
    refine ⟨e, get?_of_holds ?_ he, hcopied.sameModule halike.sameModule⟩
    rw [slots_announceScaled]
    simp only [register, drop, Slots.holds_drop]
    exact Slots.holds_commit.mpr (.inr hx)

/-- Scaling makes containers of the module that the container keeps, and registers them. -/
theorem scale_spec (h : m.pool.Labelled) {id : String} {n : Nat} {ids : List String}
    (hscale : (m.scale id n).1 = .ok ids) :
    ∃ c, m.get? id = some c ∧
      ∀ x ∈ ids, ∃ r, (m.scale id n).2.get? x = some r ∧ c.Copied r := by
  unfold scale beginScale at hscale ⊢
  cases hlookup : m.lookup id with
  | error e =>
    simp only [hlookup] at hscale
    cases hscale
  | ok c =>
    have hc := get?_of_lookup hlookup
    cases hreserve : m.slots.reserve n with
    | error e =>
      simp only [hlookup, hreserve] at hscale
      cases hscale
    | ok p =>
      simp only [hlookup, hreserve] at hscale ⊢
      obtain ⟨c', hc', hmade⟩ := endScale_ok (m := { m with slots := p.2 }) h hscale
      obtain rfl : c = c' := Option.some.inj ((holds_of_get? hc).2.symm.trans hc')
      exact ⟨c, hc, hmade⟩

/-! ## All operations -/

/-- What operations do to the modules of containers. -/
structure KeepsModules (m : Manager) : Prop where
  restart : ∀ id c, m.get? id = some c → m.Restarted id c (m.restart id)
  restartAll : ∀ id c, m.get? id = some c → ∃ d, m.restartAll.2.get? id = some d ∧ c.SameModule d
  scale : ∀ id n ids, (m.scale id n).1 = .ok ids → ∃ c, m.get? id = some c ∧
    ∀ x ∈ ids, ∃ r, (m.scale id n).2.get? x = some r ∧ c.Copied r
  hotReload : ∀ id c, m.get? id = some c → m.Reloaded id c (m.hotReload id)

theorem keepsModules (h : m.pool.Labelled) : m.KeepsModules where
  restart := fun _ _ hc => restart_spec h hc
  restartAll := fun _ _ hc => restartAll_spec h hc
  scale := fun _ _ _ hscale => scale_spec h hscale
  hotReload := fun _ _ hc => hotReload_spec h hc

end Manager
end ContainerHost
