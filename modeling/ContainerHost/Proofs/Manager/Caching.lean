import ContainerHost.Proofs.Manager.ModuleSupply
import ContainerHost.Proofs.Manager.Holdings
import ContainerHost.Proofs.Names
/-!
# What a cache keeps

A cache is `Coherent` with the contents of a source when it only holds what fetching and compiling
would give again, and has counted it right. The key of a module tells its name (`name_of_key`) and
the name decides what is fetched, so a module that was kept for one container, by a run or a reload,
may be handed out to any other.

A run and a reload of a manager with such a cache do what they do when the module is made anew
(`run_eq`, `hotReload_eq`): a module that is found, one that is kept and one that is refused differ
in the module supply only.
-/

namespace ContainerHost

def Guest.Host.made (h : Guest.Host) (contents : String → Except Error Blob) (name : String) :
    Except Error CachedModule :=
  (contents name).bind fun b => (h.compile name b).map fun module => ⟨module, b.digest, b.size⟩

/-- No module is compiled that is larger than modules may be. -/
theorem size_of_made {h : Guest.Host} {contents : String → Except Error Blob} {name : String}
    {module : CachedModule} (hm : h.made contents name = .ok module) :
    module.size ≤ Limits.maxModuleSize := by
  unfold Guest.Host.made Guest.Host.compile Guest.Compiled.ofBlob at hm
  cases hb : contents name with
  | error e => simp [hb, Except.bind] at hm
  | ok b =>
    simp only [hb, Except.bind] at hm
    split at hm
    · cases hm
    · rename_i hle
      split at hm
      · cases hm
        exact Nat.not_lt.mp hle
      · cases hm

namespace ModuleCache

/-! ## Coherence -/

/-- A cache holds what would be made again, and counts its size. -/
structure Coherent (contents : String → Except Error Blob) (host : Guest.Host)
    (c : ModuleCache) : Prop where
  made : ∀ key module, c.entries.get? key = some module →
    ∃ name config, ValidName name ∧ key = ModuleCache.key name config ∧
      host.made contents name = .ok module
  ordered : c.entries.Ordered
  bytes : c.bytes = sizes c.entries
  fits : c.bytes ≤ c.capacity

variable {contents : String → Except Error Blob} {host : Guest.Host} {c : ModuleCache}

theorem coherent_empty (contents : String → Except Error Blob) (host : Guest.Host)
    (capacity : Nat) : (empty capacity).Coherent contents host where
  made := fun key module h => by cases h
  ordered := Table.ordered_empty
  bytes := rfl
  fits := Nat.zero_le _

theorem coherent_clear (contents : String → Except Error Blob) (host : Guest.Host)
    (c : ModuleCache) : c.clear.Coherent contents host where
  made := fun key module h => by cases h
  ordered := Table.ordered_empty
  bytes := rfl
  fits := Nat.zero_le _

/-- Looking up counts, and changes nothing else. -/
theorem Coherent.lookup (h : c.Coherent contents host) (key : String) :
    (c.lookup key).2.Coherent contents host ∧ (c.lookup key).2.capacity = c.capacity := by
  unfold ModuleCache.lookup
  split <;> exact ⟨⟨h.made, h.ordered, h.bytes, h.fits⟩, rfl⟩

theorem Coherent.found (h : c.Coherent contents host) {name : String} (hname : ValidName name)
    {config : ContainerConfig} {module : CachedModule}
    (hfound : (c.lookup (key name config)).1 = some module) :
    host.made contents name = .ok module := by
  unfold ModuleCache.lookup at hfound
  split at hfound
  · rename_i found hget
    cases hfound
    obtain ⟨other, config', hother, hkey, hmade⟩ := h.made _ _ hget
    rw [name_of_key hname hother hkey]
    exact hmade
  · cases hfound

theorem Coherent.balanced (h : c.Coherent contents host) : c.Balanced := ⟨h.ordered, h.bytes, h.fits⟩

/-- Whether a module that was made is kept or refused, the cache stays coherent. -/
theorem Coherent.keep (h : c.Coherent contents host) {name : String} (hname : ValidName name)
    (config : ContainerConfig) {module : CachedModule}
    (hmade : host.made contents name = .ok module) :
    (c.keep (key name config) module).2.Coherent contents host ∧
      (c.keep (key name config) module).2.capacity = c.capacity := by
  have hbalanced := h.balanced.keep (key name config) module
  unfold ModuleCache.keep at hbalanced ⊢
  split at hbalanced
  · rename_i hover
    rw [if_pos hover]
    exact ⟨h, rfl⟩
  · rename_i hfits
    rw [if_neg hfits]
    refine ⟨⟨?_, hbalanced.ordered, hbalanced.bytes, hbalanced.fits⟩, rfl⟩
    intro key' module' hget
    simp only [Table.get?_insert] at hget
    split at hget
    · rename_i hkey
      cases hget
      exact ⟨name, config, hname, hkey.symm, hmade⟩
    · exact h.made key' module' hget

end ModuleCache

/-! ## Making modules anew -/

namespace ModuleSupply

/-- What the cache holds is what the contents of the source give. -/
structure Stocked (contents : String → Except Error Blob) (v : ModuleSupply) : Prop where
  coherent : v.cache.Coherent contents v.host
  sized : v.cache.capacity = v.cacheSize

/-- What may become of a module supply: requests were made, and the cache may hold other modules. -/
structure Becomes (contents : String → Except Error Blob) (v w : ModuleSupply) : Prop where
  host : w.host = v.host
  source : w.source = v.source
  cacheSize : w.cacheSize = v.cacheSize
  stocked : w.Stocked contents

variable {contents : String → Except Error Blob} {v w x : ModuleSupply}

theorem Stocked.becomes (h : v.Stocked contents) : v.Becomes contents v := ⟨rfl, rfl, rfl, h⟩

theorem Becomes.trans (h : v.Becomes contents w) (g : w.Becomes contents x) :
    v.Becomes contents x :=
  ⟨g.host.trans h.host, g.source.trans h.source, g.cacheSize.trans h.cacheSize, g.stocked⟩

theorem Stocked.network (h : v.Stocked contents) (network : Http.Network) :
    v.Becomes contents { v with network := network } := ⟨rfl, rfl, rfl, h.coherent, h.sized⟩

theorem Stocked.lookup (h : v.Stocked contents) (key : String) :
    v.Becomes contents { v with cache := (v.cache.lookup key).2 } := by
  obtain ⟨hcoherent, hcapacity⟩ := h.coherent.lookup key
  exact ⟨rfl, rfl, rfl, hcoherent, hcapacity.trans h.sized⟩

theorem Stocked.keep (h : v.Stocked contents) {name : String} (hname : ValidName name)
    (config : ContainerConfig) {module : CachedModule}
    (hmade : v.host.made contents name = .ok module) :
    v.Becomes contents
      { v with cache := (v.cache.keep (ModuleCache.key name config) module).2 } := by
  obtain ⟨hcoherent, hcapacity⟩ := h.coherent.keep hname config hmade
  exact ⟨rfl, rfl, rfl, hcoherent, hcapacity.trans h.sized⟩

theorem Stocked.clear (h : v.Stocked contents) :
    v.Becomes contents { v with cache := v.cache.clear } :=
  ⟨rfl, rfl, rfl, ModuleCache.coherent_clear contents v.host v.cache, h.sized⟩

end ModuleSupply

namespace Manager

variable {contents : String → Except Error Blob} {m : Manager}

def resolveAnew (contents : String → Except Error Blob) (m : Manager) (r : Reservation)
    (name : String) (c : ContainerConfig) : Except Failure String × Manager :=
  match validateName name with
  | .error reason => m.failRun r name (.invalidContainerId name reason)
  | .ok () =>
    match m.host.made contents name with
    | .error e => m.failRun r name e
    | .ok module => m.startContainer r name c module

def runAnew (contents : String → Except Error Blob) (m : Manager) (name : String)
    (c : ContainerConfig) : Except Failure String × Manager :=
  match m.slots.reserve 1 with
  | .error e => (.error e, m)
  | .ok (r, slots) => { m with slots := slots }.resolveAnew contents r name c

def putInAnew (m : Manager) (id : String) (module : CachedModule) : Except Error Unit × Manager :=
  let (r, m) := m.act id (.ok ()) fun c =>
    c.hotReload module.module (some module.digest) m.pool.surroundings
  match r with
  | .error e => (.error (reloadFailed id e), m)
  | .ok () =>
    (.ok (), m.announceFor .containerHotReloaded id [("moduleDigest", .str module.digest)])

def reloadAnew (contents : String → Except Error Blob) (m : Manager) (id : String) :
    Except Error Unit × Manager :=
  match m.lookup id with
  | .error e => (.error e, m)
  | .ok c =>
    match m.host.made contents c.name with
    | .error e => (.error (reloadFailed id e), m)
    | .ok module => m.putInAnew id module

theorem vary_resolveAnew {v : ModuleSupply} (h : v.host = m.host) (r : Reservation) (name : String)
    (c : ContainerConfig) :
    (m.vary v).resolveAnew contents r name c = v.carry (m.resolveAnew contents r name c) := by
  have hmade : (m.vary v).host.made contents name = m.host.made contents name := by
    rw [show (m.vary v).host = m.host from h]
  unfold resolveAnew
  rw [hmade]
  cases validateName name with
  | error reason => rfl
  | ok u =>
    cases m.host.made contents name with
    | error e => rfl
    | ok module => exact vary_startContainer m v h r name c module

theorem vary_runAnew {v : ModuleSupply} (h : v.host = m.host) (name : String) (c : ContainerConfig) :
    (m.vary v).runAnew contents name c = v.carry (m.runAnew contents name c) := by
  unfold runAnew
  rw [slots_vary]
  cases m.slots.reserve 1 with
  | error e => rfl
  | ok p => exact vary_resolveAnew (m := { m with slots := p.2 }) h p.1 name c

theorem vary_putInAnew (m : Manager) (v : ModuleSupply) (id : String) (module : CachedModule) :
    (m.vary v).putInAnew id module = v.carry (m.putInAnew id module) := by
  simp only [putInAnew, vary_act, pool_vary, ModuleSupply.carry]
  generalize m.act id (.ok ()) (fun c =>
    c.hotReload module.module (some module.digest) m.pool.surroundings) = acted
  obtain ⟨e | u, m'⟩ := acted
  · rfl
  · rfl

theorem vary_reloadAnew {v : ModuleSupply} (h : v.host = m.host) (id : String) :
    (m.vary v).reloadAnew contents id = v.carry (m.reloadAnew contents id) := by
  have hhost : (m.vary v).host = m.host := h
  have hlookup : (m.vary v).lookup id = m.lookup id := rfl
  unfold reloadAnew
  rw [hlookup, hhost]
  cases m.lookup id with
  | error e => rfl
  | ok c =>
    dsimp only
    cases m.host.made contents c.name with
    | error e => rfl
    | ok module => exact vary_putInAnew m v id module

theorem named_runAnew (h : m.pool.Named) (name : String) (c : ContainerConfig) :
    (m.runAnew contents name c).2.pool.Named := by
  unfold runAnew
  cases m.slots.reserve 1 with
  | error e => exact h
  | ok p =>
    simp only [resolveAnew]
    cases hvalid : validateName name with
    | error reason => exact h
    | ok u =>
      dsimp only
      cases m.host.made contents name with
      | error e => exact h
      | ok module =>
        exact named_startContainer (m := { m with slots := p.2 }) h p.1 hvalid c module

theorem named_reloadAnew (h : m.pool.Named) (id : String) :
    (m.reloadAnew contents id).2.pool.Named := by
  unfold reloadAnew
  cases m.lookup id with
  | error e => exact h
  | ok c =>
    dsimp only
    cases m.host.made contents c.name with
    | error e => exact h
    | ok module =>
      have hacted := Pool.keeps_named.acted h id (.ok ()) (f := fun c =>
        c.hotReload module.module (some module.digest) m.pool.surroundings)
        fun c _ => c.sameIdentity_hotReload _ _ _
      simp only [putInAnew]
      generalize m.act id (.ok ()) (fun c =>
        c.hotReload module.module (some module.digest) m.pool.surroundings) = acted at hacted ⊢
      obtain ⟨e | u, m'⟩ := acted
      · exact hacted
      · exact hacted

/-! ## A cache does not show -/

theorem made_of_failed {name : String} {e : Error} (h : contents name = .error e) :
    m.host.made contents name = .error e := by
  unfold Guest.Host.made
  rw [h]
  rfl

theorem fetchAndCompile_eq {name : String}
    (hsupply : (m.source.fetch name m.network).1 = contents name) :
    m.fetchAndCompile name = (m.host.made contents name,
      m.vary { m.moduleSupply with network := (m.source.fetch name m.network).2 }) := by
  unfold fetchAndCompile fetch Guest.Host.made
  rw [← hsupply]
  generalize m.source.fetch name m.network = fetched
  obtain ⟨e | b, network⟩ := fetched
  · rfl
  · rfl

/-- A run that has come somewhere goes on to its end. -/
def toEnd (p : RunProgress × Manager) : Except Failure String × Manager := p.2.endRun p.1

/-- A run that waits for a module goes on with it, whether it is kept or not. -/
theorem toEnd_waiting {v : ModuleSupply} (h : m.moduleSupply.Becomes contents v) (r : Reservation)
    {name : String} (hname : ValidName name) (c : ContainerConfig) {bytes : Except Error Blob}
    (hsupply : bytes = contents name) :
    ∃ w, m.moduleSupply.Becomes contents w ∧
      toEnd (.waiting r name c bytes, m.vary v) =
        w.carry (match m.host.made contents name with
          | .error e => m.failRun r name e
          | .ok module => m.startContainer r name c module) := by
  have hhost : v.host = m.host := h.host
  have hmade : bytes.bind ((m.vary v).compile name) = m.host.made contents name := by
    rw [hsupply, ← hhost]
    rfl
  unfold toEnd endRun
  dsimp only
  rw [hmade]
  cases hm : m.host.made contents name with
  | error e => exact ⟨v, h, rfl⟩
  | ok module =>
    refine ⟨_, h.trans (h.stocked.keep hname c (hhost ▸ hm)), ?_⟩
    exact vary_startContainer m
      { v with cache := (v.cache.keep (ModuleCache.key name c) module).2 } hhost r name c module

theorem toEnd_failed (m : Manager) (v : ModuleSupply) (remote : Bool) (r : Reservation)
    (name : String)
    (c : ContainerConfig) (e : Error) :
    toEnd (if remote then (.waiting r name c (.error e), m.vary v)
      else (.ended ((m.vary v).failRun r name e).1, ((m.vary v).failRun r name e).2)) =
        v.carry (m.failRun r name e) := by
  cases remote <;> rfl

/-- A run behind its reservation starts the module that would be made for it, wherever it has it
from. -/
theorem toEnd_resolve (h : m.moduleSupply.Stocked contents) (r : Reservation) (name : String)
    (c : ContainerConfig) (hsupply : (m.source.fetch name m.network).1 = contents name) :
    ∃ v, m.moduleSupply.Becomes contents v ∧
      toEnd (m.resolve r name c) = v.carry (m.resolveAnew contents r name c) := by
  unfold resolve resolveAnew
  cases hvalid : validateName name with
  | error reason => exact ⟨m.moduleSupply, h.becomes, rfl⟩
  | ok u =>
    have hfound : ∀ module, (m.cache.lookup (ModuleCache.key name c)).1 = some module →
        m.host.made contents name = .ok module := fun module => h.coherent.found hvalid
    have hlooked : m.moduleSupply.Becomes contents
        { m.moduleSupply with cache := (m.cache.lookup (ModuleCache.key name c)).2 } := h.lookup _
    generalize m.cache.lookup (ModuleCache.key name c) = looked at hfound hlooked ⊢
    obtain ⟨found, cache⟩ := looked
    cases found with
    | some module =>
      -- what was kept, perhaps for another configuration, was made for the same name
      refine ⟨_, hlooked, ?_⟩
      rw [hfound module rfl]
      exact vary_startContainer m { m.moduleSupply with cache := cache } rfl r name c module
    | none =>
      simp only [fetch]
      generalize m.source.fetch name m.network = fetched at hsupply ⊢
      obtain ⟨bytes, network⟩ := fetched
      have hasked := hlooked.trans (hlooked.stocked.network network)
      cases bytes with
      | error e =>
        refine ⟨_, hasked, ?_⟩
        rw [made_of_failed hsupply.symm]
        exact toEnd_failed m { m.moduleSupply with network := network, cache := cache }
          m.source.isRemote r name c e
      | ok b => exact toEnd_waiting hasked r hvalid c hsupply

theorem run_eq (h : m.moduleSupply.Stocked contents) (name : String) (c : ContainerConfig)
    (hsupply : (m.source.fetch name m.network).1 = contents name) :
    ∃ v, m.moduleSupply.Becomes contents v ∧ m.run name c = v.carry (m.runAnew contents name c) := by
  show ∃ v, m.moduleSupply.Becomes contents v ∧ toEnd (m.beginRun name c) = _
  unfold beginRun runAnew
  cases m.slots.reserve 1 with
  | error e => exact ⟨m.moduleSupply, h.becomes, rfl⟩
  | ok p => exact toEnd_resolve (m := { m with slots := p.2 }) h p.1 name c hsupply

/-- A module is put into a container, whether it is kept or not. -/
theorem putIn_eq {v : ModuleSupply} (h : m.moduleSupply.Becomes contents v) {name : String}
    (hname : ValidName name) (config : ContainerConfig) {module : CachedModule}
    (hmade : m.host.made contents name = .ok module) (id : String) :
    ∃ w, m.moduleSupply.Becomes contents w ∧
      (m.vary v).putIn id (ModuleCache.key name config) module =
        w.carry (m.putInAnew id module) := by
  have hhost : v.host = m.host := h.host
  simp only [putIn, putInAnew, vary_act, pool_vary, ModuleSupply.carry]
  generalize m.act id (.ok ()) (fun c =>
    c.hotReload module.module (some module.digest) m.pool.surroundings) = acted
  obtain ⟨e | u, m'⟩ := acted
  · exact ⟨v, h, rfl⟩
  · exact ⟨_, h.trans (h.stocked.keep hname config (hhost ▸ hmade)), rfl⟩

theorem hotReload_eq (h : m.moduleSupply.Stocked contents) (hnamed : m.pool.Named) (id : String)
    (hsupply : ∀ c, m.get? id = some c →
      (m.source.fetch c.name m.network).1 = contents c.name) :
    ∃ v, m.moduleSupply.Becomes contents v ∧
      m.hotReload id = v.carry (m.reloadAnew contents id) := by
  unfold hotReload reloadAnew
  cases hlookup : m.lookup id with
  | error e => exact ⟨m.moduleSupply, h.becomes, rfl⟩
  | ok c =>
    have hget := get?_of_lookup hlookup
    have hname := hnamed id c (holds_of_get? hget).2
    -- a reload never looks into the cache, so that it may only put something else there
    have hasked := h.network (m.source.fetch c.name m.network).2
    simp only [fetchAndCompile_eq (hsupply c hget)]
    cases hmade : m.host.made contents c.name with
    | error e => exact ⟨_, hasked, rfl⟩
    | ok module => exact putIn_eq hasked hname c.config hmade id

end Manager
end ContainerHost
