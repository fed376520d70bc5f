import ContainerHost.Manager.Report
import ContainerHost.Proofs.Manager.Caching
/-!
# Managers with different caches

Two managers that were opened with settings that differ in the size of the cache only, and are told
the same things one after the other. As long as the contents of the source stay what they are, they
give the same replies, and after every command only the cache, its capacity and the network tell
them apart (`SameButCache`): the slots, the containers with their statuses and digests, the bus and
all that was heard are the same. The caches need not hold the same modules at any time.

The argument goes by what each manager would do if it made every module anew. A command is carried
out as it would be so (`obey_eq`), and what is done so does not depend on the cache
(`vary_obeyAnew`).

What is proved: `cache_transparent`.
-/

namespace ContainerHost

/-- Something that a manager is told: to carry out a request with the network as it is then, or what
may happen between requests. -/
inductive Command where
  | ask (q : Request) (network : Http.Network)
  | interact (id : String) (x : Interaction)
  | observe (event : String) (who : Observer)
  | sleep (d : Duration)
  | pass (d : Duration)

namespace Manager

/-! ## Commands -/

/-- Carries out a request from its beginning to its end. -/
def carryOut (m : Manager) : Request → Reply × Manager
  | .run name config => Prod.map .ran id (m.run name config)
  | .scale id' n => Prod.map .scaled id (m.scale id' n)
  | .stop id' => Prod.map .done id (m.stop id')
  | .restart id' => Prod.map .done id (m.restart id')
  | .hotReload id' => Prod.map .done id (m.hotReload id')
  | .restartAll => Prod.map .summed id m.restartAll
  | .cleanup => Prod.map .summed id m.cleanup

/-- Does what it is told; a request is replied to. -/
def obey (m : Manager) : Command → Option Reply × Manager
  | .ask q network => Prod.map some id ({ m with network := network }.carryOut q)
  | .interact id x => (none, (m.act id () fun c => ((), c.interact m.pool.clock.wall x)).2)
  | .observe event who => (none, m.observe event who)
  | .sleep d => (none, m.sleep d)
  | .pass d => (none, { m with pool := m.pool.pass d })

/-- Does one thing after the other. -/
def serve : List Command → Manager → List (Option Reply) × Manager
  | [], m => ([], m)
  | x :: xs, m =>
    let (reply, m) := m.obey x
    let (replies, m) := serve xs m
    (reply :: replies, m)

def wants (m : Manager) : Request → Option String
  | .run name _ => some name
  | .hotReload id => (m.get? id).map (·.name)
  | _ => none

def Supplied (contents : String → Except Error Blob) (source : Source) :
    List Command → Manager → Prop
  | [], _ => True
  | x :: xs, m =>
    (∀ q network name, x = .ask q network → m.wants q = some name →
      (source.fetch name network).1 = contents name) ∧
    Supplied contents source xs (m.obey x).2

/-- Files and modules that are kept in memory do not depend on the network. -/
theorem supplied_of_local {source : Source} (h : source.isRemote = false) (xs : List Command)
    (m : Manager) : Supplied (fun name => (source.fetch name .silent).1) source xs m := by
  induction xs generalizing m with
  | nil => trivial
  | cons x xs ih =>
    refine ⟨?_, ih _⟩
    intro q network name _ _
    cases source with
    | held modules => rfl
    | directory root files => rfl
    | registry r => cases h

/-! ## Commands with modules that are made anew -/

/-- Carries out a request with a module that is made for it. -/
def carryOutAnew (contents : String → Except Error Blob) (m : Manager) : Request → Reply × Manager
  | .run name config => Prod.map .ran id (m.runAnew contents name config)
  | .hotReload id' => Prod.map .done id (m.reloadAnew contents id')
  | q => m.carryOut q

/-- Does what it is told with modules that are made for it. -/
def obeyAnew (contents : String → Except Error Blob) (m : Manager) :
    Command → Option Reply × Manager
  | .ask q _ => Prod.map some id (m.carryOutAnew contents q)
  | x => m.obey x

variable {contents : String → Except Error Blob} {m n : Manager}

variable (contents) in
/-- With modules made anew, a request is carried out in the same way behind any other module supply,
and only a cleanup does anything to it. -/
theorem vary_carryOutAnew {v : ModuleSupply} (h : v.host = m.host) (q : Request) :
    ∃ w : ModuleSupply, (v.Stocked contents → v.Becomes contents w) ∧
      (m.vary v).carryOutAnew contents q = w.carry (m.carryOutAnew contents q) := by
  have hsame : v.Stocked contents → v.Becomes contents v := fun h => h.becomes
  cases q with
  | run name config =>
    exact ⟨v, hsame, congrArg (Prod.map Reply.ran id) (vary_runAnew h name config)⟩
  | scale id' n => exact ⟨v, hsame, congrArg (Prod.map Reply.scaled id) (vary_scale m v id' n)⟩
  | stop id' => exact ⟨v, hsame, congrArg (Prod.map Reply.done id) (vary_stop m v id')⟩
  | restart id' => exact ⟨v, hsame, congrArg (Prod.map Reply.done id) (vary_restart m v id')⟩
  | hotReload id' => exact ⟨v, hsame, congrArg (Prod.map Reply.done id) (vary_reloadAnew h id')⟩
  | restartAll => exact ⟨v, hsame, congrArg (Prod.map Reply.summed id) (vary_restartAll m v)⟩
  | cleanup => exact ⟨_, fun h => h.clear, congrArg (Prod.map Reply.summed id) (vary_cleanup m v)⟩

variable (contents) in
/-- With modules made anew, nothing that a manager does depends on its module supply. -/
theorem vary_obeyAnew {v : ModuleSupply} (h : v.host = m.host) (x : Command) :
    ∃ w : ModuleSupply, (v.Stocked contents → v.Becomes contents w) ∧
      (m.vary v).obeyAnew contents x = w.carry (m.obeyAnew contents x) := by
  have hsame : v.Stocked contents → v.Becomes contents v := fun h => h.becomes
  cases x with
  | ask q network =>
    obtain ⟨w, hw, heq⟩ := vary_carryOutAnew contents h q
    exact ⟨w, hw, congrArg (Prod.map some id) heq⟩
  | interact id x =>
    refine ⟨v, hsame, ?_⟩
    have hacted := vary_act m v id () fun c => ((), c.interact m.pool.clock.wall x)
    exact congrArg (fun p : Unit × Manager => (none, p.2)) hacted
  | observe event who => exact ⟨v, hsame, rfl⟩
  | sleep d => exact ⟨v, hsame, congrArg (none, ·) (vary_sleep m v d)⟩
  | pass d => exact ⟨v, hsame, rfl⟩

theorem named_obeyAnew (h : m.pool.Named) (x : Command) :
    (m.obeyAnew contents x).2.pool.Named := by
  cases x with
  | ask q network =>
    cases q with
    | run name config => exact named_runAnew h name config
    | scale id n => exact named_scale h id n
    | stop id => exact Pool.keeps_named_sameModule.stop h id
    | restart id => exact Pool.keeps_named_sameModule.restart h id
    | hotReload id => exact named_reloadAnew h id
    | restartAll => exact Pool.keeps_named_sameModule.restartAll h
    | cleanup => exact Pool.keeps_named_sameModule.cleanup h
  | interact id x => exact Pool.keeps_named_sameModule.interact h id _ x
  | observe event who => exact h
  | sleep d => exact Pool.keeps_named_sameModule.observed.slept h d
  | pass d => exact Pool.keeps_named.same h rfl rfl

/-! ## One manager -/

/-- A manager whose containers have valid names and whose cache holds what its source gives. -/
structure Kept (contents : String → Except Error Blob) (m : Manager) : Prop where
  named : m.pool.Named
  stocked : m.moduleSupply.Stocked contents

section

variable {config : ManagerConfig} {host : Guest.Host} {source : Source} {deployer : Deployer}
  {network : Http.Network} {outside : Outside}

theorem eq_of_opened (h : opened config host source deployer network outside = .ok m) :
    m = ⟨config, host, source, deployer, network, .empty, .free config.maxContainers,
      .empty config.cacheSize, .opened outside, []⟩ := by
  unfold opened at h
  cases hvalid : config.validate with
  | error e => simp [hvalid, Except.map] at h
  | ok u =>
    simp only [hvalid, Except.map, Except.ok.injEq] at h
    exact h.symm

theorem kept_opened (h : opened config host source deployer network outside = .ok m) :
    m.Kept contents := by
  rw [eq_of_opened h]
  exact ⟨Pool.named_opened outside, ModuleCache.coherent_empty contents host config.cacheSize, rfl⟩

end

/-- A request is carried out as it is with a module that is made for it. -/
theorem carryOut_eq (h : m.Kept contents) (q : Request)
    (hsupply : ∀ name, m.wants q = some name →
      (m.source.fetch name m.network).1 = contents name) :
    ∃ v, m.moduleSupply.Becomes contents v ∧
      m.carryOut q = v.carry (m.carryOutAnew contents q) := by
  obtain ⟨w, hw, hown⟩ := vary_carryOutAnew contents (m := m) (v := m.moduleSupply) rfl q
  rw [vary_moduleSupply] at hown
  cases q with
  | run name config =>
    obtain ⟨v, hv, hrun⟩ := run_eq h.stocked name config (hsupply name rfl)
    exact ⟨v, hv, congrArg (Prod.map Reply.ran id) hrun⟩
  | hotReload id' =>
    obtain ⟨v, hv, hreload⟩ := hotReload_eq h.stocked h.named id' fun c hc =>
      hsupply c.name (congrArg (Option.map Container.name) hc)
    exact ⟨v, hv, congrArg (Prod.map Reply.done id) hreload⟩
  | _ => exact ⟨w, hw h.stocked, hown⟩

/-- A command is carried out as it is with modules that are made for it. -/
theorem obey_eq (h : m.Kept contents) (x : Command)
    (hsupply : ∀ q network name, x = .ask q network → m.wants q = some name →
      (m.source.fetch name network).1 = contents name) :
    ∃ v, m.moduleSupply.Becomes contents v ∧ m.obey x = v.carry (m.obeyAnew contents x) := by
  obtain ⟨w, hw, hown⟩ := vary_obeyAnew contents (m := m) (v := m.moduleSupply) rfl x
  rw [vary_moduleSupply] at hown
  cases x with
  | ask q network =>
    -- The request is carried out by the manager with another network.
    have hasked := h.stocked.network network
    have hkept : (m.vary { m.moduleSupply with network := network }).Kept contents :=
      ⟨h.named, hasked.stocked⟩
    obtain ⟨v, hv, hcarried⟩ := carryOut_eq hkept q fun name hname =>
      hsupply q network name rfl hname
    obtain ⟨u, -, hanew⟩ := vary_carryOutAnew contents (m := m)
      (v := { m.moduleSupply with network := network }) rfl q
    rw [hanew, carry_carry] at hcarried
    exact ⟨v, hasked.trans hv, congrArg (Prod.map some id) hcarried⟩
  | _ => exact ⟨w, hw h.stocked, hown⟩

theorem Kept.obey (h : m.Kept contents) {x : Command} {v : ModuleSupply}
    (hv : m.moduleSupply.Becomes contents v) (heq : m.obey x = v.carry (m.obeyAnew contents x)) :
    (m.obey x).2.Kept contents := by
  rw [heq]
  exact ⟨named_obeyAnew h.named x, hv.stocked⟩

/-! ## Two managers -/

/-- Only the cache, its capacity and the network may tell the managers apart. -/
structure SameButCache (m n : Manager) : Prop where
  config : n.config = { m.config with cacheSize := n.config.cacheSize }
  host : n.host = m.host
  source : n.source = m.source
  deployer : n.deployer = m.deployer
  bus : n.bus = m.bus
  slots : n.slots = m.slots
  pool : n.pool = m.pool
  heard : n.heard = m.heard

theorem SameButCache.eq_vary (h : m.SameButCache n) : n = m.vary n.moduleSupply := by
  obtain ⟨config, host, source, deployer, network, bus, slots, cache, pool, heard⟩ := n
  obtain ⟨hconfig, -, -, hdeployer, hbus, hslots, hyard, hheard⟩ := h
  unfold vary moduleSupply
  simp only at hconfig hdeployer hbus hslots hyard hheard ⊢
  rw [← hconfig, hdeployer, hbus, hslots, hyard, hheard]

theorem sameButCache_vary (m : Manager) {v w : ModuleSupply} (hhost : w.host = v.host)
    (hsource : w.source = v.source) : (m.vary v).SameButCache (m.vary w) :=
  ⟨rfl, hhost, hsource, rfl, rfl, rfl, rfl, rfl⟩

theorem SameButCache.wants (h : m.SameButCache n) (q : Request) : n.wants q = m.wants q := by
  rw [h.eq_vary]
  rfl

/-- Managers that only the cache tells apart reply the same to a command, and only the cache tells
them apart afterwards. -/
theorem SameButCache.obey (h : m.SameButCache n) {x : Command} {v w : ModuleSupply}
    (hv : m.moduleSupply.Becomes contents v) (hm : m.obey x = v.carry (m.obeyAnew contents x))
    (hw : n.moduleSupply.Becomes contents w) (hn : n.obey x = w.carry (n.obeyAnew contents x)) :
    (n.obey x).1 = (m.obey x).1 ∧ (m.obey x).2.SameButCache (n.obey x).2 := by
  obtain ⟨u, -, hu⟩ := vary_obeyAnew contents (v := n.moduleSupply) h.host x
  rw [← h.eq_vary] at hu
  have hhost : w.host = v.host := (hw.host.trans h.host).trans hv.host.symm
  have hsource : w.source = v.source := (hw.source.trans h.source).trans hv.source.symm
  -- both do what the first does with modules made anew
  rw [hm, hn, hu, carry_carry]
  exact ⟨rfl, sameButCache_vary _ hhost hsource⟩

theorem SameButCache.serve {source : Source} (h : m.SameButCache n) (hm : m.Kept contents)
    (hn : n.Kept contents) (hsource : m.source = source) {xs : List Command}
    (hsupply : Supplied contents source xs m) :
    (n.serve xs).1 = (m.serve xs).1 ∧ (m.serve xs).2.SameButCache (n.serve xs).2 ∧
      m.moduleSupply.Becomes contents (m.serve xs).2.moduleSupply ∧
      n.moduleSupply.Becomes contents (n.serve xs).2.moduleSupply := by
  -- what became of the module supplies is carried along: it holds the source that the next command
  -- asks, and the capacity that bounds the sizes in the end
  induction xs generalizing m n with
  | nil => exact ⟨rfl, h, hm.stocked.becomes, hn.stocked.becomes⟩
  | cons x xs ih =>
    obtain ⟨hfirst, hrest⟩ := hsupply
    rw [← hsource] at hfirst
    obtain ⟨v, hv, hmx⟩ := obey_eq hm x hfirst
    obtain ⟨w, hw, hnx⟩ := obey_eq hn x fun q network name hx hname => by
      rw [h.source]
      exact hfirst q network name hx (h.wants q ▸ hname)
    obtain ⟨hreply, hsame⟩ := h.obey hv hmx hw hnx
    have hbehind : (m.obey x).2.moduleSupply = v := by
      rw [hmx, ModuleSupply.carry, moduleSupply_vary]
    have hbehind' : (n.obey x).2.moduleSupply = w := by
      rw [hnx, ModuleSupply.carry, moduleSupply_vary]
    have hsource' : (m.obey x).2.source = source :=
      ((congrArg ModuleSupply.source hbehind).trans hv.source).trans hsource
    obtain ⟨hreplies, hlast, hmlast, hnlast⟩ :=
      ih hsame (hm.obey hv hmx) (hn.obey hw hnx) hsource' hrest
    rw [hbehind] at hmlast
    rw [hbehind'] at hnlast
    refine ⟨?_, hlast, hv.trans hmlast, hw.trans hnlast⟩
    exact congrArg₂ List.cons hreply hreplies

/-- Whichever module is admitted next, the sum of the sizes does not leave sixty-four bits: the size
of the one that it replaces can be taken away, and its own can be added. -/
def CountsInWord (contents : String → Except Error Blob) (m : Manager) : Prop :=
  ∀ name key module, m.host.made contents name = .ok module →
    ModuleCache.heldSize m.cache.entries key ≤ m.cache.bytes ∧
      m.cache.bytesWith key module < 2 ^ 64

theorem countsInWord {v : ModuleSupply} (h : v.Becomes contents m.moduleSupply)
    (hroom : v.cacheSize + Limits.maxModuleSize < 2 ^ 64) : m.CountsInWord contents := by
  intro name key module hmade
  have hsize := size_of_made hmade
  have hfits : m.cache.bytes ≤ m.cache.capacity := h.stocked.coherent.fits
  have hcapacity : m.cache.capacity = v.cacheSize := h.stocked.sized.trans h.cacheSize
  refine ⟨h.stocked.coherent.balanced.heldSize_le key, ?_⟩
  unfold ModuleCache.bytesWith
  omega

/-- Managers that were opened with settings that differ in the size of the cache only reply the same
to everything that they are told, and only the cache, its capacity and the network tell them apart:
slots, containers, listeners and all that was heard are the same at any time, with the same ids and
times, since neither depends on where a module came from. What the caches add up stays within
sixty-four bits. -/
theorem cache_transparent {contents : String → Except Error Blob} {config : ManagerConfig}
    {size : Nat} {host : Guest.Host} {source : Source} {deployer : Deployer}
    {network network' : Http.Network} {outside : Outside} {m n : Manager}
    (hm : opened config host source deployer network outside = .ok m)
    (hn : opened { config with cacheSize := size } host source deployer network' outside = .ok n)
    (hroom : config.cacheSize + Limits.maxModuleSize < 2 ^ 64)
    (hroom' : size + Limits.maxModuleSize < 2 ^ 64) {xs : List Command}
    (hsupply : Supplied contents source xs m) :
    (n.serve xs).1 = (m.serve xs).1 ∧ (m.serve xs).2.SameButCache (n.serve xs).2 ∧
      (m.serve xs).2.CountsInWord contents ∧ (n.serve xs).2.CountsInWord contents := by
  have hopened : m.SameButCache n := by
    rw [eq_of_opened hm, eq_of_opened hn]
    exact ⟨rfl, rfl, rfl, rfl, rfl, rfl, rfl, rfl⟩
  have hsource : m.source = source := by rw [eq_of_opened hm]
  have hsize : m.moduleSupply.cacheSize = config.cacheSize := by rw [eq_of_opened hm]; rfl
  have hsize' : n.moduleSupply.cacheSize = size := by rw [eq_of_opened hn]; rfl
  obtain ⟨hreplies, hsame, hmbehind, hnbehind⟩ :=
    hopened.serve (kept_opened hm) (kept_opened hn) hsource hsupply
  exact ⟨hreplies, hsame, countsInWord hmbehind (hsize ▸ hroom),
    countsInWord hnbehind (hsize' ▸ hroom')⟩

def shelf (size : Nat) : Manager where
  config := { ManagerConfig.standard with cacheSize := size }
  host := ⟨⟨.linux, .amd64, [.embeddedEngine]⟩, 1, Interpreter.interpreter⟩
  source := .held (.ofList [("a", .bytes ⟨#[0, 0x61, 0x73, 0x6d, 1, 0, 0, 0]⟩)])
  deployer := .rehearsal ⟨[], [], []⟩
  network := .silent
  bus := .empty
  slots := .free Limits.maxContainers
  cache := .empty size
  pool := .opened (.ofDirs [])
  heard := []

def twice : List Command :=
  [.ask (.run "a" .standard) .silent, .ask (.run "a" .standard) .silent]

/-- Of two caches one has the module the second time and the other never had room for it; the two
containers are the same. -/
theorem hit_unseen :
    ((shelf 7).serve twice).2.cache.hits = 0 ∧ ((shelf 8).serve twice).2.cache.hits = 1 ∧
    ((shelf 7).serve twice).2.slots.registered.size = 2 ∧
    ((shelf 8).serve twice).1 = ((shelf 7).serve twice).1 ∧
    ((shelf 7).serve twice).2.SameButCache ((shelf 8).serve twice).2 := by
  have htight : opened (shelf 7).config (shelf 7).host (shelf 7).source (shelf 7).deployer
      .silent (.ofDirs []) = .ok (shelf 7) := rfl
  have hample : opened { (shelf 7).config with cacheSize := 8 } (shelf 7).host (shelf 7).source
      (shelf 7).deployer .silent (.ofDirs []) = .ok (shelf 8) := rfl
  have hsupply : Supplied _ (shelf 7).source twice (shelf 7) :=
    supplied_of_local rfl twice (shelf 7)
  have hsame := cache_transparent htight hample (by decide) (by decide) hsupply
  exact ⟨by decide +kernel, by decide +kernel, by decide +kernel, hsame.1, hsame.2.1⟩

end Manager
end ContainerHost
