import ContainerHost.Proofs.Manager.Modules
/-!
# Where modules come from

A manager is told one thing after the other while its source and the directories around it change in
any way between. A `Chronicle` is the manager with all the bytes that it has received so far, under
the names that it asked for. Whatever happens, each module that is kept anywhere is what some bytes
that were received give, and stands with the digest of those bytes: in the cache (`CachedModule.Of`),
and in a container, where the guest was made of it too (`Container.Of`).

What happens is a run, scaling, a reload, a change of the source or of directories, or `Upkept`:
nothing that makes a container or a module. What is true of all happenings is proved for these six
(`undergo_cases`).

What is proved: `module_provenance`.
-/

namespace ContainerHost

/-- Something that happens to a manager: it is told something, or what surrounds it changes. -/
inductive Happening where
  | told (x : Command)
  | source (s : Source)
  | outside (outside : Outside)

namespace Manager

def undergo (m : Manager) : Happening → Manager
  | .told x => (m.obey x).2
  | .source s => { m with source := s }
  | .outside outside => { m with pool := { m.pool with outside := outside } }

/-- The bytes that come when something happens. -/
def receivedBy (m : Manager) : Happening → List (String × Blob)
  | .told (.ask q network) => { m with network := network }.received q
  | _ => []

end Manager

/-- A manager, and the bytes that it has received so far. -/
structure Chronicle where
  manager : Manager
  received : List (String × Blob)

namespace Chronicle

/-- A manager that has received nothing so far. -/
def opened (m : Manager) : Chronicle := ⟨m, []⟩

def next (k : Chronicle) (x : Happening) : Chronicle :=
  ⟨k.manager.undergo x, k.received ++ k.manager.receivedBy x⟩

def after (k : Chronicle) (xs : List Happening) : Chronicle := xs.foldl next k

end Chronicle

/-! ## Digests -/

/-- A digest is sixty-four hexadecimal digits in lower case. -/
theorem Sha256.hexDigest_digits (bytes : ByteArray) : (hexDigest bytes).length = 64 ∧
    ∀ d ∈ (hexDigest bytes).toList, d ∈ "0123456789abcdef".toList := by
  have hdigit : ∀ n < 16, Text.Hex.digit n ∈ "0123456789abcdef".toList := by decide
  unfold hexDigest
  rw [String.length_ofList, String.toList_ofList, Text.Hex.length_encode, length_digest]
  refine ⟨rfl, ?_⟩
  intro d hd
  obtain ⟨b, -, hd⟩ := List.mem_flatMap.mp hd
  have hb : b.toNat < 256 := b.toNat_lt
  simp only [List.mem_cons, List.not_mem_nil, or_false] at hd
  -- a byte gives two digits, of its upper and of its lower half
  rcases hd with rfl | rfl
  · exact hdigit _ (by omega)
  · exact hdigit _ (Nat.mod_lt _ (by decide))

/-! ## Containers and bytes -/

/-- The container keeps what the bytes give, with their digest, and its guest was made of it. -/
structure Container.Of (host : Guest.Host) (b : Blob) (c : Container) : Prop where
  module : host.compile c.name b = .ok c.module
  digest : c.digest = some (Sha256.hexDigest b.toBytes)
  housed : c.Housed

namespace Container

variable {host : Guest.Host} {log log' : List (String × Blob)} {c d r : Container}

/-- The container has a valid name, and is of bytes that were received under it. -/
def Traced (host : Guest.Host) (log : List (String × Blob)) (c : Container) : Prop :=
  ValidName c.name ∧ ∃ b, (c.name, b) ∈ log ∧ c.Of host b

theorem Traced.mono (h : c.Traced host log) (hlog : log ⊆ log') : c.Traced host log' := by
  obtain ⟨hname, b, hb, hof⟩ := h
  exact ⟨hname, b, hlog hb, hof⟩

theorem Traced.copied (h : c.Traced host log) (hname : r.name = c.name)
    (hmodule : r.module = c.module) (hdigest : r.digest = c.digest) (hr : r.Housed) :
    r.Traced host log := by
  obtain ⟨hvalid, b, hb, hof⟩ := h
  refine ⟨hname ▸ hvalid, b, hname ▸ hb, ?_, hdigest.trans hof.digest, hr⟩
  rw [hname, hmodule]
  exact hof.module

theorem Traced.sameModule (h : c.Traced host log) (k : SameModule c d) : d.Traced host log :=
  h.copied k.name k.module k.digest (h.2.choose_spec.2.housed.sameModule k)

/-- A container is traced without what it has announced. -/
theorem Traced.cleared (h : c.Traced host log) :
    ({ c with outbox := [] } : Container).Traced host log := h.sameModule c.alike_cleared.sameModule

/-- A reload with a module of received bytes leaves the container traced. -/
theorem Traced.hotReload (h : c.Traced host log) {b : Blob} (hb : (c.name, b) ∈ log)
    {module : CachedModule} (hof : module.Of host c.name b) (env : Surroundings) :
    (c.hotReload module.module (some module.digest) env).2.Traced host log := by
  have hspec := c.hotReload_made module.module (some module.digest) env
  generalize c.hotReload module.module (some module.digest) env = reloaded at hspec ⊢
  obtain ⟨e | u, d⟩ := reloaded
  · obtain ⟨-, rfl⟩ := hspec
    exact h
  · obtain ⟨g, hmade, hd⟩ := hspec
    refine ⟨hd.name ▸ h.1, b, hd.name ▸ hb, ?_, hd.digest.trans (congrArg some hof.digest),
      hd.housed rfl hmade⟩
    rw [hd.name, hd.module]
    exact hof.module

end Container

/-! ## What happens -/

namespace Manager

variable {m m' : Manager}

/-- What becomes of a manager when neither a container nor a module is made. -/
structure Upkept (m m' : Manager) : Prop where
  host : m'.host = m.host
  source : m'.source = m.source
  cached : ∀ key c, m'.cache.entries.get? key = some c → m.cache.entries.get? key = some c
  pool : ∀ Q, Pool.Keeps Container.SameModule Q → Q m.pool → Q m'.pool

/-- What happens to a manager, and what it has become. -/
inductive Course (m : Manager) : Happening → Manager → Prop where
  | run (name : String) (config : ContainerConfig) (network : Http.Network) :
      Course m (.told (.ask (.run name config) network))
        ({ m with network := network }.run name config).2
  | scale (id : String) (n : Nat) (network : Http.Network) :
      Course m (.told (.ask (.scale id n) network)) ({ m with network := network }.scale id n).2
  | hotReload (id : String) (network : Http.Network) :
      Course m (.told (.ask (.hotReload id) network)) ({ m with network := network }.hotReload id).2
  | source (s : Source) : Course m (.source s) { m with source := s }
  | outside (outside : Outside) :
      Course m (.outside outside) { m with pool := { m.pool with outside := outside } }
  | upkept (x : Happening) (m' : Manager) (h : m.Upkept m') : Course m x m'

theorem upkept_of_moduleSupply (hback : m'.moduleSupply = m.moduleSupply)
    (hyard : ∀ Q, Pool.Keeps Container.SameModule Q → Q m.pool → Q m'.pool) : m.Upkept m' := by
  have hcache : m'.cache = m.cache := congrArg ModuleSupply.cache hback
  refine ⟨congrArg ModuleSupply.host hback, congrArg ModuleSupply.source hback, ?_, hyard⟩
  intro key c hc
  exact hcache ▸ hc

theorem Upkept.asked {network : Http.Network} (h : { m with network := network }.Upkept m') :
    m.Upkept m' := ⟨h.host, h.source, h.cached, h.pool⟩

theorem upkept_stop (m : Manager) (id : String) : m.Upkept (m.stop id).2 := by
  refine upkept_of_moduleSupply ?_ fun Q k hQ => k.stop hQ id
  exact congrArg (fun p : _ × Manager => p.2.moduleSupply) (vary_stop m m.moduleSupply id)

theorem upkept_restart (m : Manager) (id : String) : m.Upkept (m.restart id).2 := by
  refine upkept_of_moduleSupply ?_ fun Q k hQ => k.restart hQ id
  exact congrArg (fun p : _ × Manager => p.2.moduleSupply) (vary_restart m m.moduleSupply id)

theorem upkept_restartAll (m : Manager) : m.Upkept m.restartAll.2 := by
  refine upkept_of_moduleSupply ?_ fun Q k hQ => k.restartAll hQ
  exact congrArg (fun p : _ × Manager => p.2.moduleSupply) (vary_restartAll m m.moduleSupply)

theorem upkept_interact (m : Manager) (id : String) (now : Nat) (x : Interaction) :
    m.Upkept (m.act id () fun c => ((), c.interact now x)).2 :=
  upkept_of_moduleSupply (m.moduleSupply_act id () _) fun _ k hQ => k.interact hQ id now x

theorem upkept_sleep (m : Manager) (d : Duration) : m.Upkept (m.sleep d) := by
  have hsame : m.sleep d = (m.sleep d).vary m.moduleSupply := vary_sleep m m.moduleSupply d
  refine upkept_of_moduleSupply ?_ fun Q k hQ => k.observed.slept hQ d
  rw [hsame, moduleSupply_vary]

/-- A cleanup forgets the modules in the cache. -/
theorem upkept_cleanup (m : Manager) : m.Upkept m.cleanup.2 := by
  have hback : m.cleanup.2.moduleSupply = { m.moduleSupply with cache := m.cache.clear } :=
    congrArg (fun p : _ × Manager => p.2.moduleSupply) (vary_cleanup m m.moduleSupply)
  have hcache : m.cleanup.2.cache = m.cache.clear := congrArg ModuleSupply.cache hback
  refine ⟨congrArg ModuleSupply.host hback, congrArg ModuleSupply.source hback, ?_,
    fun Q k hQ => k.cleanup hQ⟩
  intro key c hc
  rw [hcache] at hc
  cases hc

theorem undergo_cases (m : Manager) (x : Happening) : m.Course x (m.undergo x) := by
  cases x with
  | told x =>
    cases x with
    | ask q network =>
      cases q with
      | run name config => exact .run name config network
      | scale id n => exact .scale id n network
      | stop id => exact .upkept _ _ (upkept_stop _ id).asked
      | restart id => exact .upkept _ _ (upkept_restart _ id).asked
      | hotReload id => exact .hotReload id network
      | restartAll => exact .upkept _ _ (upkept_restartAll _).asked
      | cleanup => exact .upkept _ _ (upkept_cleanup _).asked
    | interact id x => exact .upkept _ _ (m.upkept_interact id _ x)
    | observe event who => exact .upkept _ _ ⟨rfl, rfl, fun _ _ hc => hc, fun _ _ hQ => hQ⟩
    | sleep d => exact .upkept _ _ (m.upkept_sleep d)
    | pass d => exact .upkept _ _ ⟨rfl, rfl, fun _ _ hc => hc, fun Q k hQ => k.same hQ rfl rfl⟩
  | source s => exact .source s
  | outside outside => exact .outside outside

/-! ## Every module was received -/

/-- All modules of the manager are what bytes of the log give. -/
structure Traced (host : Guest.Host) (log : List (String × Blob)) (m : Manager) : Prop where
  compiles : m.host = host
  labelled : m.pool.Labelled
  containers : m.pool.All (Container.Traced host log)
  cached : ∀ key c, m.cache.entries.get? key = some c → c.Offered host log key

variable {host : Guest.Host} {log log' : List (String × Blob)}

theorem Traced.named (h : m.Traced host log) (id : String) (c : Container)
    (hc : m.get? id = some c) : ValidName c.name := (h.containers id c (holds_of_get? hc).2).1

theorem Traced.mono (h : m.Traced host log) (hlog : log ⊆ log') : m.Traced host log' where
  compiles := h.compiles
  labelled := h.labelled
  containers := fun id c hc => (h.containers id c hc).mono hlog
  cached := fun key c hc => (h.cached key c hc).mono hlog

theorem Traced.network (h : m.Traced host log) (network : Http.Network) :
    { m with network := network }.Traced host log := ⟨h.compiles, h.labelled, h.containers, h.cached⟩

/-- A run leaves alone what it makes modules of. -/
theorem supply_run (m : Manager) (name : String) (config : ContainerConfig) :
    (m.run name config).2.host = m.host ∧ (m.run name config).2.source = m.source := by
  have hcases := m.run_cases name config
  generalize m.run name config = ran at hcases ⊢
  cases hcases with
  | failed e m' hyard hhost hsource hentries => exact ⟨hhost, hsource⟩
  | found r slots module hname hfound =>
    constructor
    · exact congrArg ModuleSupply.host (moduleSupply_startContainer _ r name config module)
    · exact congrArg ModuleSupply.source (moduleSupply_startContainer _ r name config module)
  | made r slots b module hname hreceived hmade =>
    constructor
    · exact congrArg ModuleSupply.host (moduleSupply_startContainer _ r name config module)
    · exact congrArg ModuleSupply.source (moduleSupply_startContainer _ r name config module)

theorem labelled_run (h : m.pool.Labelled) (name : String) (config : ContainerConfig) :
    (m.run name config).2.pool.Labelled := by
  have hcases := m.run_cases name config
  generalize m.run name config = ran at hcases ⊢
  cases hcases with
  | failed e m' hyard hhost hsource hentries => exact hyard ▸ h
  | found r slots module hname hfound =>
    refine labelled_startContainer ?_ r name config module
    exact h
  | made r slots b module hname hreceived hmade =>
    refine labelled_startContainer ?_ r name config module
    exact h

/-- A container that is started with a module of received bytes is traced. -/
theorem traced_new {name : String} {b : Blob} {module : CachedModule} (hname : ValidName name)
    (hb : (name, b) ∈ log) (hof : module.Of host name b) (d : Container) (hdname : d.name = name)
    (hmodule : d.module = module.module) (hdigest : d.digest = some module.digest)
    (hhoused : d.Housed) : d.Traced host log := by
  refine ⟨hdname ▸ hname, b, hdname ▸ hb, ?_, hdigest.trans (congrArg some hof.digest), hhoused⟩
  rw [hdname, hmodule]
  exact hof.module

/-- A run starts a module that bytes give which were received under its name, now or before. -/
theorem Traced.containers_run (h : m.Traced host log) (name : String) (config : ContainerConfig) :
    (m.run name config).2.pool.All
      (Container.Traced host (log ++ m.received (.run name config))) := by
  have hgrown := h.mono (List.subset_append_left log (m.received (.run name config)))
  have hcases := m.run_cases name config
  generalize m.run name config = ran at hcases ⊢
  cases hcases with
  | failed e m' hyard hhost hsource hentries => exact hyard ▸ hgrown.containers
  | found r slots module hname hfound =>
    -- the module that was found is of the same name, since the key tells it
    obtain ⟨name', config', b, hname', hkey, hb, hof⟩ := hgrown.cached _ _ hfound
    obtain rfl := name_of_key hname hname' hkey
    refine all_startContainer ?_ (fun _ _ hd hc => hc.sameModule hd) r (traced_new hname hb hof)
    exact hgrown.containers
  | made r slots b module hname hreceived hmade =>
    have hb : (name, b) ∈ log ++ m.received (.run name config) := by
      rw [hreceived]
      exact List.mem_append_right _ List.mem_cons_self
    have hof : module.Of host name b := h.compiles ▸ of_compile hmade
    refine all_startContainer ?_ (fun _ _ hd hc => hc.sameModule hd) r (traced_new hname hb hof)
    exact hgrown.containers

theorem Traced.run (h : m.Traced host log) (name : String) (config : ContainerConfig) :
    (m.run name config).2.Traced host (log ++ m.received (.run name config)) where
  compiles := (supply_run m name config).1.trans h.compiles
  labelled := labelled_run h.labelled name config
  containers := h.containers_run name config
  cached := by
    intro key c hc
    rcases cached_run hc with hold | hoffered
    · exact (h.cached key c hold).mono (List.subset_append_left _ _)
    · exact (h.compiles ▸ hoffered).mono (List.subset_append_right _ _)

theorem moduleSupply_scale (m : Manager) (id : String) (n : Nat) :
    (m.scale id n).2.moduleSupply = m.moduleSupply :=
  congrArg (fun p : _ × Manager => p.2.moduleSupply) (vary_scale m m.moduleSupply id n)

theorem Traced.scale (h : m.Traced host log) (id : String) (n : Nat) :
    (m.scale id n).2.Traced host log where
  compiles := (congrArg ModuleSupply.host (m.moduleSupply_scale id n)).trans h.compiles
  labelled := labelled_scale h.labelled id n
  containers := all_scale h.containers (fun _ _ hd hc => hc.sameModule hd) id n
    fun _ _ hc hr => hc.copied hr.name hr.module hr.digest hr.housed
  cached := by
    have hcache : (m.scale id n).2.cache = m.cache :=
      congrArg ModuleSupply.cache (m.moduleSupply_scale id n)
    intro key c hc
    exact h.cached key c (hcache ▸ hc)

/-- A reload puts in a module that bytes give which were received under the name just now. -/
theorem Traced.hotReload (h : m.Traced host log) (id : String) :
    (m.hotReload id).2.Traced host (log ++ m.received (.hotReload id)) := by
  have hgrown := h.mono (List.subset_append_left log (m.received (.hotReload id)))
  -- what the cache has afterwards is said of both outcomes, before they are told apart
  have hcached (key : String) (c : CachedModule)
      (hc : (m.hotReload id).2.cache.entries.get? key = some c) :
      c.Offered host (log ++ m.received (.hotReload id)) key := by
    rcases cached_hotReload h.labelled (h.named id) hc with hold | hoffered
    · exact hgrown.cached key c hold
    · exact (h.compiles ▸ hoffered).mono (List.subset_append_right _ _)
  have hcases := m.hotReload_cases id
  generalize m.hotReload id = reloaded at hcases hcached ⊢
  cases hcases with
  | missing e hc => exact ⟨hgrown.compiles, hgrown.labelled, hgrown.containers, hcached⟩
  | failed e network => exact ⟨hgrown.compiles, hgrown.labelled, hgrown.containers, hcached⟩
  | made c network b module hc hfetch hmade =>
    obtain ⟨-, hget⟩ := holds_of_get? hc
    have hof : module.Of host c.name b := h.compiles ▸ of_compile hmade
    have hb : (c.name, b) ∈ log ++ m.received (.hotReload id) := by
      rw [received_hotReload hc hfetch]
      exact List.mem_append_right _ List.mem_cons_self
    refine ⟨?_, ?_, ?_, hcached⟩
    · obtain ⟨cache, hback⟩ := moduleSupply_putIn { m with network := network } id
        (ModuleCache.key c.name c.config) module
      exact (congrArg ModuleSupply.host hback).trans h.compiles
    · exact keeps_putIn (m := { m with network := network }) (Pool.keeps_labelled fun _ _ => True)
        h.labelled id _ module fun _ _ => trivial
    · refine keeps_putIn (m := { m with network := network })
        (R := fun c d => c.Traced host (log ++ m.received (.hotReload id)) →
          d.Traced host (log ++ m.received (.hotReload id)))
        (Pool.keeps_all fun _ _ hd hc => (hd hc).cleared) hgrown.containers id _ module ?_
      intro c' hget' hc'
      obtain rfl : c = c' := Option.some.inj (hget.symm.trans hget')
      exact hc'.hotReload hb hof _

theorem Traced.undergo (h : m.Traced host log) (x : Happening) :
    (m.undergo x).Traced host (log ++ m.receivedBy x) := by
  have hgrown := h.mono (List.subset_append_left log (m.receivedBy x))
  have hcases := m.undergo_cases x
  generalize m.undergo x = m' at hcases ⊢
  cases hcases with
  | run name config network => exact (h.network network).run name config
  | scale id n network => exact (hgrown.network network).scale id n
  | hotReload id network => exact (h.network network).hotReload id
  | source s => exact ⟨hgrown.compiles, hgrown.labelled, hgrown.containers, hgrown.cached⟩
  | outside outside =>
    exact ⟨hgrown.compiles, hgrown.labelled.of_same rfl, hgrown.containers.of_same rfl,
      hgrown.cached⟩
  | upkept x m' hkept =>
    refine ⟨hkept.host.trans h.compiles, hkept.pool _ (Pool.keeps_labelled _) h.labelled, ?_, ?_⟩
    · exact hkept.pool _ (Pool.keeps_all_sameModule fun _ _ hd hc => hc.sameModule hd)
        hgrown.containers
    · intro key c hc
      exact hgrown.cached key c (hkept.cached key c hc)

theorem traced_after (h : m.Traced host log) (xs : List Happening) :
    (Chronicle.after ⟨m, log⟩ xs).manager.Traced host (Chronicle.after ⟨m, log⟩ xs).received :=
  List.foldlRecOn (motive := fun k : Chronicle => k.manager.Traced host k.received) xs
    Chronicle.next h fun _ hk x _ => hk.undergo x

theorem traced_opened {config : ManagerConfig} {source : Source} {deployer : Deployer}
    {network : Http.Network} {outside : Outside}
    (h : opened config host source deployer network outside = .ok m) : m.Traced host [] := by
  rw [eq_of_opened h]
  refine ⟨rfl, Pool.labelled_opened outside, Pool.all_opened _ outside, ?_⟩
  intro key c hc
  cases hc

/-- Whatever a manager is told, and however its source and the directories change meanwhile: each
registered container keeps a module that bytes give which were received under its name, with the
digest of these bytes, and its guest was made of it; each module in the cache is what bytes give that
were received under its name, with their digest and size; and restarts, scaling and reloads do to
modules what they are there for. Digests are sixty-four hexadecimal digits in lower case. -/
theorem module_provenance {config : ManagerConfig} {host : Guest.Host} {source : Source}
    {deployer : Deployer} {network : Http.Network} {outside : Outside} {m : Manager}
    (h : opened config host source deployer network outside = .ok m) (xs : List Happening) :
    let k := (Chronicle.opened m).after xs
    (∀ id c, k.manager.get? id = some c →
      ∃ b, (c.name, b) ∈ k.received ∧ c.Of host b) ∧
    (∀ key c, k.manager.cache.entries.get? key = some c → ∃ name config b,
      key = ModuleCache.key name config ∧ (name, b) ∈ k.received ∧ c.Of host name b) ∧
    (∀ network, { k.manager with network := network }.KeepsModules) ∧
    ∀ bytes, (Sha256.hexDigest bytes).length = 64 ∧
      ∀ d ∈ (Sha256.hexDigest bytes).toList, d ∈ "0123456789abcdef".toList := by
  have htraced := traced_after (traced_opened h) xs
  refine ⟨?_, ?_, ?_, Sha256.hexDigest_digits⟩
  · intro id c hc
    exact (htraced.containers id c (holds_of_get? hc).2).2
  · intro key c hc
    obtain ⟨name, config, b, -, hkey, hb, hof⟩ := htraced.cached key c hc
    exact ⟨name, config, b, hkey, hb, hof⟩
  · intro network
    exact keepsModules htraced.labelled

/-- What the source has after a change: a module of nine bytes. -/
def reprinted : Blob := .ofString "(module )"

def revision : List Happening :=
  [.told (.ask (.run "a" .standard) .silent), .source (.held (.ofList [("a", reprinted)]))]

/-- A manager with a cache of some size that runs a module which its source has no more. -/
def revised (size : Nat) : Manager := ((Chronicle.opened (shelf size)).after revision).manager

def onlyId (m : Manager) : String := m.slots.ids.headD ""

/-- Runs a module, changes it at its source, and reloads the container. -/
def reprint : List Happening :=
  revision ++ [.told (.ask (.hotReload (revised 8).onlyId) .silent)]

/-- Bytes of both modules were received, and the container keeps the one of the second. -/
theorem reprint_received :
    ((Chronicle.opened (shelf 8)).after reprint).received.map (·.2.size) = [8, 9] ∧
    ((Chronicle.opened (shelf 8)).after reprint).manager.containers.map (·.digest) =
      [some reprinted.digest] ∧
    ∀ id c, ((Chronicle.opened (shelf 8)).after reprint).manager.get? id = some c →
      ∃ b, (c.name, b) ∈ ((Chronicle.opened (shelf 8)).after reprint).received ∧
        c.Of (shelf 8).host b := by
  have hopened : opened (shelf 8).config (shelf 8).host (shelf 8).source (shelf 8).deployer
      .silent (.ofDirs []) = .ok (shelf 8) := rfl
  exact ⟨by decide +kernel, by decide +kernel, (module_provenance hopened reprint).1⟩

end Manager
end ContainerHost
