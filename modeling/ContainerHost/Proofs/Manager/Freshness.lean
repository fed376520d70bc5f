import ContainerHost.Proofs.Manager.Provenance
/-!
# Runs after a reload

A reload puts into the container what its source gives now, and offers that to the cache. Runs with
the name and the configuration of the container start what stands in the cache under their key, so
that they start the reloaded module only as long as nothing else stands there. A cache refuses a
module that does not fit and leaves the one in its place: if that is another module, runs start the
old module from then on.

What stands under a key is said by `ModuleCache.Serves`; it can only change to what bytes give that
are received under the name (`serves_undergo`).

What is proved:
  1. `fresh_after_reload`: which module runs start after a reload, when the source does not change.
  2. `stale_without_room`: a cache that the old module fills goes on giving the old one.
-/

namespace ContainerHost

namespace ModuleCache

/-- Whatever stands under the key has the digest. -/
def Serves (c : ModuleCache) (key digest : String) : Prop :=
  ∀ module, c.entries.get? key = some module → module.digest = digest

/-- After the module is offered to the cache, nothing but it stands under the key: it is admitted, or
what stands there has the same digest. -/
def Yields (c : ModuleCache) (key : String) (module : CachedModule) : Prop :=
  (c.keep key module).1 = true ∨ c.Serves key module.digest

theorem serves_keep {c : ModuleCache} {key : String} {module : CachedModule}
    (h : c.Yields key module) : (c.keep key module).2.Serves key module.digest := by
  intro found hfound
  rcases h with hkept | hserves
  · unfold keep at hkept hfound
    split at hkept
    · cases hkept
    · rename_i hfits
      rw [if_neg hfits] at hfound
      simp only [Table.get?_insert, if_true, Option.some.injEq] at hfound
      rw [← hfound]
  · rcases get?_keep hfound with ⟨-, rfl⟩ | hold
    · rfl
    · exact hserves found hold

end ModuleCache

namespace Manager

variable {m : Manager} {host : Guest.Host} {log : List (String × Blob)}

/-- Whatever happens leaves in the cache what was there, and may add what bytes give that come. -/
theorem cached_undergo (h : m.Traced host log) (x : Happening) {key : String}
    {found : CachedModule} (hget : (m.undergo x).cache.entries.get? key = some found) :
    m.cache.entries.get? key = some found ∨ found.Offered host (m.receivedBy x) key := by
  have hcases := m.undergo_cases x
  generalize m.undergo x = m' at hcases hget
  cases hcases with
  | run name config network =>
    rw [← h.compiles]
    exact cached_run (m := { m with network := network }) hget
  | scale id n network =>
    have hback := moduleSupply_scale { m with network := network } id n
    have hcache : ({ m with network := network }.scale id n).2.cache = m.cache :=
      congrArg ModuleSupply.cache hback
    exact .inl (hcache ▸ hget)
  | hotReload id network =>
    rw [← h.compiles]
    exact cached_hotReload (m := { m with network := network }) h.labelled (h.named id) hget
  | source s => exact .inl hget
  | outside outside => exact .inl hget
  | upkept x m' hkept => exact .inl (hkept.cached key found hget)

/-- As long as the same bytes are received under a name, the same digest stands under its keys. -/
theorem serves_undergo (h : m.Traced host log) {name : String} (hname : ValidName name)
    {config : ContainerConfig} {b : Blob}
    (hserves : m.cache.Serves (ModuleCache.key name config) b.digest) {x : Happening}
    (hsame : ∀ b', (name, b') ∈ m.receivedBy x → b' = b) :
    (m.undergo x).cache.Serves (ModuleCache.key name config) b.digest := by
  intro found hget
  rcases cached_undergo h x hget with hold | ⟨name', config', b', hname', hkey, hb', hof⟩
  · exact hserves found hold
  · obtain rfl := name_of_key hname hname' hkey
    rw [hof.digest, hsame b' hb']
    rfl

theorem received_subset_after (k : Chronicle) (xs : List Happening) :
    k.received ⊆ (k.after xs).received := by
  induction xs generalizing k with
  | nil => exact List.Subset.refl _
  | cons x xs ih => exact List.Subset.trans (List.subset_append_left _ _) (ih (k.next x))

theorem serves_after {name : String} (hname : ValidName name) {config : ContainerConfig} {b : Blob}
    {k : Chronicle} (ht : ∃ log, k.manager.Traced host log)
    (hserves : k.manager.cache.Serves (ModuleCache.key name config) b.digest) {xs : List Happening}
    (hsame : ∀ b', (name, b') ∈ (k.after xs).received → b' = b) :
    (∃ log, (k.after xs).manager.Traced host log) ∧
      (k.after xs).manager.cache.Serves (ModuleCache.key name config) b.digest := by
  -- that all modules were received goes along: only then does a key tell whose bytes came
  induction xs generalizing k with
  | nil => exact ⟨ht, hserves⟩
  | cons x xs ih =>
    obtain ⟨log, htraced⟩ := ht
    refine ih (k := k.next x) ⟨_, htraced.undergo x⟩ ?_ hsame
    refine serves_undergo htraced hname hserves ?_
    intro b' hb'
    exact hsame b' (received_subset_after (k.next x) xs (List.mem_append_right _ hb'))

/-! ## Sources that stay -/

/-- What a source gives that is not on the network does not depend on the network. -/
theorem fetch_of_local {s : Source} (h : s.isRemote = false) (name : String)
    (network network' : Http.Network) : (s.fetch name network).1 = (s.fetch name network').1 := by
  cases s with
  | held modules => rfl
  | directory root files => rfl
  | registry r => cases h

theorem fetch_of_received {q : Request} {name : String} {b : Blob}
    (h : (name, b) ∈ m.received q) : (m.source.fetch name m.network).1 = .ok b := by
  unfold received at h
  split at h
  · cases h
  · split at h
    · rename_i hfetch
      obtain ⟨rfl, rfl⟩ := Prod.mk.inj (List.mem_singleton.mp h)
      exact hfetch
    · cases h

/-- What comes from a source that is not on the network is what it gives at any time. -/
theorem eq_of_receivedBy {name : String} {network : Http.Network} {b b' : Blob}
    (hlocal : m.source.isRemote = false) (hfetch : (m.source.fetch name network).1 = .ok b)
    {x : Happening} (h : (name, b') ∈ m.receivedBy x) : b' = b := by
  cases x with
  | source s => cases h
  | outside outside => cases h
  | told x =>
    cases x with
    | ask q network' =>
      have hcame := fetch_of_received h
      rw [fetch_of_local hlocal name _ network, hfetch] at hcame
      exact (Except.ok.inj hcame).symm
    | interact id x => cases h
    | observe event who => cases h
    | sleep d => cases h
    | pass d => cases h

theorem source_hotReload (m : Manager) (id : String) : (m.hotReload id).2.source = m.source := by
  have hcases := m.hotReload_cases id
  generalize m.hotReload id = reloaded at hcases ⊢
  cases hcases with
  | missing e hc => rfl
  | failed e network => rfl
  | made c network b module hc hfetch hmade =>
    obtain ⟨cache, hback⟩ := moduleSupply_putIn { m with network := network } id
      (ModuleCache.key c.name c.config) module
    exact congrArg ModuleSupply.source hback

/-- Nothing but a change of the source changes it. -/
theorem source_undergo (m : Manager) {x : Happening} (hx : ∀ s, x ≠ .source s) :
    (m.undergo x).source = m.source := by
  have hcases := m.undergo_cases x
  generalize m.undergo x = m' at hcases ⊢
  cases hcases with
  | run name config network => exact (supply_run _ name config).2
  | scale id n network => exact congrArg ModuleSupply.source (moduleSupply_scale _ id n)
  | hotReload id network => exact source_hotReload _ id
  | source s => exact absurd rfl (hx s)
  | outside outside => rfl
  | upkept x m' hkept => exact hkept.source

/-- All that comes from a source that is not on the network, and is not changed, is what it gives. -/
theorem received_after_local {name : String} {network : Http.Network} {b : Blob} {k : Chronicle}
    (hlocal : k.manager.source.isRemote = false)
    (hfetch : (k.manager.source.fetch name network).1 = .ok b) {xs : List Happening}
    (hxs : ∀ x ∈ xs, ∀ s, x ≠ .source s) (hk : ∀ b', (name, b') ∈ k.received → b' = b) :
    ∀ b', (name, b') ∈ (k.after xs).received → b' = b := by
  induction xs generalizing k with
  | nil => exact hk
  | cons x xs ih =>
    have hsource := source_undergo k.manager (hxs x List.mem_cons_self)
    refine ih (k := k.next x) (hsource ▸ hlocal) (hsource ▸ hfetch)
      (fun y hy => hxs y (List.mem_cons_of_mem x hy)) ?_
    intro b' hb'
    rcases List.mem_append.mp hb' with hold | hnew
    · exact hk b' hold
    · exact eq_of_receivedBy hlocal hfetch hnew

/-- The same with a run at the end. -/
theorem received_run_local {name : String} {network : Http.Network} {b : Blob}
    (hlocal : m.source.isRemote = false) (hfetch : (m.source.fetch name network).1 = .ok b)
    {xs : List Happening} (hxs : ∀ x ∈ xs, ∀ s, x ≠ .source s) (config : ContainerConfig)
    (network' : Http.Network) :
    ∀ b', (name, b') ∈ ((Chronicle.opened m).after xs).received ++
      { ((Chronicle.opened m).after xs).manager with network := network' }.received
        (.run name config) → b' = b := by
  have hrun (x : Happening) (hx : x ∈ xs ++ [.told (.ask (.run name config) network')])
      (s : Source) : x ≠ .source s := by
    rcases List.mem_append.mp hx with hx | hx
    · exact hxs x hx s
    · rw [List.mem_singleton.mp hx]
      intro heq
      cases heq
  have hall := received_after_local (k := Chronicle.opened m) hlocal hfetch hrun (by
    intro b' hb'
    cases hb')
  unfold Chronicle.after at hall ⊢
  rw [List.foldl_append] at hall
  exact hall

/-! ## Starting what the cache serves -/

/-- A run with the name and the configuration, if it starts a container, starts one with the
digest. -/
def Starts (m : Manager) (name : String) (config : ContainerConfig) (digest : Option String) : Prop :=
  ∀ id, (m.run name config).1 = .ok id →
    ∃ r, (m.run name config).2.get? id = some r ∧ r.digest = digest

/-- A run starts what stands under its key, or what the bytes that it receives give. -/
theorem starts_of_serves (h : m.pool.Labelled) {name : String} {config : ContainerConfig} {b : Blob}
    (hserves : m.cache.Serves (ModuleCache.key name config) b.digest)
    (hsame : ∀ b', (name, b') ∈ m.received (.run name config) → b' = b) :
    m.Starts name config (some b.digest) := by
  intro id hran
  have hcases := m.run_cases name config
  generalize m.run name config = ran at hcases hran ⊢
  cases hcases with
  | failed e m' hyard hhost hsource hentries => cases hran
  | found r slots module hname hfound =>
    obtain ⟨d, hd, -, -, -, hdigest⟩ := startContainer_ok hran h
    exact ⟨d, hd, hdigest.trans (congrArg some (hserves module hfound))⟩
  | made r slots b' module hname hreceived hmade =>
    obtain rfl : b' = b := hsame b' (hreceived ▸ List.mem_cons_self)
    obtain ⟨d, hd, -, -, -, hdigest⟩ := startContainer_ok hran h
    exact ⟨d, hd, hdigest.trans (congrArg some (of_compile hmade).digest)⟩

/-- A run that finds a module under its key starts that one, and asks the source for nothing. -/
theorem starts_of_found (h : m.pool.Labelled) {name : String} {config : ContainerConfig}
    {module : CachedModule}
    (hfound : m.cache.entries.get? (ModuleCache.key name config) = some module) :
    m.Starts name config (some module.digest) := by
  intro id hran
  have hnone : m.received (.run name config) = [] := by
    simp only [received, fetches?, hfound]
    cases m.slots.reserve 1 <;> cases validateName name <;> rfl
  have hcases := m.run_cases name config
  generalize m.run name config = ran at hcases hran ⊢
  cases hcases with
  | failed e m' hyard hhost hsource hentries => cases hran
  | found r slots module' hname hfound' =>
    obtain rfl : module = module' := Option.some.inj (hfound.symm.trans hfound')
    obtain ⟨d, hd, -, -, -, hdigest⟩ := startContainer_ok hran h
    exact ⟨d, hd, hdigest⟩
  | made r slots b module' hname hreceived hmade =>
    rw [hnone] at hreceived
    cases hreceived

/-- What a reload that succeeds leaves: the container with the digest of the bytes that the source
gave, and what they give offered to the cache. -/
theorem hotReload_ok (h : m.pool.Labelled) {id : String} {c : Container} {m' : Manager}
    (hc : m.get? id = some c) (hreload : m.hotReload id = (.ok (), m')) :
    ∃ b module d, (m.source.fetch c.name m.network).1 = .ok b ∧ m.compile c.name b = .ok module ∧
      m'.get? id = some d ∧ d.digest = some b.digest ∧
      m'.cache = (m.cache.keep (ModuleCache.key c.name c.config) module).2 := by
  have hcases := m.hotReload_cases id
  rw [hreload] at hcases
  generalize hresult : ((.ok (), m') : Except Error Unit × Manager) = reloaded at hcases
  cases hcases with
  | missing e hnone => cases hresult
  | failed e network => cases hresult
  | made c' network b module hc' hfetch hmade =>
    obtain rfl : c = c' := Option.some.inj (hc.symm.trans hc')
    have hspec := putIn_spec (m := { m with network := network }) h hc
      (ModuleCache.key c.name c.config) module
    rw [← hresult] at hspec
    obtain ⟨hback, g, d, -, hd, halike⟩ := hspec
    refine ⟨b, module, d, hfetch, hmade, hd, ?_, congrArg ModuleSupply.cache hback⟩
    exact halike.digest.trans (congrArg some (of_compile hmade).digest)

/-- A reload that succeeds leaves the container with the digest of what the source gives now. From
then on, whatever happens as long as the source does not change, a run with the name and the
configuration of the container that starts has the digest of the reloaded container, if the cache took
the new module in or held no other module under the key of the container. A source does not change
that is not on the network and is not exchanged, or that gives nothing else under the name. If the
cache refused the new module for its size and holds another one there, a run that comes next and
starts has the digest of that one. -/
theorem fresh_after_reload {config : ManagerConfig} {host : Guest.Host} {source : Source}
    {deployer : Deployer} {network network' : Http.Network} {outside : Outside}
    {m₀ m m' : Manager} (hopened : opened config host source deployer network outside = .ok m₀)
    (xs : List Happening)
    (hm : m = { ((Chronicle.opened m₀).after xs).manager with network := network' })
    {id : String} {c : Container} (hc : m.get? id = some c)
    (hreload : m.hotReload id = (.ok (), m')) :
    ∃ b module d, (m.source.fetch c.name m.network).1 = .ok b ∧ m.compile c.name b = .ok module ∧
      m'.get? id = some d ∧ d.digest = some b.digest ∧
      (m.cache.Yields (ModuleCache.key c.name c.config) module →
        ∀ (ys : List Happening) (k : Chronicle) (n : Manager) (network : Http.Network),
          k = (Chronicle.opened m').after ys → n = { k.manager with network := network } →
          (m.source.isRemote = false ∧ ∀ y ∈ ys, ∀ s, y ≠ .source s) ∨
            (∀ b', (c.name, b') ∈ k.received ++ n.received (.run c.name c.config) → b' = b) →
          n.Starts c.name c.config d.digest) ∧
      ∀ old, m.cache.entries.get? (ModuleCache.key c.name c.config) = some old →
        (m.cache.keep (ModuleCache.key c.name c.config) module).1 = false →
        ∀ network, { m' with network := network }.Starts c.name c.config (some old.digest) := by
  have htraced : m.Traced host _ := hm ▸ (traced_after (traced_opened hopened) xs).network network'
  have hafter : m'.Traced host _ := hreload ▸ htraced.hotReload id
  obtain ⟨b, module, d, hfetch, hmade, hd, hdigest, hcache⟩ :=
    hotReload_ok htraced.labelled hc hreload
  refine ⟨b, module, d, hfetch, hmade, hd, hdigest, ?_, ?_⟩
  · rintro hyields ys k n network rfl rfl hsteady
    have hsame : ∀ b', (c.name, b') ∈ ((Chronicle.opened m').after ys).received ++
        { ((Chronicle.opened m').after ys).manager with network := network }.received
          (.run c.name c.config) → b' = b := by
      rcases hsteady with ⟨hlocal, hys⟩ | hsame
      · have hsource : m'.source = m.source := by
          rw [← source_hotReload m id, hreload]
        exact received_run_local (hsource ▸ hlocal) (hsource ▸ hfetch) hys c.config network
      · exact hsame
    -- what the reload has offered stands under the key alone, and while only `b` comes it stays so
    have hserves : m'.cache.Serves (ModuleCache.key c.name c.config) b.digest := by
      have hkept := ModuleCache.serves_keep hyields
      rw [← hcache, (of_compile hmade).digest] at hkept
      exact hkept
    obtain ⟨⟨log, hlater⟩, hstill⟩ := serves_after (k := Chronicle.opened m')
      (htraced.named id c hc) ⟨_, hafter⟩ hserves fun b' hb' =>
        hsame b' (List.mem_append_left _ hb')
    rw [hdigest]
    refine starts_of_serves ?_ ?_ fun b' hb' => hsame b' (List.mem_append_right _ hb')
    · exact hlater.labelled
    · exact hstill
  · intro old hold hrefused network
    -- the cache is the one that has refused the module, with the old one in it
    rw [ModuleCache.keep_of_refused hrefused] at hcache
    have hstands : m'.cache.entries.get? (ModuleCache.key c.name c.config) = some old :=
      hcache ▸ hold
    refine starts_of_found ?_ ?_
    · exact hafter.labelled
    · exact hstands

/-- The manager of the two modules when it has reloaded its container. -/
def renewed (size : Nat) : Manager := ((revised size).hotReload (revised size).onlyId).2

/-- A cache of seventeen bytes has room for both modules, and runs start the second one. -/
theorem fresh_with_room : ∃ d, (renewed 17).get? (revised 17).onlyId = some d ∧
    d.digest = some reprinted.digest ∧ (renewed 17).Starts "a" .standard d.digest := by
  have hopened : opened (shelf 17).config (shelf 17).host (shelf 17).source (shelf 17).deployer
      .silent (.ofDirs []) = .ok (shelf 17) := rfl
  have hthere : ((revised 17).get? (revised 17).onlyId).map (fun c => (c.name, c.config)) =
      some ("a", .standard) := by decide +kernel
  have hdone : ((revised 17).hotReload (revised 17).onlyId).1 = .ok () := by decide +kernel
  have hreload : (revised 17).hotReload (revised 17).onlyId = (.ok (), renewed 17) :=
    Prod.ext hdone rfl
  have hbytes : (revised 17).cache.bytes = 8 ∧ (revised 17).cache.capacity = 17 := by decide +kernel
  have hsame (m : Manager) : m = { (Chronicle.opened m).manager with network := m.network } := rfl
  obtain ⟨c, hc, hmade⟩ := Option.map_eq_some_iff.mp hthere
  obtain ⟨hname, hconfig⟩ := Prod.mk.inj hmade
  obtain ⟨b, module, d, hfetch, hcompiled, hd, hdigest, hfresh, -⟩ :=
    fresh_after_reload (m := revised 17) hopened revision rfl hc hreload
  rw [hname, hconfig] at hfresh
  rw [hname] at hfetch
  obtain rfl : reprinted = b := Except.ok.inj hfetch
  have hyields : (revised 17).cache.Yields (ModuleCache.key "a" .standard) module := by
    have hsize : module.size = 9 := (of_compile hcompiled).size
    have hroom : (revised 17).cache.bytesWith (ModuleCache.key "a" .standard) module ≤ 17 := by
      unfold ModuleCache.bytesWith
      omega
    left
    unfold ModuleCache.keep
    rw [if_neg (by omega)]
  have hsteady (y : Happening) (hy : y ∈ []) (s : Source) : y ≠ .source s := by cases hy
  exact ⟨d, hd, hdigest, hfresh hyields [] (Chronicle.opened (renewed 17)) (renewed 17)
    (renewed 17).network rfl (hsame _) (.inl ⟨rfl, hsteady⟩)⟩

/-- A cache of eight bytes is full of the first module, and runs start that one again: not every run
after a reload starts the reloaded module. -/
theorem stale_without_room : ¬ ∀ (xs : List Happening) (id : String) (c d : Container)
    (m m' : Manager), m = ((Chronicle.opened (shelf 8)).after xs).manager → m.get? id = some c →
    m.hotReload id = (.ok (), m') → m'.get? id = some d → m'.Starts c.name c.config d.digest := by
  intro hfresh
  have hthere : ((revised 8).get? (revised 8).onlyId).map (fun c => (c.name, c.config)) =
      some ("a", .standard) := by decide +kernel
  have hdone : ((revised 8).hotReload (revised 8).onlyId).1 = .ok () := by decide +kernel
  have hswapped : ((renewed 8).get? (revised 8).onlyId).map (·.digest) =
      some (some reprinted.digest) := by decide +kernel
  have hran : (((renewed 8).run "a" .standard).1.toOption.bind
      ((renewed 8).run "a" .standard).2.get?).map (·.digest) ≠ some (some reprinted.digest) ∧
      ((renewed 8).run "a" .standard).1.toBool = true := by decide +kernel
  obtain ⟨c, hc, hmade⟩ := Option.map_eq_some_iff.mp hthere
  obtain ⟨hname, hconfig⟩ := Prod.mk.inj hmade
  obtain ⟨d, hd, hdigest⟩ := Option.map_eq_some_iff.mp hswapped
  have hstarts := hfresh revision _ c d (revised 8) (renewed 8) rfl hc (Prod.ext hdone rfl) hd
  rw [hname, hconfig, hdigest] at hstarts
  obtain ⟨hold, hstarted⟩ := hran
  cases hresult : ((renewed 8).run "a" .standard).1 with
  | error e =>
    rw [hresult] at hstarted
    cases hstarted
  | ok id =>
    obtain ⟨r, hr, hnew⟩ := hstarts id hresult
    apply hold
    rw [hresult]
    exact (congrArg (Option.map (·.digest)) hr).trans (congrArg some hnew)

end Manager
end ContainerHost
