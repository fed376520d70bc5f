import ContainerHost.Proofs.Container.Checks
import ContainerHost.Proofs.Container.Session
import ContainerHost.Proofs.Guest.HostCalls
/-!
# Where a guest comes from

A container keeps a module, and beside it a guest. The two are written at different places: a restart
makes a guest of the module that is there, a reload puts in a module with a guest of its own, a call
leaves the guest as it comes back. A container is `Housed` when its guest came out of its own sandbox
with the very module that it keeps, and has done nothing since but answer calls (`Later`).

`SameModule` is what all operations do to a container, except a reload that succeeds. Restarts,
reloads and new containers are each said completely up to what a guest does not see (`Alike`).
-/

namespace ContainerHost

namespace Container

/-- The containers are made of the same and have the same guest. -/
structure Alike (c d : Container) : Prop where
  id : d.id = c.id
  name : d.name = c.name
  sandbox : d.sandbox = c.sandbox
  module : d.module = c.module
  digest : d.digest = c.digest
  guest : d.guest = c.guest

/-- `d` is what became of `c` when no other module was put in: it is made of the same, and a guest
that it has is the old one after some calls, or one that was made of the same module. -/
structure SameModule (c d : Container) : Prop where
  id : d.id = c.id
  name : d.name = c.name
  sandbox : d.sandbox = c.sandbox
  module : d.module = c.module
  digest : d.digest = c.digest
  guest : ∀ g, d.guest = some g →
    (∃ g₀, c.guest = some g₀ ∧ g₀.Later g) ∨
      ∃ env g₀, c.sandbox.instantiate env c.module c.id = .ok g₀ ∧ g₀.Later g

/-- The guest of the container, if it has one, was made of the module that the container keeps. -/
def Housed (c : Container) : Prop :=
  ∀ g, c.guest = some g →
    ∃ env g₀, c.sandbox.instantiate env c.module c.id = .ok g₀ ∧ g₀.Later g

variable {c d e : Container}

theorem Alike.refl (c : Container) : Alike c c := ⟨rfl, rfl, rfl, rfl, rfl, rfl⟩

theorem Alike.trans (h : Alike c d) (k : Alike d e) : Alike c e :=
  ⟨k.id.trans h.id, k.name.trans h.name, k.sandbox.trans h.sandbox, k.module.trans h.module,
    k.digest.trans h.digest, k.guest.trans h.guest⟩

theorem alike_cleared (c : Container) : Alike c { c with outbox := [] } :=
  ⟨rfl, rfl, rfl, rfl, rfl, rfl⟩

theorem alike_setStatus (c : Container) (status : Status) : Alike c (c.setStatus status) :=
  ⟨rfl, rfl, rfl, rfl, rfl, rfl⟩

theorem alike_announce (c : Container) (t : Topic) (payload : List (String × Json.Value)) :
    Alike c (c.announce t payload) := ⟨rfl, rfl, rfl, rfl, rfl, rfl⟩

theorem Alike.sameModule (h : Alike c d) : SameModule c d where
  id := h.id
  name := h.name
  sandbox := h.sandbox
  module := h.module
  digest := h.digest
  guest := fun g hg => .inl ⟨g, h.guest ▸ hg, .same⟩

theorem SameModule.sameIdentity (h : SameModule c d) : SameIdentity c d := ⟨h.id, h.name⟩

theorem SameModule.trans (h : SameModule c d) (k : SameModule d e) : SameModule c e := by
  refine ⟨k.id.trans h.id, k.name.trans h.name, k.sandbox.trans h.sandbox,
    k.module.trans h.module, k.digest.trans h.digest, ?_⟩
  intro g hg
  rcases k.guest g hg with ⟨g₁, hd, hlater⟩ | ⟨env, g₁, hmade, hlater⟩
  · rcases h.guest g₁ hd with ⟨g₀, hc, hearlier⟩ | ⟨env, g₀, hmade, hearlier⟩
    · exact .inl ⟨g₀, hc, hearlier.trans hlater⟩
    · exact .inr ⟨env, g₀, hmade, hearlier.trans hlater⟩
  · rw [h.sandbox, h.module, h.id] at hmade
    exact .inr ⟨env, g₁, hmade, hlater⟩

theorem Housed.sameModule (h : c.Housed) (k : SameModule c d) : d.Housed := by
  intro g hg
  rw [k.sandbox, k.module, k.id]
  rcases k.guest g hg with ⟨g₀, hc, hlater⟩ | hmade
  · obtain ⟨env, g₁, hmade, hearlier⟩ := h g₀ hc
    exact ⟨env, g₁, hmade, hearlier.trans hlater⟩
  · exact hmade

theorem Housed.alike (h : c.Housed) (k : Alike c d) : d.Housed := h.sameModule k.sameModule

theorem housed_of_made {g : Guest.Instance} {env : Surroundings} (hg : c.guest = some g)
    (hmade : c.sandbox.instantiate env c.module c.id = .ok g) : c.Housed := by
  intro g' hg'
  obtain rfl : g = g' := Option.some.inj (hg.symm.trans hg')
  exact ⟨env, g, hmade, .same⟩

theorem Alike.housed {g : Guest.Instance} {env : Surroundings} (h : Alike c d)
    (hg : c.guest = some g) (hmade : c.sandbox.instantiate env c.module c.id = .ok g) : d.Housed :=
  (housed_of_made hg hmade).alike h

/-! ## What does not reach the guest -/

theorem alike_of_updated (h : Updated c d) : Alike c d := by
  obtain ⟨_, _, _, rfl, -⟩ := h
  exact ⟨rfl, rfl, rfl, rfl, rfl, rfl⟩

theorem alike_of_observed (h : Observed c d) : Alike c d := by
  obtain ⟨_, _, _, _, rfl, -⟩ := h
  exact ⟨rfl, rfl, rfl, rfl, rfl, rfl⟩

theorem alike_settleCall (c : Container) (function : String)
    (result : Except Error (List Wasm.Value)) (now : Nat) (took : Duration) :
    Alike c (c.settleCall function result now took) := by
  obtain ⟨_, _, hc⟩ := c.settleCall_eq function result now took
  rw [hc]
  exact ⟨rfl, rfl, rfl, rfl, rfl, rfl⟩

/-! ## Calls -/

theorem guest_of_accept {function : String} {now : Nat} {g : Guest.Instance}
    (h : (c.accept function now).1 = .ok g) : c.guest = some g := by
  cases hg : c.guest with
  | none =>
    have hnone : c.observeMemory = (.error c.invalidState, c) := by simp only [observeMemory, hg]
    simp only [accept, hnone] at h
    split at h <;> cases h
  | some g' =>
    rw [accept_eq hg] at h
    split at h <;> cases h
    rfl

/-- Whatever comes of it, the guest is the old one after a call. -/
theorem later_enterGuest (c : Container) (g : Guest.Instance) (function : String)
    (args : List Wasm.Value) : g.Later (c.enterGuest g function args).2.1 := by
  unfold enterGuest
  dsimp only
  split <;> exact Guest.Instance.Later.same.call function args _

theorem sameModule_beginCall (c : Container) (function : String) (args : List Wasm.Value)
    (now : Nat) :
    SameModule c (c.beginCall function args now).2 := by
  rcases beginCall_cases c function args now with
    ⟨-, hc⟩ | ⟨-, e, d, hobs, -, hc⟩ | ⟨-, g, d, hobs, ha, hc⟩
  · rw [hc]
    exact (Alike.refl c).sameModule
  · rw [hc]
    exact ((alike_of_observed hobs).trans (alike_settleCall d function (.error e) now ⟨0⟩)).sameModule
  · rw [hc]
    have hd := alike_of_observed hobs
    refine ⟨hd.id, hd.name, hd.sandbox, hd.module, hd.digest, ?_⟩
    intro g' hg'
    cases hg'
    exact .inl ⟨g, guest_of_accept ha, c.later_enterGuest g function args⟩

/-! ## The life of a container -/

theorem sameModule_stop (c : Container) : SameModule c c.stop := by
  unfold stop
  split
  · exact (Alike.refl c).sameModule
  · refine ⟨rfl, rfl, rfl, rfl, rfl, ?_⟩
    intro g hg
    cases hg

/-- A container that is started has a guest of its module, or its sandbox has made none and it is
left with an error. -/
theorem start_made (c : Container) (env : Surroundings) :
    match c.start env with
    | (.error e, d) => c.sandbox.instantiate env c.module c.id = .error e ∧ Alike c d
    | (.ok (), d) => ∃ g, c.sandbox.instantiate env c.module c.id = .ok g ∧
      Alike { c with guest := some g } d := by
  unfold start boot
  cases c.sandbox.instantiate env c.module c.id with
  | error e => exact ⟨rfl, rfl, rfl, rfl, rfl, rfl, rfl⟩
  | ok g => exact ⟨g, rfl, rfl, rfl, rfl, rfl, rfl, rfl⟩

theorem revive_made (c : Container) (snapshot : State) (env : Surroundings) :
    match c.revive snapshot env with
    | (.error e, d) => (∃ e', c.sandbox.instantiate env c.module c.id = .error e' ∧
      e = .restartFailed c.id e') ∧ Alike c d
    | (.ok (), d) => ∃ g, c.sandbox.instantiate env c.module c.id = .ok g ∧
      Alike { c with guest := some g } d := by
  have hstart := c.start_made env
  unfold revive
  generalize c.start env = started at hstart ⊢
  obtain ⟨e | u, d⟩ := started
  · obtain ⟨hmade, hd⟩ := hstart
    refine ⟨⟨e, hmade, ?_⟩, hd⟩
    rw [hd.id]
  · obtain ⟨g, hmade, hd⟩ := hstart
    have hput := hd.trans (alike_of_updated (updated_updateState d snapshot))
    exact ⟨g, hmade, hput.trans (alike_announce ..)⟩

theorem endRestart_made (c : Container) (snapshot : State) (env : Surroundings) :
    match c.endRestart snapshot env with
    | (.error e, d) => (∃ e', c.sandbox.instantiate env c.module c.id = .error e' ∧
      e = .restartFailed c.id e') ∧ Alike c d
    | (.ok (), d) => ∃ g, c.sandbox.instantiate env c.module c.id = .ok g ∧
      Alike { c with guest := some g } d := by
  have hspec := (c.setStatus .starting).revive_made snapshot env
  unfold endRestart
  generalize (c.setStatus .starting).revive snapshot env = ended at hspec ⊢
  obtain ⟨e | u, d⟩ := ended
  · obtain ⟨hmade, hd⟩ := hspec
    exact ⟨hmade, (c.alike_setStatus .starting).trans hd⟩
  · obtain ⟨g, hmade, hd⟩ := hspec
    have hbooted : Alike { c with guest := some g } { c.setStatus .starting with guest := some g } :=
      alike_setStatus _ .starting
    exact ⟨g, hmade, hbooted.trans hd⟩

theorem sameModule_of_booted {g : Guest.Instance} {env : Surroundings}
    (hmade : c.sandbox.instantiate env c.module c.id = .ok g)
    (h : Alike { c with guest := some g } d) : SameModule c d := by
  refine ⟨h.id, h.name, h.sandbox, h.module, h.digest, ?_⟩
  intro g' hg'
  obtain rfl : g = g' := Option.some.inj (h.guest.symm.trans hg')
  exact .inr ⟨env, g, hmade, .same⟩

theorem sameModule_revive (c : Container) (snapshot : State) (env : Surroundings) :
    SameModule c (c.revive snapshot env).2 := by
  have hspec := c.revive_made snapshot env
  generalize c.revive snapshot env = revived at hspec ⊢
  obtain ⟨e | u, d⟩ := revived
  · exact hspec.2.sameModule
  · obtain ⟨g, hmade, hd⟩ := hspec
    exact sameModule_of_booted hmade hd

theorem sameModule_endRestart (c : Container) (snapshot : State) (env : Surroundings) :
    SameModule c (c.endRestart snapshot env).2 :=
  (c.alike_setStatus .starting).sameModule.trans (sameModule_revive _ snapshot env)

theorem alike_endReload (c : Container) (r : Reload) : Alike c (c.endReload r) := by
  have hput := alike_of_updated (updated_updateState c r.snapshot)
  unfold endReload
  dsimp only
  split
  · exact hput.trans ((alike_setStatus _ .running).trans (alike_announce ..))
  · exact alike_announce ..

theorem hotReload_made (c : Container) (m : Guest.Compiled) (digest : Option String)
    (env : Surroundings) :
    match c.hotReload m digest env with
    | (.error e, d) => (∃ e', c.sandbox.instantiate env m c.id = .error e' ∧
      e = .hotReloadFailed c.id e') ∧ d = c
    | (.ok (), d) => ∃ g, c.sandbox.instantiate env m c.id = .ok g ∧
      Alike { c with module := m, digest := digest, guest := some g } d := by
  unfold hotReload reloadedGuest
  cases hmade : c.sandbox.instantiate env m c.id with
  | error e => exact ⟨⟨e, rfl, rfl⟩, rfl⟩
  | ok g =>
    have hput := alike_endReload (c.swap g m digest) c.beginReload
    exact ⟨g, rfl, hput.id, hput.name, hput.sandbox, hput.module, hput.digest, hput.guest⟩

/-! ## New containers -/

/-- A container that comes up has a guest of the module that it was made of. -/
theorem create_made {id name : String} {box : Guest.Sandbox} {module : Guest.Compiled}
    {digest : Option String} {env : Surroundings}
    (h : create id name box module digest env = .ok c) :
    ∃ g, box.instantiate env module id = .ok g ∧
      Alike { raw id name box module digest env.now with guest := some g } c := by
  have hstart := (raw id name box module digest env.now).start_made env
  unfold create at h
  split at h
  · cases h
  · generalize (raw id name box module digest env.now).start env = started at h hstart
    obtain ⟨e | u, d⟩ := started
    · cases h
    · cases h
      exact hstart

/-- `r` was made like `c`: of the same module in the same sandbox. -/
structure Copied (c r : Container) : Prop where
  name : r.name = c.name
  sandbox : r.sandbox = c.sandbox
  module : r.module = c.module
  digest : r.digest = c.digest
  housed : r.Housed

theorem Copied.sameModule {r s : Container} (h : Copied c r) (k : SameModule r s) : Copied c s :=
  ⟨k.name.trans h.name, k.sandbox.trans h.sandbox, k.module.trans h.module,
    k.digest.trans h.digest, h.housed.sameModule k⟩

theorem copied_replica {id : String} {env : Surroundings} {r : Container}
    (h : c.replica id env = .ok r) : Copied c r := by
  unfold replica at h
  cases hc : create id c.name c.sandbox c.module c.digest env with
  | error e => simp [hc, Except.map] at h
  | ok q =>
    simp only [hc, Except.map, Except.ok.injEq] at h
    obtain ⟨g, hmade, hq⟩ := create_made hc
    have hcopied : Copied c q :=
      ⟨hq.name, hq.sandbox, hq.module, hq.digest, hq.housed rfl hmade⟩
    rw [← h]
    exact hcopied.sameModule (alike_of_updated (updated_updateState q c.state)).sameModule

/-- Whatever scaling makes, and stops again if it fails, is made like the container. -/
theorem copied_scale (c : Container) (tries : List (Stamp × Surroundings)) :
    ∀ r ∈ (c.scale tries).2, Copied c r :=
  forall_scale (fun _ _ _ hr => copied_replica hr) (fun d hd => hd.sameModule d.sameModule_stop) tries

end Container
end ContainerHost
