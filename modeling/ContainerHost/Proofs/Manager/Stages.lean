import ContainerHost.Proofs.Guest.Imports
import ContainerHost.Proofs.Manager.Modules
/-!
# Stages

A run and a reload go through stages, and end at the first one that fails: a module is fetched,
measured and compiled, and then a sandbox makes a guest of it. Each stage is said by what is wrong
when it fails and all was well before, so that an error tells its stage and at most one fails.

What is proved: what a sandbox refuses (`instantiate_eq_error_iff`), why a module cannot be had
(`obtain_eq_error_iff`), and that no such error wraps another one.
-/

namespace ContainerHost

/-- The error wraps no other one. -/
def Error.Bare (e : Error) : Prop := e.source? = none

theorem Error.Bare.root {e : Error} (h : e.Bare) : e.root = e := by
  cases e with
  | startupFailed name source => cases h
  | restartFailed id source => cases h
  | hotReloadFailed id source => cases h
  | _ => rfl

/-- If there is an error, then it wraps no other one. -/
def FailsBare {α : Type} (x : Except Error α) : Prop := ∀ e, x = .error e → e.Bare

namespace FailsBare

variable {α β : Type}

theorem ok (a : α) : FailsBare (.ok a) := fun _ h => nomatch h

theorem error {e : Error} (h : e.Bare) : FailsBare (.error e : Except Error α) := by
  rintro _ ⟨⟩
  exact h

theorem bind {x : Except Error α} {f : α → Except Error β} (hx : FailsBare x)
    (hf : ∀ a, FailsBare (f a)) : FailsBare (x >>= f) := by
  cases x with
  | error e => exact error (hx e rfl)
  | ok a => exact hf a

theorem map {x : Except Error α} (f : α → β) (hx : FailsBare x) : FailsBare (x.map f) := by
  cases x with
  | error e => exact error (hx e rfl)
  | ok a => exact ok _

end FailsBare

/-! ## Guests -/

namespace Guest.Sandbox

/-- All that is looked at before a guest is made is well: the backend is there, its engine has
compiled the module, the policy allows the imports, and the directory for files exists. -/
structure Admits (b : Sandbox) (env : Surroundings) (c : Compiled) : Prop where
  backend : b.unavailable = none
  engine : c.engine = b.engine
  policy : forbidden? b.config c.module = none
  directory : b.preopenDir.filter (fun d => !hasDirectory env.outside.dirs d) = none

/-- Why the sandbox makes no guest of a compiled module: its backend is not there, another engine
has compiled the module, the policy forbids an import, the directory for files is missing, the host
is short of something, or the module does not start. -/
inductive Refuses (b : Sandbox) (env : Surroundings) (c : Compiled) (id : String) : Error → Prop where
  | backend {reason : String} (h : b.unavailable = some reason) :
      Refuses b env c id (.runtimeUnavailable b.backend.name reason)
  | engine (hb : b.unavailable = none) (h : c.engine ≠ b.engine) :
      Refuses b env c id (.engineMismatch id)
  | policy {i : Wasm.Import} (hb : b.unavailable = none) (he : c.engine = b.engine)
      (h : forbidden? b.config c.module = some i) : Refuses b env c id (violation id i)
  | directory {dir : String} (hb : b.unavailable = none) (he : c.engine = b.engine)
      (hp : forbidden? b.config c.module = none)
      (h : b.preopenDir.filter (fun d => !hasDirectory env.outside.dirs d) = some dir) :
      Refuses b env c id (.instantiationFailed id
        s!"failed to preopen {dir}: No such file or directory (os error 2)")
  | shortage {reason : String} (ha : b.Admits env c)
      (h : env.outside.shortage id env.now = some reason) :
      Refuses b env c id (.instantiationFailed id reason)
  | start {reason : String} (ha : b.Admits env c) (hs : env.outside.shortage id env.now = none)
      (h : b.start env c.module id = .error reason) :
      Refuses b env c id (.instantiationFailed id reason)

variable {b : Sandbox} {env : Surroundings} {c : Compiled} {id : String} {e : Error}

theorem Refuses.bare (h : b.Refuses env c id e) : e.Bare := by
  cases h <;> rfl

theorem instantiate_eq_error_iff : b.instantiate env c id = .error e ↔ b.Refuses env c id e := by
  constructor
  · -- one check after the other, each behind those that were passed
    intro h
    unfold instantiate at h
    split at h
    · rename_i hb
      cases h
      exact .backend hb
    · rename_i hb
      split at h
      · rename_i he
        cases h
        exact .engine hb he
      · rename_i he
        have he := Decidable.not_not.mp he
        split at h
        · rename_i hp
          cases h
          exact .policy hb he hp
        · rename_i hp
          split at h
          · rename_i hd
            cases h
            exact .directory hb he hp hd
          · rename_i hd
            have ha : b.Admits env c := ⟨hb, he, hp, hd⟩
            split at h
            · rename_i hs
              cases h
              exact .shortage ha hs
            · rename_i hs
              split at h
              · rename_i hstart
                cases h
                exact .start ha hs hstart
              · cases h
  · intro h
    unfold instantiate
    cases h with
    | backend h => simp only [h]
    | engine hb h => simp only [hb, if_pos h]
    | policy hb he h =>
      simp only [hb, he, ne_eq, not_true_eq_false, if_false, h]
      rfl
    | directory hb he hp h => simp only [hb, he, ne_eq, not_true_eq_false, if_false, hp, h]
    | shortage ha h =>
      simp only [ha.backend, ha.engine, ne_eq, not_true_eq_false, if_false, ha.policy, ha.directory, h]
    | start ha hs h =>
      simp only [ha.backend, ha.engine, ne_eq, not_true_eq_false, if_false, ha.policy, ha.directory, hs,
        h]

end Guest.Sandbox

namespace Container

/-- A container is not made under an id that is not valid, or if its sandbox makes no guest. -/
theorem refused_create {id name : String} {box : Guest.Sandbox} {module : Guest.Compiled}
    {digest : Option String} {env : Surroundings} {e : Error}
    (h : create id name box module digest env = .error e) :
    (∃ reason, e = .invalidContainerId id reason) ∨ box.Refuses env module id e := by
  unfold create start boot at h
  cases hvalid : validateId id with
  | error reason =>
    rw [hvalid] at h
    cases h
    exact .inl ⟨reason, rfl⟩
  | ok u =>
    rw [hvalid] at h
    dsimp only [raw] at h
    cases hguest : box.instantiate env module id with
    | error e' =>
      rw [hguest] at h
      cases h
      exact .inr (Guest.Sandbox.instantiate_eq_error_iff.mp hguest)
    | ok g =>
      rw [hguest] at h
      cases h

/-- Scaling fails with the error of a replica that is not made. -/
theorem refused_scale (c : Container) {tries : List (Stamp × Surroundings)} {e : Error}
    (h : (c.scale tries).1 = .error e) :
    ∃ id env, (∃ reason, e = .invalidContainerId id reason) ∨
      c.sandbox.Refuses env c.module id e := by
  suffices hmade : ∀ made, (c.replicas tries made).1 = .error e → _ from hmade [] h
  clear h
  induction tries with
  | nil =>
    intro made h
    cases h
  | cons t tries ih =>
    obtain ⟨stamp, env⟩ := t
    intro made h
    simp only [replicas] at h
    cases hr : c.replica (generateId c.name stamp) env with
    | ok r =>
      rw [hr] at h
      exact ih (r :: made) h
    | error e' =>
      rw [hr] at h
      cases h
      unfold replica at hr
      cases hc : create (generateId c.name stamp) c.name c.sandbox c.module c.digest env with
      | ok d => simp [hc, Except.map] at hr
      | error e' =>
        simp only [hc, Except.map, Except.error.injEq] at hr
        subst hr
        exact ⟨_, env, refused_create hc⟩

end Container

/-! ## Modules -/

namespace Source

variable (name : String)

theorem failsBare_checkSize (size : Nat) : FailsBare (checkSize size) := by
  unfold checkSize
  split
  · exact .error rfl
  · exact .ok ()

theorem failsBare_checkName : FailsBare (checkName name) := by
  unfold checkName
  split
  · exact .ok ()
  · exact .error rfl

theorem failsBare_receive (r : Http.Response) : FailsBare (receive name r) := by
  obtain ⟨status, declared, body⟩ := r
  have hbroken : FailsBare (.error (failed name Http.brokenText) : Except Error Blob) := .error rfl
  have hcame (bytes : ByteArray) :
      FailsBare (checkSize bytes.size >>= fun _ => (.ok (.bytes bytes) : Except Error Blob)) :=
    (failsBare_checkSize _).bind fun _ => .ok _
  unfold receive
  split
  · exact .error rfl
  · cases declared with
    | none =>
      cases body with
      | none => exact hbroken
      | some bytes => exact hcame bytes
    | some size =>
      cases body with
      | none => exact (failsBare_checkSize size).bind fun _ => hbroken
      | some bytes => exact (failsBare_checkSize size).bind fun _ => hcame bytes

theorem failsBare_download (r : Registry) (net : Http.Network) :
    FailsBare (download r name net).1 := by
  simp only [download]
  split
  · exact .error rfl
  · exact .error rfl
  · exact failsBare_receive name _

theorem failsBare_fetch (s : Source) (net : Http.Network) : FailsBare (s.fetch name net).1 := by
  cases s with
  | held modules =>
    simp only [fetch]
    split
    · exact .error rfl
    · exact .map _ (failsBare_checkSize _)
  | directory root files =>
    refine .bind (failsBare_checkName name) fun _ => ?_
    split
    · exact .error rfl
    · exact .map _ (failsBare_checkSize _)
  | registry r =>
    simp only [fetch]
    split
    · rename_i e he
      exact .error (failsBare_checkName name e he)
    · exact failsBare_download name r net

end Source

namespace Manager

/-- Why the module of a name cannot be had from the source: it does not come, or it is too large,
or the machine does not compile it. -/
inductive Unobtainable (m : Manager) (name : String) : Error → Prop where
  | fetch {e : Error} (h : (m.source.fetch name m.network).1 = .error e) : Unobtainable m name e
  | size {b : Blob} (hb : (m.source.fetch name m.network).1 = .ok b)
      (h : Limits.maxModuleSize < b.size) :
      Unobtainable m name (.moduleTooLarge b.size Limits.maxModuleSize)
  | compile {b : Blob} {reason : String} (hb : (m.source.fetch name m.network).1 = .ok b)
      (hs : b.size ≤ Limits.maxModuleSize) (h : m.host.machine.compile b = .error reason) :
      Unobtainable m name (.compilationFailed name reason)

variable {m : Manager} {name : String} {e : Error}

theorem Unobtainable.bare (h : m.Unobtainable name e) : e.Bare := by
  cases h with
  | fetch h => exact Source.failsBare_fetch name _ _ _ h
  | size hb h => rfl
  | compile hb hs h => rfl

theorem compile_eq_error_iff {b : Blob} : m.compile name b = .error e ↔
    (Limits.maxModuleSize < b.size ∧ e = .moduleTooLarge b.size Limits.maxModuleSize) ∨
      (b.size ≤ Limits.maxModuleSize ∧ ∃ reason, m.host.machine.compile b = .error reason ∧
        e = .compilationFailed name reason) := by
  unfold compile Guest.Host.compile Guest.Compiled.ofBlob
  by_cases hsize : b.size > Limits.maxModuleSize
  · have hle : ¬ b.size ≤ Limits.maxModuleSize := by omega
    simp [hsize, hle, Except.map, eq_comm]
  · have hle : b.size ≤ Limits.maxModuleSize := by omega
    cases hcompiled : m.host.machine.compile b with
    | error reason => simp [hsize, hle, Except.map, eq_comm]
    | ok module => simp [hsize, Except.map]

/-- A module is had from the source unless one of the three stages fails. -/
theorem obtain_eq_error_iff :
    (m.source.fetch name m.network).1.bind (m.compile name) = .error e ↔
      m.Unobtainable name e := by
  cases hfetch : (m.source.fetch name m.network).1 with
  | error e' =>
    constructor
    · rintro ⟨⟩
      exact .fetch hfetch
    · intro h
      cases h with
      | fetch h => exact congrArg (·.bind (m.compile name)) (hfetch.symm.trans h)
      | size hb h => cases hfetch.symm.trans hb
      | compile hb hs h => cases hfetch.symm.trans hb
  | ok b =>
    refine (compile_eq_error_iff (b := b)).trans ⟨?_, ?_⟩
    · rintro (⟨hsize, rfl⟩ | ⟨hsize, reason, hcompiled, rfl⟩)
      · exact .size hfetch hsize
      · exact .compile hfetch hsize hcompiled
    · intro h
      cases h with
      | fetch h => cases hfetch.symm.trans h
      | size hb h =>
        cases hfetch.symm.trans hb
        exact .inl ⟨h, rfl⟩
      | compile hb hs h =>
        cases hfetch.symm.trans hb
        exact .inr ⟨hs, _, h, rfl⟩

/-- What is fetched and compiled only costs the use of the network. -/
theorem fetchAndCompile_eq_obtain (m : Manager) (name : String) :
    m.fetchAndCompile name = ((m.source.fetch name m.network).1.bind (m.compile name),
      { m with network := (m.source.fetch name m.network).2 }) := by
  simp only [fetchAndCompile, Manager.fetch]
  cases (m.source.fetch name m.network).1 with
  | error e => rfl
  | ok b => rfl

end Manager
end ContainerHost
