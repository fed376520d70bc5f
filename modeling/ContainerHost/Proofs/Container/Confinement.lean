import ContainerHost.Interpreter.Machine
import ContainerHost.Proofs.Container.Origin
import ContainerHost.Proofs.Guest.Imports
/-!
# Containers under a policy

The list of a policy is read at two places: a guest is only made of a module whose imports are on it,
and a call only goes into a guest if the name of the function is on it. A `Line` is a container at
some time, from when it was made in a sandbox over everything that happens to it, or from when another
one was scaled.

What is proved:
  1. `confined_of_line`: along a line the sandbox stays, each guest was made of the module that is
     kept, and all calls that are inside a guest are permitted. `confined_act` is the step.
  2. `refuses_of_offends`: creating, restarting, reloading and scaling with a module that the policy
     keeps out fails, for the first import that is not on the list.
  3. `import_confinement`: both together, with what a spelling stands for.
-/

namespace ContainerHost

/-- A caller may name the function under a policy. -/
structure Permits (c : ContainerConfig) (allowed : List String) (function : String) : Prop where
  listed : function ∈ allowed
  files : function.startsWith "fs_" = true → c.grants.fileSystemAccess = true
  network : function.startsWith "net_" = true → c.grants.networkAccess = true

/-- A container that was made in the sandbox, and what is in progress on it. -/
inductive Line (box : Guest.Sandbox) : Session → Prop where
  | created (id name : String) (module : Guest.Compiled) (digest : Option String)
      (env : Surroundings) : Line box (.created id name box module digest env)
  | act {s : Session} (h : Line box s) (a : Action) : Line box (s.act a)
  | replica {s : Session} (h : Line box s) (tries : List (Stamp × Surroundings)) (r : Container)
      (hr : r ∈ (s.container.scale tries).2) : Line box (.opened r)

namespace Container

variable {c : Container} {function : String} {now : Nat} {allowed : List String}

/-! ## Calls -/

theorem permits_of_accept (policy : c.config.allowedImports = some allowed) {g : Guest.Instance}
    (h : (c.accept function now).1 = .ok g) : Permits c.config allowed function := by
  rw [accept_eq (guest_of_accept h)] at h
  -- the list and the two grants are among the checks, of which none has objected
  have hnone : Check.order.tail.findSome? (Check.verdict c function now) = none := by
    split at h
    · cases h
    · assumption
  have hverdict (k : Check) (hk : k ∈ Check.order.tail) : k.verdict c function now = none :=
    List.findSome?_eq_none_iff.mp hnone k hk
  have hallowed := hverdict .allowed (by decide)
  have hfiles := hverdict .files (by decide)
  have hnetwork := hverdict .network (by decide)
  simp only [Check.verdict, policy] at hallowed hfiles hnetwork
  refine ⟨?_, ?_, ?_⟩
  · by_cases hmem : function ∈ allowed
    · exact hmem
    · rw [if_neg hmem] at hallowed
      cases hallowed
  · intro hbegins
    simpa [hbegins] using hfiles
  · intro hbegins
    simpa [hbegins] using hnetwork

theorem permits_of_call (policy : c.config.allowedImports = some allowed)
    {args results : List Wasm.Value} (h : (c.call function args now).1 = .ok results) :
    Permits c.config allowed function := by
  unfold call at h
  rcases beginCall_cases c function args now with
    ⟨-, hc⟩ | ⟨-, e, d, -, -, hc⟩ | ⟨-, g, d, -, ha, -⟩
  · rw [hc] at h
    cases h
  · rw [hc] at h
    cases h
  · exact permits_of_accept policy ha

end Container

namespace Session

variable {box : Guest.Sandbox} {allowed : List String} {s : Session}

open Container

/-! ## What happens to a container -/

/-- What an action may lead to, as far as modules and calls go. -/
inductive Moves (s : Session) : Action → Session → Prop where
  | aside (a : Action) (t : Session) (container : SameModule s.container t.container)
      (inside : t.inside = s.inside) (answers : t.answers = s.answers) : Moves s a t
  | refused (function : String) (args : List Wasm.Value) (now : Nat) (e : Error) (t : Session)
      (container : SameModule s.container t.container) (inside : t.inside = s.inside)
      (answers : t.answers = s.answers ++ [.error e]) : Moves s (.call function args now) t
  | entered (args : List Wasm.Value) (now : Nat) (g : Guest.Instance) (v : Visit) (t : Session)
      (accepted : (s.container.accept v.function now).1 = .ok g)
      (container : SameModule s.container t.container) (inside : t.inside = s.inside ++ [v])
      (answers : t.answers = s.answers) : Moves s (.call v.function args now) t
  | answered (i now : Nat) (v : Visit) (t : Session) (was : s.inside[i]? = some v)
      (container : SameModule s.container t.container) (inside : t.inside = s.inside.eraseIdx i)
      (answers : t.answers = s.answers ++ [v.result]) : Moves s (.answer i now) t
  | put (env : Surroundings) (m : Guest.Compiled) (digest : Option String) (g : Guest.Instance)
      (t : Session) (made : s.container.sandbox.instantiate env m s.container.id = .ok g)
      (container : t.container = s.container.swap g m digest) (inside : t.inside = s.inside)
      (answers : t.answers = s.answers) : Moves s (.swap env) t

theorem Moves.still (s : Session) (a : Action) : Moves s a s :=
  .aside a s (Alike.refl _).sameModule rfl rfl

theorem Moves.whenFree {f : Session → Session} {a : Action} (h : Moves s a (f s)) :
    Moves s a (s.whenFree f) := by
  unfold Session.whenFree
  split
  · exact .still s a
  · exact h

theorem moves_call (s : Session) (function : String) (args : List Wasm.Value) (now : Nat) :
    Moves s (.call function args now) (s.call function args now) := by
  have htended := sameModule_beginCall s.container function args now
  unfold Session.call
  rcases beginCall_cases s.container function args now with
    ⟨-, hc⟩ | ⟨-, e, d, -, -, hc⟩ | ⟨-, g, d, -, ha, hc⟩
  · rw [hc] at htended ⊢
    exact .refused function args now _ _ htended rfl rfl
  · rw [hc] at htended ⊢
    exact .refused function args now e _ htended rfl rfl
  · rw [hc] at htended ⊢
    exact .entered args now g ⟨function, _, _⟩ _ ha htended rfl rfl

theorem moves_swap (s : Session) (env : Surroundings) : Moves s (.swap env) (s.swap env) := by
  unfold swap
  split
  · rename_i r m digest hholder
    cases hmade : s.container.sandbox.instantiate env m s.container.id with
    | error e =>
      simp only [reloadedGuest, hmade]
      exact .aside _ _ (Alike.refl _).sameModule rfl rfl
    | ok g =>
      simp only [reloadedGuest, hmade]
      exact .put env m digest g _ hmade rfl rfl rfl
  · exact .still s _

theorem moves_act (s : Session) (a : Action) : Moves s a (s.act a) := by
  cases a with
  | call function args now => exact moves_call s function args now
  | answer i now =>
    simp only [act, answer]
    cases hv : s.inside[i]? with
    | none => exact .still s _
    | some v => exact .answered i now v _ hv (alike_settleCall ..).sameModule rfl rfl
  | update u => exact .aside _ _ (alike_of_updated (updated_updateState _ u)).sameModule rfl rfl
  | subscribe tag fails replies =>
    exact .aside _ _ (Alike.sameModule ⟨rfl, rfl, rfl, rfl, rfl, rfl⟩) rfl rfl
  | unsubscribe id => exact .aside _ _ (Alike.sameModule ⟨rfl, rfl, rfl, rfl, rfl, rfl⟩) rfl rfl
  | query q now => exact .aside _ _ (alike_of_observed (observed_query _ now q)).sameModule rfl rfl
  | stop => exact Moves.whenFree (f := stop) (.aside _ _ (sameModule_stop _) rfl rfl)
  | restart => exact Moves.whenFree (f := restart) (.aside _ _ (sameModule_stop _) rfl rfl)
  | wake =>
    simp only [act, wake]
    split
    · exact .aside _ _ (Alike.sameModule ⟨rfl, rfl, rfl, rfl, rfl, rfl⟩) rfl rfl
    · exact .still s _
  | boot env =>
    simp only [act, boot]
    split
    · exact .aside _ _ (sameModule_revive _ _ env) rfl rfl
    · exact .still s _
  | reload m digest =>
    exact Moves.whenFree (f := fun s => s.reload m digest)
      (.aside _ _ (Alike.refl _).sameModule rfl rfl)
  | swap env => exact moves_swap s env
  | restore =>
    simp only [act, restore]
    split
    · exact .aside _ _ (alike_endReload _ _).sameModule rfl rfl
    · exact .still s _

/-! ## Along a line -/

/-- The container is in its sandbox with a guest of the module that it keeps, and the calls that are
inside the guest are permitted. -/
structure Confined (box : Guest.Sandbox) (allowed : List String) (s : Session) : Prop where
  sandbox : s.container.sandbox = box
  housed : s.container.Housed
  inside : ∀ v ∈ s.inside, Permits box.config allowed v.function

theorem Confined.sameModule (h : s.Confined box allowed) {t : Session}
    (container : SameModule s.container t.container)
    (inside : ∀ v ∈ t.inside, Permits box.config allowed v.function) : t.Confined box allowed :=
  ⟨container.sandbox.trans h.sandbox, h.housed.sameModule container, inside⟩

theorem confined_opened {c : Container} (sandbox : c.sandbox = box) (h : c.Housed) :
    (opened c).Confined box allowed := by
  refine ⟨sandbox, h, ?_⟩
  intro v hv
  cases hv

theorem housed_swap {c : Container} {g : Guest.Instance} {m : Guest.Compiled}
    {env : Surroundings} (hmade : c.sandbox.instantiate env m c.id = .ok g)
    (digest : Option String) : (c.swap g m digest).Housed :=
  housed_of_made (c := c.swap g m digest) rfl hmade

theorem confined_act (policy : box.config.allowedImports = some allowed)
    (h : s.Confined box allowed) (a : Action) : (s.act a).Confined box allowed := by
  have hmoves := s.moves_act a
  generalize s.act a = t at hmoves ⊢
  cases hmoves with
  | aside a t container inside answers => exact h.sameModule container (inside ▸ h.inside)
  | refused function args now e t container inside answers =>
    exact h.sameModule container (inside ▸ h.inside)
  | entered args now g v t accepted container inside answers =>
    refine h.sameModule container ?_
    rw [inside]
    intro u hu
    rcases List.mem_append.mp hu with hold | hnew
    · exact h.inside u hold
    · have hconfig : s.container.config = box.config := congrArg Guest.Sandbox.config h.sandbox
      rw [List.mem_singleton.mp hnew, ← hconfig]
      exact permits_of_accept (hconfig ▸ policy) accepted
  | answered i now v t was container inside answers =>
    refine h.sameModule container ?_
    rw [inside]
    intro u hu
    exact h.inside u (List.mem_of_mem_eraseIdx hu)
  | put env m digest g t made container inside answers =>
    -- the guest comes in together with the module that it was made of
    refine ⟨?_, ?_, inside ▸ h.inside⟩
    · rw [container]
      exact h.sandbox
    · rw [container]
      exact housed_swap made digest

theorem housed_created (box : Guest.Sandbox) (id name : String) (module : Guest.Compiled)
    (digest : Option String) (env : Surroundings) :
    (created id name box module digest env).container.sandbox = box ∧
      (created id name box module digest env).container.Housed := by
  have hspec := (raw id name box module digest env.now).start_made env
  unfold created opened
  dsimp only
  generalize (raw id name box module digest env.now).start env = started at hspec ⊢
  obtain ⟨e | u, d⟩ := started
  · refine ⟨hspec.2.sandbox, ?_⟩
    intro g hg
    cases hspec.2.guest.symm.trans hg
  · obtain ⟨g, hmade, hd⟩ := hspec
    exact ⟨hd.sandbox, hd.housed rfl hmade⟩

theorem confined_of_line (policy : box.config.allowedImports = some allowed) (h : Line box s) :
    s.Confined box allowed := by
  induction h with
  | created id name module digest env =>
    have hmade := housed_created box id name module digest env
    exact confined_opened hmade.1 hmade.2
  | act h a ih => exact confined_act policy ih a
  | replica h tries r hr ih =>
    have hcopied := copied_scale _ tries r hr
    exact confined_opened (hcopied.sandbox.trans ih.sandbox) hcopied.housed

/-- A call that returns comes out of the guest. -/
theorem visit_of_answer {a : Action} {results : List Wasm.Value}
    (h : (s.act a).answers = s.answers ++ [.ok results]) :
    ∃ i now v, a = .answer i now ∧ s.inside[i]? = some v ∧ v.result = .ok results := by
  have hmoves := s.moves_act a
  generalize s.act a = t at hmoves h
  cases hmoves with
  | aside a t container inside answers => simp [answers] at h
  | refused function args now e t container inside answers => simp [answers] at h
  | entered args now g v t accepted container inside answers => simp [answers] at h
  | answered i now v t was container inside answers =>
    rw [answers] at h
    exact ⟨i, now, v, rfl, was, by simpa using h⟩
  | put env m digest g t made container inside answers => simp [answers] at h

end Session

namespace Container

variable {box : Guest.Sandbox} {allowed : List String} {module : Guest.Compiled} {i : Wasm.Import}

open Guest (violation Offends)

/-! ## Modules that are kept out -/

/-- Whoever makes a guest of the module in the sandbox fails, for the import `i`. The code of the
module does not matter. A container that has a guest keeps it through a reload. -/
structure Refuses (box : Guest.Sandbox) (module : Guest.Compiled) (i : Wasm.Import) : Prop where
  instantiate : ∀ code : Wasm.Module, code.imports = module.module.imports → ∀ env id,
    box.instantiate env ⟨module.engine, code⟩ id = .error (violation id i)
  create : ∀ id name digest env, create id name box module digest env = .error
    (match validateId id with
      | .error reason => .invalidContainerId id reason
      | .ok () => violation id i)
  restart : ∀ (c : Container) env, c.sandbox = box → c.module = module →
    (c.restart env).1 = .error (.restartFailed c.id (violation c.id i)) ∧
      (c.restart env).2.guest = c.stop.guest
  hotReload : ∀ (c : Container) digest env, c.sandbox = box →
    c.hotReload module digest env = (.error (.hotReloadFailed c.id (violation c.id i)), c)
  swap : ∀ (s : Session) r digest env, s.container.sandbox = box →
    s.holder = some (.reloading r module digest) → s.act (.swap env) = { s with holder := none }
  scale : ∀ (c : Container) stamp env rest, c.sandbox = box → c.module = module →
    c.scale ((stamp, env) :: rest) = (.error
      (match validateId (generateId c.name stamp) with
        | .error reason => .invalidContainerId (generateId c.name stamp) reason
        | .ok () => violation (generateId c.name stamp) i), [])

theorem create_of_refused {env : Surroundings} {e : String → Error}
    (h : ∀ id, box.instantiate env module id = .error (e id)) (id name : String)
    (digest : Option String) :
    create id name box module digest env = .error
      (match validateId id with
        | .error reason => .invalidContainerId id reason
        | .ok () => e id) := by
  unfold create start boot
  have hid : box.instantiate env module id = .error (e id) := h id
  cases validateId id with
  | error reason => rfl
  | ok u =>
    simp only [raw, hid]
    rfl

theorem restart_of_refused (c : Container) (env : Surroundings) {e : Error}
    (h : c.sandbox.instantiate env c.module c.id = .error e) :
    (c.restart env).1 = .error (.restartFailed c.id e) ∧
      (c.restart env).2.guest = c.stop.guest := by
  -- the stop comes first, and takes the old guest away before its module is tried again
  have hstop := sameModule_stop c
  have hspec := c.stop.endRestart_made c.state env
  have hrestart : c.restart env = c.stop.endRestart c.state env := rfl
  rw [hrestart]
  generalize c.stop.endRestart c.state env = ended at hspec ⊢
  rw [hstop.sandbox, hstop.module, hstop.id, h] at hspec
  obtain ⟨e' | u, d⟩ := ended
  · obtain ⟨⟨e'', he, rfl⟩, hd⟩ := hspec
    cases he
    exact ⟨rfl, hd.guest⟩
  · obtain ⟨g, hmade, -⟩ := hspec
    cases hmade

theorem hotReload_of_refused (c : Container) (digest : Option String) (env : Surroundings)
    {e : Error} (h : c.sandbox.instantiate env module c.id = .error e) :
    c.hotReload module digest env = (.error (.hotReloadFailed c.id e), c) := by
  unfold hotReload reloadedGuest
  rw [h]

theorem swap_of_refused (s : Session) {r : Reload} {digest : Option String} (env : Surroundings)
    {e : Error} (h : s.container.sandbox.instantiate env module s.container.id = .error e)
    (hholder : s.holder = some (.reloading r module digest)) :
    s.act (.swap env) = { s with holder := none } := by
  simp only [Session.act, Session.swap, hholder, reloadedGuest, h]

theorem scale_of_refused (c : Container) (stamp : Stamp) (env : Surroundings)
    (rest : List (Stamp × Surroundings)) {e : Error}
    (h : Container.create (generateId c.name stamp) c.name c.sandbox c.module c.digest env =
      .error e) : c.scale ((stamp, env) :: rest) = (.error e, []) := by
  simp only [scale, replicas, replica, h, Except.map, List.reverse_nil, List.map_nil]

theorem refuses_of_offends (policy : box.config.allowedImports = some allowed)
    (available : box.unavailable = none) (engine : module.engine = box.engine)
    (hoff : Offends allowed module.module i) : Refuses box module i := by
  have hrefused (code : Wasm.Module) (hcode : code.imports = module.module.imports)
      (env : Surroundings) (id : String) :
      box.instantiate env ⟨module.engine, code⟩ id = .error (violation id i) := by
    refine Guest.Sandbox.instantiate_of_offends policy available ⟨module.engine, code⟩ engine ?_
      env id
    unfold Offends
    rw [hcode]
    exact hoff
  have hmodule := hrefused module.module rfl
  have hcreate (id name : String) (digest : Option String) (env : Surroundings) :=
    create_of_refused (hmodule env) id name digest
  refine ⟨hrefused, hcreate, ?_, ?_, ?_, ?_⟩
  · rintro c env rfl rfl
    exact c.restart_of_refused env (hmodule env c.id)
  · rintro c digest env rfl
    exact c.hotReload_of_refused digest env (hmodule env c.id)
  · rintro s r digest env rfl hholder
    exact swap_of_refused s env (hmodule env s.container.id) hholder
  · rintro c stamp env rest rfl rfl
    exact c.scale_of_refused stamp env rest (hcreate ..)

end Container

/-! ## Confinement -/

section

open Guest (Offends)
open Guest.Sandbox

/-- Under a policy, whatever happens to a container and its replicas:
  - each guest was made of a module all of whose imports are on the list, and what is done with a
    module that has another one fails for the first such import, before any of its code is looked
    at;
  - a call that returns has named a function on the list, and one whose name says so had a grant;
  - no name space that can be linked has a dot, and a spelling stands for one import. -/
theorem import_confinement {box : Guest.Sandbox} {allowed : List String}
    (policy : box.config.allowedImports = some allowed) :
    (∀ s, Line box s → s.container.sandbox = box ∧ ∀ g, s.container.guest = some g →
      (∃ env g₀, box.instantiate env s.container.module s.container.id = .ok g₀ ∧ g₀.Later g) ∧
        ∀ i ∈ s.container.module.module.imports, i.dotted ∈ allowed) ∧
    (∀ module : Guest.Compiled, (∀ i ∈ module.module.imports, i.dotted ∈ allowed) ∨
      ∃ i, Offends allowed module.module i ∧
        (box.unavailable = none → module.engine = box.engine → Container.Refuses box module i)) ∧
    (∀ (c : Container) function args now results, c.sandbox = box →
      (c.call function args now).1 = .ok results → Permits box.config allowed function) ∧
    (∀ s a results, Line box s → (s.act a).answers = s.answers ++ [.ok results] →
      ∃ i now v, a = .answer i now ∧ s.inside[i]? = some v ∧ v.result = .ok results ∧
        Permits box.config allowed v.function) ∧
    (∀ (b : Guest.Sandbox) imports found, b.link imports = .ok found →
      ∀ i ∈ imports, (b.provided? i).isSome) ∧
    (∀ (b : Guest.Sandbox) i, (b.provided? i).isSome → '.' ∉ i.space.toList) ∧
    ∀ (b b' : Guest.Sandbox) i j, (b.provided? i).isSome → (b'.provided? j).isSome →
      i.dotted = j.dotted → i.space = j.space ∧ i.name = j.name := by
  refine ⟨?_, ?_, ?_, ?_, fun b imports found => provided_of_link, fun b i => dot_notMem_space,
    fun b b' i j => eq_of_dotted⟩
  · intro s hs
    have hconfined := Session.confined_of_line policy hs
    refine ⟨hconfined.sandbox, ?_⟩
    intro g hg
    obtain ⟨env, g₀, hmade, hlater⟩ := hconfined.housed g hg
    rw [hconfined.sandbox] at hmade
    exact ⟨⟨env, g₀, hmade, hlater⟩, imports_of_instantiate policy hmade⟩
  · intro module
    rcases allowed_or_offends policy module.module with hall | ⟨i, hoff⟩
    · exact .inl hall
    · exact .inr ⟨i, hoff, fun available engine =>
        Container.refuses_of_offends policy available engine hoff⟩
  · rintro c function args now results rfl hcall
    exact Container.permits_of_call policy hcall
  · intro s a results hs hanswer
    obtain ⟨i, now, v, ha, hv, hresult⟩ := Session.visit_of_answer hanswer
    exact ⟨i, now, v, ha, hv, hresult,
      (Session.confined_of_line policy hs).inside v (List.mem_of_getElem? hv)⟩

def strict : Guest.Sandbox :=
  ⟨.host, 1, { ContainerConfig.standard with allowedImports := some ["env.memory", "get"] }, none,
    Interpreter.interpreter⟩

def modest : Wasm.Module :=
  { Wasm.Module.empty with
    imports := [⟨"env", "memory", .memory ⟨1, none⟩⟩]
    funcs := [⟨⟨[], [.i32]⟩, [], #[.const (.i32 1)], #[]⟩]
    exports := [⟨"get", .func 0⟩] }

/-- A module that imports a function as well, after the memory. -/
def greedy : Wasm.Module :=
  { modest with imports := modest.imports ++ [⟨"env", "trace", .func Guest.HostFunc.trace.type⟩] }

/-- A container with the modest module answers, and a reload with the other one leaves it alone. -/
theorem greedy_refused :
    let c := (Session.created "unit-1" "unit" strict ⟨1, modest⟩ none ⟨.ofDirs [], 0⟩).container
    strict.config.allowedImports = some ["env.memory", "get"] ∧
    (c.call "get" [] 0).1 = .ok [.i32 1] ∧ Permits strict.config ["env.memory", "get"] "get" ∧
    ∃ i, Offends ["env.memory", "get"] greedy i ∧
      c.hotReload ⟨1, greedy⟩ none ⟨.ofDirs [], 0⟩ =
        (.error (.hotReloadFailed "unit-1" (Guest.violation "unit-1" i)), c) := by
  intro c
  have policy : strict.config.allowedImports = some ["env.memory", "get"] := rfl
  obtain ⟨-, hmodules, hcalls, -⟩ := import_confinement policy
  have hreturned : (c.call "get" [] 0).1.toOption = some [.i32 1] := by decide +kernel
  have hanswer : (c.call "get" [] 0).1 = .ok [.i32 1] := by
    generalize (c.call "get" [] 0).1 = answer at hreturned
    cases answer with
    | error e => cases hreturned
    | ok results =>
      cases hreturned
      rfl
  refine ⟨policy, hanswer, hcalls c _ _ _ _ rfl hanswer, ?_⟩
  rcases hmodules ⟨1, greedy⟩ with hall | ⟨i, hoff, hrefuses⟩
  · exact absurd hall (by decide)
  · exact ⟨i, hoff, (hrefuses rfl rfl).hotReload c none ⟨.ofDirs [], 0⟩ rfl⟩

end

end ContainerHost
