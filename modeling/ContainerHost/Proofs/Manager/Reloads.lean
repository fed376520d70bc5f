import ContainerHost.Proofs.Manager.Escapes
import ContainerHost.Proofs.Manager.Quiet
import ContainerHost.Proofs.Manager.Stages
/-!
# Reloads that fail

A reload fetches and compiles the module of a container, and then puts it in. Either half can fail.
Up to there it has used the network, and the time has gone on; all that is written is written after
the last stage that can fail (`Undisturbed`).

What is proved: `failed_reload`, that a reload which fails changes nothing and says which stage
failed, in any settled manager, as all that operations lead to are (`Reached.settled`).
-/

namespace ContainerHost

/-- The reload of a container fails: its module cannot be had, or its sandbox makes no guest of
it. -/
inductive Manager.ReloadFails (m : Manager) (id : String) (c : Container) : Error → Prop where
  | module {e : Error} (h : m.Unobtainable c.name e) : ReloadFails m id c e
  | guest {module : CachedModule} {e : Error}
      (hm : (m.source.fetch c.name m.network).1.bind (m.compile c.name) = .ok module)
      (h : c.sandbox.Refuses m.pool.surroundings module.module id e) : ReloadFails m id c e

def Task.isReload : Task → Bool
  | .fetch .. | .reload .. => true
  | _ => false

/-- The manager is as it was, but for the network and the time. -/
def Manager.Undisturbed (m m' : Manager) : Prop :=
  ∃ network clock, m' = { m with network := network, pool := { m.pool with clock := clock } }

/-- A container that has nothing to say is put back into its place. -/
theorem Pool.put_eq_self {y : Pool} (h : y.Sound) {id : String} {c : Container}
    (hc : y.get? id = some c) (hquiet : c.outbox = []) : y.put c = y := by
  have hcontainers : y.containers.insert c.id c = y.containers := by
    rw [h.named id c hc]
    exact Table.insert_eq_self h.ordered hc
  have hcleared : { c with outbox := [] } = c := by
    rw [← hquiet]
  unfold put Container.takeNotices
  simp only [hcleared, hcontainers, hquiet, List.append_nil]

namespace Manager

variable {m : Manager} {id : String} {c : Container} {e : Error}

theorem ReloadFails.bare (h : m.ReloadFails id c e) : e.Bare := by
  cases h with
  | module h => exact h.bare
  | guest hm h => exact h.bare

theorem reloadFailed_of_bare (h : e.Bare) : reloadFailed id e = .hotReloadFailed id e := by
  cases e with
  | hotReloadFailed id' source => cases h
  | _ => rfl

/-- Something is done with a container that leaves it as it is. -/
theorem undisturbed_act (h : m.Settled) (hc : m.pool.get? id = some c) {α : Type} (default : α)
    {f : Container → α × Container} (hf : (f c).2 = c) :
    (m.act id default f).1 = (f c).1 ∧ m.Undisturbed (m.act id default f).2 := by
  have hput : (m.pool.pass (.micros 1)).put c = m.pool.pass (.micros 1) := by
    have hsound : (m.pool.pass (.micros 1)).Sound :=
      (Pool.shows_pass (y := m.pool) ⟨h.sound, fun _ => rfl⟩ _).sound
    exact Pool.put_eq_self hsound hc (h.quiet.outboxes id c hc)
  have hact : m.pool.act id f = some ((f c).1, m.pool.pass (.micros 1)) := by
    unfold Pool.act
    rw [hc]
    dsimp only
    rw [hf, hput]
  unfold Manager.act
  rw [hact]
  exact ⟨rfl, m.network, _, m.withPool_of_silent h.quiet.heard⟩

/-- A module that cannot be put in leaves no trace. -/
theorem undisturbed_putIn (h : m.Settled) (hc : m.pool.get? id = some c) (key : String)
    (module : CachedModule) (hmade : c.sandbox.Refuses m.pool.surroundings module.module id e) :
    (m.putIn id key module).1 = .error (.hotReloadFailed id e) ∧
      m.Undisturbed (m.putIn id key module).2 := by
  have hid := h.sound.named id c hc
  have hrefused : c.hotReload module.module (some module.digest) m.pool.surroundings =
      (.error (.hotReloadFailed id e), c) := by
    have hguest := Guest.Sandbox.instantiate_eq_error_iff.mpr hmade
    rw [← hid] at hguest ⊢
    unfold Container.hotReload Container.reloadedGuest
    rw [show m.pool.surroundings = m.pool.surroundings from rfl, hguest]
  obtain ⟨hresult, hsame⟩ := undisturbed_act h hc (.ok ())
    (f := fun c => c.hotReload module.module (some module.digest) m.pool.surroundings)
    (congrArg Prod.snd hrefused)
  simp only [hrefused] at hresult
  simp only [putIn]
  generalize m.act id (.ok ()) (fun c =>
    c.hotReload module.module (some module.digest) m.pool.surroundings) = acted at hresult hsame ⊢
  obtain ⟨result, m'⟩ := acted
  obtain rfl : result = .error (.hotReloadFailed id e) := hresult
  exact ⟨rfl, hsame⟩

theorem putIn_of_made (h : m.Settled) (hc : m.pool.get? id = some c) (key : String)
    (module : CachedModule)
    (hmade : ∀ e, ¬ c.sandbox.Refuses m.pool.surroundings module.module id e) :
    (m.putIn id key module).1 = .ok () := by
  have hid := h.sound.named id c hc
  obtain ⟨hresult, -, -⟩ := act_spec hc (.ok ()) fun c =>
    c.hotReload module.module (some module.digest) m.pool.surroundings
  have hspec := c.hotReload_made module.module (some module.digest) m.pool.surroundings
  simp only [putIn]
  generalize m.act id (.ok ()) (fun c =>
    c.hotReload module.module (some module.digest) m.pool.surroundings) = acted at hresult ⊢
  generalize c.hotReload module.module (some module.digest) m.pool.surroundings = reloaded
    at hspec hresult
  obtain ⟨result, m'⟩ := acted
  obtain ⟨e | u, d⟩ := reloaded
  · obtain ⟨⟨e', hguest, -⟩, -⟩ := hspec
    rw [hid] at hguest
    exact absurd (Guest.Sandbox.instantiate_eq_error_iff.mp hguest) (hmade e')
  · obtain rfl : result = .ok () := hresult
    rfl

theorem undisturbed_of_putIn (h : m.Settled) {key : String} {module : CachedModule}
    (he : (m.putIn id key module).1 = .error e) : m.Undisturbed (m.putIn id key module).2 := by
  cases hc : m.pool.get? id with
  | none =>
    have hact : m.pool.act id (fun c =>
        c.hotReload module.module (some module.digest) m.pool.surroundings) = none := by
      unfold Pool.act
      rw [hc]
    unfold putIn act at he
    rw [hact] at he
    cases he
  | some c =>
    by_cases hr : ∃ e, c.sandbox.Refuses m.pool.surroundings module.module id e
    · obtain ⟨e', hr⟩ := hr
      exact (undisturbed_putIn h hc key module hr).2
    · have hmade := putIn_of_made h hc key module fun e' hr' => hr ⟨e', hr'⟩
      cases he.symm.trans hmade

theorem hotReload_of_get? (hc : m.get? id = some c) : m.hotReload id =
    match (m.source.fetch c.name m.network).1.bind (m.compile c.name) with
    | .error e => (.error (reloadFailed id e),
        { m with network := (m.source.fetch c.name m.network).2 })
    | .ok module => { m with network := (m.source.fetch c.name m.network).2 }.putIn id
        (ModuleCache.key c.name c.config) module := by
  unfold hotReload
  rw [lookup_of_get? hc]
  have hobtained := fetchAndCompile_eq_obtain m c.name
  cases hmodule : (m.source.fetch c.name m.network).1.bind (m.compile c.name) with
  | error e =>
    rw [hmodule] at hobtained
    simp only [hobtained]
  | ok module =>
    rw [hmodule] at hobtained
    simp only [hobtained]

/-- A reload fails exactly when one of its stages does, and leaves no trace then. -/
theorem hotReload_of_fails (h : m.Settled) (hc : m.get? id = some c) (hf : m.ReloadFails id c e) :
    (m.hotReload id).1 = .error (.hotReloadFailed id e) ∧ m.Undisturbed (m.hotReload id).2 := by
  rw [hotReload_of_get? hc]
  cases hf with
  | module hm =>
    rw [obtain_eq_error_iff.mpr hm, ← reloadFailed_of_bare hm.bare]
    exact ⟨rfl, _, _, rfl⟩
  | guest hm hr =>
    rw [hm]
    have hsettled := h.withNetwork (m.source.fetch c.name m.network).2
    obtain ⟨hresult, network, clock, hsame⟩ :=
      undisturbed_putIn hsettled (holds_of_get? hc).2 (ModuleCache.key c.name c.config) _ hr
    exact ⟨hresult, network, clock, hsame⟩

theorem hotReload_of_not_fails (h : m.Settled) (hc : m.get? id = some c)
    (hf : ∀ e, ¬ m.ReloadFails id c e) : (m.hotReload id).1 = .ok () := by
  rw [hotReload_of_get? hc]
  cases hm : (m.source.fetch c.name m.network).1.bind (m.compile c.name) with
  | error e => exact absurd (.module (obtain_eq_error_iff.mp hm)) (hf e)
  | ok module =>
    have hsettled := h.withNetwork (m.source.fetch c.name m.network).2
    exact putIn_of_made hsettled (holds_of_get? hc).2 _ module fun e hr => hf e (.guest hm hr)

theorem hotReload_eq_error_iff (h : m.Settled) (hc : m.get? id = some c) :
    (m.hotReload id).1 = .error e ↔ ∃ e', m.ReloadFails id c e' ∧ e = .hotReloadFailed id e' := by
  constructor
  · intro he
    by_cases hf : ∃ e', m.ReloadFails id c e'
    · obtain ⟨e', hf⟩ := hf
      have hresult := (hotReload_of_fails h hc hf).1
      rw [he] at hresult
      cases hresult
      exact ⟨e', hf, rfl⟩
    · have hresult := hotReload_of_not_fails h hc fun e' hf' => hf ⟨e', hf'⟩
      cases he.symm.trans hresult
  · rintro ⟨e', hf, rfl⟩
    exact (hotReload_of_fails h hc hf).1

/-- A reload that fails changes nothing: of what the manager has, only the network and the time are
not as before. It fails exactly when one of its stages does, and its error wraps the error of that
stage once. An id that is not registered is not found. -/
theorem failed_reload (h : m.Settled) (id : String) :
    (m.get? id = none → m.hotReload id = (.error (.containerNotFound id), m)) ∧
    ∀ c, m.get? id = some c →
      (∀ e, (m.hotReload id).1 = .error e ↔
        ∃ e', m.ReloadFails id c e' ∧ e = .hotReloadFailed id e') ∧
      ∀ e, (m.hotReload id).1 = .error e →
        m.Undisturbed (m.hotReload id).2 ∧ (m.hotReload id).2.get? id = some c ∧
        ∃ e', m.ReloadFails id c e' ∧ e = .hotReloadFailed id e' ∧ e.root = e' ∧
          e'.source? = none := by
  refine ⟨?_, ?_⟩
  · intro hc
    unfold hotReload lookup
    rw [hc]
  · intro c hc
    refine ⟨fun e => hotReload_eq_error_iff h hc, ?_⟩
    intro e he
    obtain ⟨e', hf, rfl⟩ := (hotReload_eq_error_iff h hc).mp he
    have hsame := (hotReload_of_fails h hc hf).2
    refine ⟨hsame, ?_, e', hf, rfl, hf.bare.root, hf.bare⟩
    obtain ⟨network, clock, hm⟩ := hsame
    rw [hm]
    exact hc

end Manager

namespace ConcurrentManager

variable {t : ConcurrentManager} {i ticket : Nat} {task : Task} {e : Error}

/-- The same with whatever comes between the two halves of the reload: the one that fails leaves no
trace. -/
theorem undisturbed_of_failed (h : t.manager.Settled) (ht : t.tasks[i]? = some (ticket, task))
    (hreload : task.isReload = true)
    (hfailed : (t.go i).answers = t.answers ++ [(ticket, .done (.error e))]) :
    t.manager.Undisturbed (t.go i).manager := by
  have hunanswered : t.answers ≠ t.answers ++ [(ticket, .done (.error e))] := by simp
  simp only [go, ht] at hfailed ⊢
  split at hfailed
  case isFalse => exact absurd hfailed hunanswered
  case isTrue hready =>
    rw [if_pos hready]
    cases task with
    | fetch id name key =>
      refine ⟨(t.manager.source.fetch name t.manager.network).2, t.manager.pool.clock, ?_⟩
      simp only [proceed, Manager.fetchAndCompile_eq_obtain]
      cases (t.manager.source.fetch name t.manager.network).1.bind (t.manager.compile name) with
      | error e => rfl
      | ok module => rfl
    | reload id key module =>
      simp only [proceed, answer, withManager, List.append_cancel_left_eq, List.cons.injEq,
        Prod.mk.injEq, Reply.done.injEq, true_and, and_true] at hfailed
      exact Manager.undisturbed_of_putIn h hfailed
    | _ => cases hreload

/-- A container runs, and its module has gone from the source. -/
def deserted : ConcurrentManager :=
  (opened solo).run [.ask (.run "a" .standard), .go 0, .surround (.held .empty) .silent (.ofDirs [])]

theorem settled_deserted : deserted.manager.Settled :=
  Reached.settled ⟨solo.host, solo.source, solo.deployer, .silent, .ofDirs [], solo, _, opened_solo, rfl⟩

/-- The container does without a reload. -/
theorem failed_reload_deserted :
    let m := deserted.manager
    m.Settled ∧ (m.get? "b" = none ∧ m.hotReload "b" = (.error (.containerNotFound "b"), m)) ∧
    ∃ c, m.get? firstId = some c ∧
      (m.hotReload firstId).1 = .error (.hotReloadFailed firstId
        (.registryDownloadFailed "a" "module not found")) ∧
      m.Undisturbed (m.hotReload firstId).2 ∧ (m.hotReload firstId).2.get? firstId = some c := by
  intro m
  have hnone : (m.get? "b").isNone = true := by decide +kernel
  have hnone := Option.isNone_iff_eq_none.mp hnone
  have hname : (m.get? firstId).map (·.name) = some "a" := by decide +kernel
  obtain ⟨c, hc, hname⟩ := Option.map_eq_some_iff.mp hname
  have hfetch : (m.source.fetch c.name m.network).1 =
      .error (.registryDownloadFailed "a" "module not found") := by
    rw [hname]
    rfl
  obtain ⟨hiff, hfailed⟩ := (Manager.failed_reload settled_deserted firstId).2 c hc
  have herror := (hiff _).mpr ⟨_, .module (.fetch hfetch), rfl⟩
  obtain ⟨hsame, hkept, -⟩ := hfailed _ herror
  exact ⟨settled_deserted, ⟨hnone, (Manager.failed_reload settled_deserted "b").1 hnone⟩,
    c, hc, herror, hsame, hkept⟩

end ConcurrentManager
end ContainerHost
