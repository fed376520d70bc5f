import ContainerHost.Proofs.Container.Lifecycle
/-!
# Containers without a guest

A stop takes the guest out of a container, and only a restart or a hot reload that succeeds puts one
in again (`Fills`). Between the two the container is `Vacant`: it has no guest, and nothing that it
says about itself shows one.

What is proved: `vacant_until_filled`. A hot reload counts among what ends the vacancy, although it
does not start a stopped container: `filled_while_stopped` has a container that is stopped and holds
the guest that was reloaded into it.
-/

namespace ContainerHost

namespace Container

variable {c : Container}

/-- The container has no guest and shows none: no functions, a memory that cannot be looked at, and
metrics without any use of it. -/
structure Vacant (c : Container) : Prop where
  guest : c.guest = none
  functions : c.functions = []
  memory : c.observeMemory = (.error c.invalidState, c)
  metrics : ∀ now, (c.metrics now).1.memory.used = 0 ∧ (c.metrics now).1.memory.allocated = 0

theorem vacant_of_none (h : c.guest = none) : c.Vacant := by
  have hmemory : c.observeMemory = (.error c.invalidState, c) := by
    simp only [observeMemory, h]
  refine ⟨h, ?_, hmemory, ?_⟩
  · simp only [functions, h]
  · intro now
    simp only [Container.metrics, hmemory]
    exact ⟨trivial, trivial⟩

/-! ## The guest after each operation -/

/-- A stop that finds anything to stop takes the guest out. -/
theorem guest_stop (h : c.status ≠ .stopped ∨ c.guest = none) : c.stop.guest = none := by
  unfold stop
  split
  · rename_i hstopped
    exact h.resolve_left (not_not_intro hstopped)
  · rfl

/-- A call that finds the container not running does not enter a guest. -/
theorem beginCall_of_not_running (h : c.status ≠ .running) (function : String)
    (args : List Wasm.Value) (now : Nat) :
    c.beginCall function args now = (.ended (.error c.invalidState), c) := by
  simp only [beginCall, ne_eq, h, not_false_eq_true, if_true]

/-- A container that is started holds a new guest, or none was made and it holds what it held. -/
theorem guest_start (c : Container) (env : Surroundings) :
    match c.start env with
    | (.error _, d) => d.guest = c.guest
    | (.ok (), d) => d.guest.isSome := by
  unfold start boot
  cases c.sandbox.instantiate env c.module c.id with
  | error e => rfl
  | ok g => rfl

theorem guest_revive (c : Container) (snapshot : State) (env : Surroundings) :
    match c.revive snapshot env with
    | (.error _, d) => d.guest = c.guest
    | (.ok (), d) => d.guest.isSome := by
  have hstart := c.guest_start env
  unfold revive
  generalize c.start env = started at hstart ⊢
  rcases started with ⟨e | u, d⟩
  · exact hstart
  · have hupdate := aside_of_updated (updated_updateState d snapshot)
    show (d.updateState snapshot).guest.isSome
    rw [hupdate.guest]
    exact hstart

end Container

namespace Session

variable {s : Session}

/-- The action is the end of a restart that succeeds, or the step of a hot reload that puts a new
guest in. -/
def Fills (s : Session) : Action → Prop
  | .boot env => ∃ snapshot, s.holder = some (.booting snapshot) ∧
    (s.container.revive snapshot env).1 = .ok ()
  | .swap env => ∃ r m digest g, s.holder = some (.reloading r m digest) ∧
    s.container.reloadedGuest m env = .ok g
  | _ => False

theorem guest_act_of_fills {a : Action} (h : s.Fills a) : (s.act a).container.guest.isSome := by
  cases a with
  | boot env =>
    obtain ⟨snapshot, hholder, hok⟩ := h
    have hguest := s.container.guest_revive snapshot env
    simp only [act, boot, hholder]
    generalize s.container.revive snapshot env = revived at hok hguest ⊢
    obtain ⟨result, d⟩ := revived
    cases hok
    exact hguest
  | swap env =>
    obtain ⟨r, m, digest, g, hholder, hg⟩ := h
    simp only [act, swap, hholder, hg]
    rfl
  | _ => exact h.elim

/-- Nothing else puts a guest into a container that has none. -/
theorem Lively.guest_act_of_none (h : s.Lively) (hnone : s.container.guest = none) {a : Action}
    (ha : ¬ s.Fills a) : (s.act a).container.guest = none := by
  -- a container that runs has a guest, so that no call comes past the first check
  have hidle : s.container.status ≠ .running := by
    intro hrun
    have hsome := h.present hrun
    rw [hnone] at hsome
    cases hsome
  cases a with
  | call function args now =>
    simp only [act, call, Container.beginCall_of_not_running hidle]
    exact hnone
  | answer i now =>
    simp only [act, answer]
    cases s.inside[i]? with
    | none => exact hnone
    | some v =>
      obtain ⟨_, _, hc⟩ := s.container.settleCall_eq v.function v.result now v.took
      exact (congrArg Container.guest hc).trans hnone
  | update u =>
    have haside := Container.aside_of_updated (Container.updated_updateState s.container u)
    exact haside.guest.trans hnone
  | subscribe tag fails replies => exact hnone
  | unsubscribe id => exact hnone
  | query q now =>
    have haside := Container.aside_of_observed (Container.observed_query s.container now q)
    exact haside.guest.trans hnone
  | stop =>
    simp only [act, Session.whenFree]
    split
    · exact hnone
    · exact Container.guest_stop (.inr hnone)
  | restart =>
    simp only [act, Session.whenFree]
    split
    · exact hnone
    · exact Container.guest_stop (.inr hnone)
  | wake =>
    simp only [act, wake]
    split <;> exact hnone
  | boot env =>
    simp only [act, boot]
    split
    · rename_i snapshot hholder
      have hguest := s.container.guest_revive snapshot env
      rcases hrevived : s.container.revive snapshot env with ⟨e | u, d⟩
      · rw [hrevived] at hguest
        exact hguest.trans hnone
      · exact absurd ⟨snapshot, hholder, by rw [hrevived]⟩ ha
    · exact hnone
  | reload m digest =>
    simp only [act, Session.whenFree]
    split <;> exact hnone
  | swap env =>
    simp only [act, swap]
    split
    · rename_i r m digest hholder
      cases hg : s.container.reloadedGuest m env with
      | error e => exact hnone
      | ok g => exact absurd ⟨r, m, digest, g, hholder, hg⟩ ha
    · exact hnone
  | restore =>
    simp only [act, restore]
    split
    · rename_i r hholder
      -- a container that is reloaded has the guest of the reload, but nothing depends on that here
      obtain ⟨-, hwas⟩ := h.leaves hholder
      exact (Container.endReload_ends hwas.mp).2.trans hnone
    · exact hnone

/-- A container without a guest has none until something fills it. -/
theorem Lively.guest_run_of_none (h : s.Lively) (hnone : s.container.guest = none)
    {as : List Action} (has : s.Throughout (fun t a => ¬ t.Fills a) as) :
    (s.run as).container.guest = none := by
  have hkept : (s.run as).Lively ∧ (s.run as).container.guest = none := by
    refine run_induction_of_throughout (P := fun t => t.Lively ∧ t.container.guest = none) ?_
      ⟨h, hnone⟩ has
    rintro t a ha ⟨hlively, hnone⟩
    exact ⟨(hlively.next a).lively, hlively.guest_act_of_none hnone ha⟩
  exact hkept.2

/-- A stop leaves a container vacant, if it finds it running or with an error, or without a guest
already. Whatever happens then, it is vacant until a restart or a hot reload succeeds; and with that
it has a guest again. -/
theorem vacant_until_filled (id name : String) (sandbox : Guest.Sandbox) (module : Guest.Compiled)
    (digest : Option String) (env : Surroundings) (actions : List Action) :
    let s := (created id name sandbox module digest env).run actions
    s.holder = none → (s.container.status ≠ .stopped ∨ s.container.guest = none) →
    (s.act .stop).container.status = .stopped ∧ (s.act .stop).container.Vacant ∧
    ∀ later, (s.act .stop).Throughout (fun t a => ¬ t.Fills a) later →
      ((s.act .stop).run later).container.Vacant ∧
      ∀ a, ((s.act .stop).run later).Fills a →
        (((s.act .stop).run later).act a).container.guest.isSome := by
  intro s hfree hfound
  have hlively : s.Lively := lively_run (lively_created ..) actions
  have hstop : s.act .stop = s.stop := by
    simp only [act, whenFree, hfree]
    rfl
  have hnone : (s.act .stop).container.guest = none := by
    rw [hstop]
    exact Container.guest_stop hfound
  refine ⟨?_, Container.vacant_of_none hnone, ?_⟩
  · rw [hstop]
    exact s.container.status_stop
  · intro later hlater
    have hstopped : (s.act .stop).Lively := (hlively.next .stop).lively
    refine ⟨Container.vacant_of_none (hstopped.guest_run_of_none hnone hlater), ?_⟩
    intro a ha
    exact guest_act_of_fills ha

def answering : Wasm.Module :=
  { Wasm.Module.empty with
    funcs := [⟨⟨[], [.i32]⟩, [], #[.const (.i32 1)], #[]⟩]
    memories := [⟨1, none⟩]
    exports := [⟨"get", .func 0⟩, ⟨"memory", .memory 0⟩] }

def served : Session :=
  created "unit-1" "unit" unitSandbox ⟨1, answering⟩ none ⟨.ofDirs [], 0⟩

/-- A call, an update, another stop, and a hot reload with a module of another engine. -/
def vainAttempts : List Action :=
  [.call "get" [] 0, .update .empty, .stop, .reload ⟨2, answering⟩ none, .swap ⟨.ofDirs [], 0⟩]

/-- None of these puts a guest into a container that was stopped. -/
theorem vacant_served :
    served.holder = none ∧ served.container.status ≠ .stopped ∧
    (served.act .stop).Throughout (fun t a => ¬ t.Fills a) vainAttempts ∧
    ((served.act .stop).run vainAttempts).container.Vacant := by
  have hfound : served.container.status ≠ .stopped := by decide
  have hlater : (served.act .stop).Throughout (fun t a => ¬ t.Fills a) vainAttempts := by
    refine ⟨id, id, id, id, ?_, trivial⟩
    rintro ⟨r, m, digest, g, hholder, hg⟩
    cases hholder
    cases hg
  obtain ⟨-, -, hvacant⟩ := vacant_until_filled "unit-1" "unit" unitSandbox
    ⟨1, answering⟩ none ⟨.ofDirs [], 0⟩ [] rfl (.inl hfound)
  exact ⟨rfl, hfound, hlater, (hvacant _ hlater).1⟩

/-- A hot reload that succeeds puts a guest into a stopped container, which stays stopped. -/
theorem filled_while_stopped :
    let s := (served.act .stop).run [.reload ⟨1, answering⟩ none, .swap ⟨.ofDirs [], 0⟩, .restore]
    served.holder = none ∧ (served.act .stop).container.Vacant ∧
    s.holder = none ∧ s.container.status = .stopped ∧ s.container.functions = ["get"] ∧
    (s.container.metrics 0).1.memory.used = 65536 := by
  refine ⟨rfl, Container.vacant_of_none rfl, rfl, rfl, rfl, ?_⟩
  decide +kernel

end Session
end ContainerHost
