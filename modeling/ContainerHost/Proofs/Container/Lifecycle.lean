import ContainerHost.Proofs.Container.Checks
import ContainerHost.Proofs.Container.Session
/-!
# The life of a container

Which statuses a container enters, and in which order. `Edge` are the edges of the life; a hot
reload of a running container also enters `running` from `running` (`Turn`). A container moves along
a `Path` of them, and says that it stopped once for each step from `stopping` to `stopped`
(`Moved`). The invariant is `Lively`: a running container has a guest, and the status is the one
that the holder of the lock has left.

What is proved: whatever happens to a container, its history is such a path, `paused` is not on it,
and a call that finds the container running finds a guest.
-/

namespace ContainerHost

/-! ## Paths -/

/-- The edges of a container's life. -/
inductive Edge : Status → Status → Prop where
  | up : Edge .starting .running
  | broken : Edge .starting .error
  | down : Edge .running .stopping
  | cleared : Edge .error .stopping
  | gone : Edge .stopping .stopped
  | again : Edge .stopped .starting

/-- The edges together with the one that only a hot reload takes. -/
inductive Turn : Status → Status → Prop where
  | edge {a b : Status} (h : Edge a b) : Turn a b
  | reload : Turn .running .running

/-- The statuses entered in turn on the way from one status to another. -/
inductive Path (R : Status → Status → Prop) : Status → List Status → Status → Prop where
  | nil (a : Status) : Path R a [] a
  | cons {a b c : Status} {l : List Status} (h : R a b) (p : Path R b l c) : Path R a (b :: l) c

/-- How often the way from a status takes the step from `a` to `b`. -/
def crossings (a b : Status) : Status → List Status → Nat
  | _, [] => 0
  | x, y :: l => (if x = a ∧ y = b then 1 else 0) + crossings a b y l

namespace Path

variable {R S : Status → Status → Prop} {a b c : Status} {l l' : List Status}

theorem append (h : Path R a l b) (g : Path R b l' c) : Path R a (l ++ l') c := by
  induction h with
  | nil a => exact g
  | cons h _ ih => exact .cons h (ih g)

theorem mono (hRS : ∀ x y, R x y → S x y) (h : Path R a l b) : Path S a l b := by
  induction h with
  | nil a => exact .nil a
  | cons h _ ih => exact .cons (hRS _ _ h) ih

theorem crossings_append (x y : Status) (h : Path R a l b) :
    crossings x y a (l ++ l') = crossings x y a l + crossings x y b l' := by
  induction h with
  | nil a => simp [crossings]
  | cons h _ ih => simp only [List.cons_append, crossings, ih, Nat.add_assoc]

theorem entered (h : Path R a l b) {x : Status} (hx : x ∈ l) : ∃ y, R y x := by
  induction h with
  | nil a => cases hx
  | cons h _ ih =>
    rcases List.mem_cons.mp hx with rfl | hx
    · exact ⟨_, h⟩
    · exact ih hx

end Path

theorem not_turn_paused (x : Status) : ¬ Turn x .paused := by
  intro h
  cases h with
  | edge h => cases h

/-- A status that a container has while nothing has its lock. -/
def Status.Settled (s : Status) : Prop := s = .running ∨ s = .stopped ∨ s = .error

/-! ## Moves -/

namespace Container

/-- `d` is `c` after a walk along edges, with an announcement for each time that it stopped. -/
def Moved (R : Status → Status → Prop) (c d : Container) : Prop :=
  ∃ path, d.history = c.history ++ path ∧ Path R c.status path d.status ∧
    d.announced .containerStop =
      c.announced .containerStop + crossings .stopping .stopped c.status path

namespace Moved

variable {R S : Status → Status → Prop} {c d e : Container}

theorem refl (c : Container) : Moved R c c := ⟨[], by simp, .nil _, rfl⟩

theorem trans (h : Moved R c d) (g : Moved R d e) : Moved R c e := by
  obtain ⟨p, hh, hp, ha⟩ := h
  obtain ⟨q, gh, gp, ga⟩ := g
  refine ⟨p ++ q, ?_, hp.append gp, ?_⟩
  · rw [gh, hh, List.append_assoc]
  · rw [ga, ha, hp.crossings_append, Nat.add_assoc]

theorem mono (hRS : ∀ x y, R x y → S x y) (h : Moved R c d) : Moved S c d := by
  obtain ⟨p, hh, hp, ha⟩ := h
  exact ⟨p, hh, hp.mono hRS, ha⟩

end Moved

/-- `d` is `c` after something that enters no status and leaves a guest where there is one. -/
structure Still (c d : Container) : Prop where
  id : d.id = c.id
  status : d.status = c.status
  history : d.history = c.history
  stops : d.announced .containerStop = c.announced .containerStop
  guest : c.guest.isSome → d.guest.isSome

theorem Still.refl (c : Container) : Still c c := ⟨rfl, rfl, rfl, rfl, fun hg => hg⟩

theorem Still.trans {c d e : Container} (h : Still c d) (g : Still d e) : Still c e :=
  ⟨g.id.trans h.id, g.status.trans h.status, g.history.trans h.history, g.stops.trans h.stops,
    fun hg => g.guest (h.guest hg)⟩

variable {R : Status → Status → Prop} {c d : Container}

theorem Still.moved (h : Still c d) : Moved R c d :=
  ⟨[], by rw [h.history, List.append_nil], h.status ▸ .nil _, by rw [h.stops]; rfl⟩

theorem still_of_aside (h : Aside c d) : Still c d :=
  ⟨h.id, h.status, h.history, h.announced _ (by decide) (by decide) (by decide),
    fun hg => h.guest ▸ hg⟩

theorem still_announce (c : Container) {t : Topic} (p : List (String × Json.Value))
    (ht : t ≠ .containerStop) : Still c (c.announce t p) :=
  ⟨rfl, rfl, rfl, announced_announce_of_ne c p ht, fun hg => hg⟩

/-- A status is entered along an edge; `stopped` is only entered by a container that says so. -/
theorem moved_setStatus (c : Container) {s : Status} (h : R c.status s) (hs : s ≠ .stopped) :
    Moved R c (c.setStatus s) := by
  refine ⟨[s], rfl, .cons h (.nil s), ?_⟩
  have hzero : crossings .stopping .stopped c.status [s] = 0 := by simp [crossings, hs]
  rw [hzero]
  rfl

theorem moved_shutDown (h : c.status = .running ∨ c.status = .error) :
    Moved Edge c c.shutDown := by
  have hdown : Edge c.status .stopping := by
    rcases h with h | h
    · exact h ▸ .down
    · exact h ▸ .cleared
  refine (moved_setStatus c hdown (by decide)).trans ?_
  exact ⟨[.stopped], rfl, .cons .gone (.nil _), announced_announce_self _ _ _⟩

theorem moved_stop (h : c.status.Settled) : Moved Edge c c.stop := by
  unfold stop
  split
  · exact .refl c
  · rename_i hne
    rcases h with h | h | h
    · exact moved_shutDown (.inl h)
    · exact absurd h hne
    · exact moved_shutDown (.inr h)

theorem status_stop (c : Container) : c.stop.status = .stopped := by
  unfold stop
  split
  · assumption
  · rfl

theorem moved_start (h : c.status = .starting) (env : Surroundings) :
    Moved Edge c (c.start env).2 := by
  unfold start boot
  cases c.sandbox.instantiate env c.module c.id with
  | error e => exact moved_setStatus c (h ▸ .broken) (by decide)
  | ok g =>
    refine Moved.trans (d := { c.install g with
      state := .empty, startedAt := env.now, memoryWarned := false })
      (Still.moved ⟨rfl, rfl, rfl, rfl, fun _ => rfl⟩) ?_
    exact moved_setStatus _ (show Edge c.status _ from h ▸ .up) (by decide)

theorem start_ends (c : Container) (env : Surroundings) :
    ((c.start env).2.status = .running ∧ (c.start env).2.guest.isSome) ∨
      (c.start env).2.status = .error := by
  unfold start boot
  cases c.sandbox.instantiate env c.module c.id with
  | error e => exact .inr rfl
  | ok g => exact .inl ⟨rfl, rfl⟩

/-! ## Parts of operations -/

theorem moved_revive (h : c.status = .starting) (snapshot : State) (env : Surroundings) :
    Moved Edge c (c.revive snapshot env).2 := by
  have hstart := moved_start h env
  unfold revive
  generalize c.start env = started at hstart ⊢
  rcases started with ⟨e | u, d⟩
  · exact hstart
  · have hupdate := aside_of_updated (updated_updateState d snapshot)
    exact (hstart.trans (still_of_aside hupdate).moved).trans (still_announce _ _ (by decide)).moved

theorem revive_ends (c : Container) (snapshot : State) (env : Surroundings) :
    ((c.revive snapshot env).2.status = .running ∧ (c.revive snapshot env).2.guest.isSome) ∨
      (c.revive snapshot env).2.status = .error := by
  have hends := start_ends c env
  unfold revive
  generalize c.start env = started at hends ⊢
  rcases started with ⟨e | u, d⟩
  · exact hends
  · have hupdate := aside_of_updated (updated_updateState d snapshot)
    show ((d.updateState snapshot).status = _ ∧ (d.updateState snapshot).guest.isSome) ∨
      (d.updateState snapshot).status = _
    rw [hupdate.status, hupdate.guest]
    exact hends

theorem moved_endReload {r : Reload} (h : r.wasRunning = true → c.status = .running) :
    Moved Turn c (c.endReload r) := by
  have hupdate := aside_of_updated (updated_updateState c r.snapshot)
  unfold endReload
  refine Moved.trans ?_ (still_announce _ _ (by decide)).moved
  split
  · rename_i hwas
    refine (still_of_aside hupdate).moved.trans (moved_setStatus _ ?_ (by decide))
    rw [hupdate.status, h hwas]
    exact .reload
  · exact .refl c

theorem endReload_ends {r : Reload} (h : r.wasRunning = true → c.status = .running) :
    (c.endReload r).status = c.status ∧ (c.endReload r).guest = c.guest := by
  have hupdate := aside_of_updated (updated_updateState c r.snapshot)
  unfold endReload
  split
  · rename_i hwas
    exact ⟨(h hwas).symm, hupdate.guest⟩
  · exact ⟨rfl, rfl⟩

theorem still_settleCall (c : Container) (function : String)
    (result : Except Error (List Wasm.Value)) (now : Nat) (took : Duration) :
    Still c (c.settleCall function result now took) := by
  have hcount (k : Counters) : Still c { c with counters := k } :=
    ⟨rfl, rfl, rfl, rfl, fun hg => hg⟩
  cases result with
  | error e => exact (hcount _).trans (still_announce _ _ (by decide))
  | ok vs =>
    unfold settleCall
    dsimp only
    split
    · exact (hcount _).trans (still_announce _ _ (by decide))
    · exact hcount _

theorem still_beginCall (c : Container) (function : String) (args : List Wasm.Value) (now : Nat) :
    Still c (c.beginCall function args now).2 := by
  rcases beginCall_cases c function args now with
    ⟨-, hc⟩ | ⟨-, e, d, hobs, -, hc⟩ | ⟨-, g, d, hobs, -, hc⟩
  · rw [hc]
    exact .refl c
  · rw [hc]
    refine (still_of_aside (aside_of_observed hobs)).trans ?_
    exact still_settleCall d function (.error e) now ⟨0⟩
  · rw [hc]
    refine (still_of_aside (aside_of_observed hobs)).trans ?_
    exact ⟨rfl, rfl, rfl, rfl, fun _ => rfl⟩

end Container

/-! ## The invariant -/

/-- The action is part of a call, an update, a change of subscribers or a look, and so no step of a
lifecycle operation. -/
def Action.Plain : Action → Prop
  | .call .. | .answer .. | .update _ | .subscribe .. | .unsubscribe _ | .query .. => True
  | .stop | .restart | .wake | .boot _ | .reload .. | .swap _ | .restore => False

namespace Session

def Leaves : Option Holder → Status → Prop
  | none, status => status.Settled
  | some (.resting _), status => status = .stopped
  | some (.booting _), status => status = .starting
  | some (.reloading r _ _), status | some (.reloaded r), status =>
    status.Settled ∧ (r.wasRunning = true ↔ status = .running)

/-- A container in use is lively when it runs a guest if it runs, and its status is the one that the
holder of its lock has left. -/
structure Lively (s : Session) : Prop where
  present : s.container.status = .running → s.container.guest.isSome
  held : Leaves s.holder s.container.status

/-- `t` is what becomes of a lively `s` in one step. -/
structure Next (R : Status → Status → Prop) (s t : Session) : Prop where
  lively : t.Lively
  moved : Container.Moved R s.container t.container

section

variable {s t : Session}

/-- Whoever leaves the lock alone and is still keeps a container lively. -/
theorem Lively.next_of_still (h : s.Lively) (hh : t.holder = s.holder)
    (hs : Container.Still s.container t.container) : Next Edge s t := by
  refine ⟨⟨?_, ?_⟩, hs.moved⟩
  · intro hrun
    exact hs.guest (h.present (hs.status ▸ hrun))
  · rw [hh, hs.status]
    exact h.held

/-- Plain actions enter no status. -/
theorem still_act (s : Session) {a : Action} (ha : a.Plain) :
    (s.act a).holder = s.holder ∧ Container.Still s.container (s.act a).container := by
  cases a with
  | call function args now =>
    have hstill := Container.still_beginCall s.container function args now
    simp only [act, call]
    split
    · rename_i hc
      rw [hc] at hstill
      exact ⟨rfl, hstill⟩
    · rename_i hc
      rw [hc] at hstill
      exact ⟨rfl, hstill⟩
  | answer i now =>
    simp only [act, answer]
    cases s.inside[i]? with
    | none => exact ⟨rfl, .refl _⟩
    | some v => exact ⟨rfl, Container.still_settleCall ..⟩
  | update u =>
    exact ⟨rfl, Container.still_of_aside (Container.aside_of_updated
      (Container.updated_updateState _ u))⟩
  | subscribe tag fails replies =>
    exact ⟨rfl, Container.still_of_aside (Container.aside_subscribe ..)⟩
  | unsubscribe id => exact ⟨rfl, Container.still_of_aside (Container.aside_unsubscribe ..)⟩
  | query q now =>
    exact ⟨rfl, Container.still_of_aside (Container.aside_of_observed
      (Container.observed_query _ now q))⟩
  | _ => exact ha.elim

theorem Lively.whenFree (h : s.Lively) {f : Session → Session}
    (hf : s.holder = none → Next Edge s (f s)) : Next Edge s (s.whenFree f) := by
  unfold Session.whenFree
  cases hh : s.holder with
  | none => exact hf hh
  | some _ => exact ⟨h, .refl _⟩

theorem Lively.leaves (h : s.Lively) {x : Option Holder} (hh : s.holder = x) :
    Leaves x s.container.status := by
  rw [← hh]
  exact h.held

theorem Lively.settled (h : s.Lively) (hh : s.holder = none) : s.container.status.Settled :=
  h.leaves hh

theorem Lively.next_stop (h : s.Lively) (hh : s.holder = none) :
    Next Edge s s.stop := by
  have hstopped := s.container.status_stop
  refine ⟨⟨?_, ?_⟩, Container.moved_stop (h.settled hh)⟩
  · intro hrun
    exact absurd (hstopped.symm.trans hrun) (by decide)
  · show Leaves s.holder s.container.stop.status
    rw [hh, hstopped]
    exact .inr (.inl rfl)

theorem Lively.next_restart (h : s.Lively) (hh : s.holder = none) : Next Edge s s.restart := by
  have hstopped := s.container.status_stop
  refine ⟨⟨?_, hstopped⟩, Container.moved_stop (h.settled hh)⟩
  intro hrun
  exact absurd (hstopped.symm.trans hrun) (by decide)

theorem Lively.next_wake (h : s.Lively) : Next Edge s s.wake := by
  unfold wake
  split
  · rename_i snapshot hholder
    have hstopped : s.container.status = .stopped := h.leaves hholder
    refine ⟨⟨fun hrun => ?_, rfl⟩, Container.moved_setStatus _ (hstopped ▸ .again) (by decide)⟩
    cases hrun
  · exact ⟨h, .refl _⟩

theorem Lively.next_boot (h : s.Lively) (env : Surroundings) : Next Edge s (s.boot env) := by
  unfold boot
  split
  · rename_i snapshot hholder
    have hstarting : s.container.status = .starting := h.leaves hholder
    refine ⟨?_, Container.moved_revive hstarting snapshot env⟩
    rcases s.container.revive_ends snapshot env with ⟨hrun, hguest⟩ | herror
    · exact ⟨fun _ => hguest, .inl hrun⟩
    · refine ⟨fun hrun => ?_, .inr (.inr herror)⟩
      exact absurd (herror.symm.trans hrun) (by decide)
  · exact ⟨h, .refl _⟩

theorem Lively.next_reload (h : s.Lively) (hh : s.holder = none) (m : Guest.Compiled)
    (digest : Option String) : Next Edge s (s.reload m digest) := by
  refine ⟨⟨h.present, h.settled hh, ?_⟩, .refl _⟩
  show decide (s.container.status = .running) = true ↔ s.container.status = .running
  exact decide_eq_true_iff

theorem Lively.next_swap (h : s.Lively) (env : Surroundings) : Next Edge s (s.swap env) := by
  unfold swap
  split
  · rename_i r m digest hholder
    obtain ⟨hsettled, hwas⟩ := h.leaves hholder
    split
    · exact ⟨⟨h.present, hsettled⟩, .refl _⟩
    · rename_i g _
      have hstill : Container.Still s.container (s.container.swap g m digest) :=
        ⟨rfl, rfl, rfl, rfl, fun _ => rfl⟩
      exact ⟨⟨fun _ => rfl, hsettled, hwas⟩, hstill.moved⟩
  · exact ⟨h, .refl _⟩

theorem Lively.next_restore (h : s.Lively) : Next Turn s s.restore := by
  unfold restore
  split
  · rename_i r hholder
    obtain ⟨hsettled, hwas⟩ := h.leaves hholder
    obtain ⟨hstatus, hguest⟩ := Container.endReload_ends hwas.mp
    refine ⟨⟨?_, ?_⟩, Container.moved_endReload hwas.mp⟩
    · intro hrun
      rw [hguest]
      exact h.present (hstatus ▸ hrun)
    · show (s.container.endReload r).status.Settled
      rw [hstatus]
      exact hsettled
  · exact ⟨h, .refl _⟩

/-- Everything but the end of a hot reload goes along the edges of the life. -/
theorem Lively.next_of_ne_restore (h : s.Lively) (a : Action) (ha : a ≠ .restore) :
    Next Edge s (s.act a) := by
  by_cases hplain : a.Plain
  · obtain ⟨hholder, hstill⟩ := s.still_act hplain
    exact h.next_of_still hholder hstill
  cases a with
  | stop => exact h.whenFree fun hh => h.next_stop hh
  | restart => exact h.whenFree fun hh => h.next_restart hh
  | wake => exact h.next_wake
  | boot env => exact h.next_boot env
  | reload m digest =>
    exact h.whenFree (f := fun s => s.reload m digest) fun hh => h.next_reload hh m digest
  | swap env => exact h.next_swap env
  | restore => exact absurd rfl ha
  | _ => exact absurd trivial hplain

theorem Lively.next (h : s.Lively) (a : Action) : Next Turn s (s.act a) := by
  by_cases ha : a = .restore
  · subst ha
    exact h.next_restore
  · obtain ⟨hlively, hmoved⟩ := h.next_of_ne_restore a ha
    exact ⟨hlively, hmoved.mono fun _ _ => .edge⟩

end

/-! ## Whole lives -/

theorem lively_created (id name : String) (sandbox : Guest.Sandbox) (module : Guest.Compiled)
    (digest : Option String) (env : Surroundings) :
    (created id name sandbox module digest env).Lively := by
  let c := Container.raw id name sandbox module digest env.now
  rcases c.start_ends env with ⟨hrun, hguest⟩ | herror
  · exact ⟨fun _ => hguest, .inl hrun⟩
  · refine ⟨fun hrun => ?_, .inr (.inr herror)⟩
    exact absurd (herror.symm.trans hrun) (by decide)

theorem lively_run {s : Session} (h : s.Lively) (as : List Action) : (s.run as).Lively :=
  run_induction (fun _ a h => (h.next a).lively) h as

theorem moved_run {s : Session} (h : s.Lively) (as : List Action) :
    Container.Moved Turn s.container (s.run as).container := by
  -- the path depends on where it begins, so that `run_induction` does not give it
  induction as generalizing s with
  | nil => exact .refl _
  | cons a as ih => exact (h.next a).moved.trans (ih (h.next a).lively)

/-- A container that was made is the container of its session, and runs. -/
theorem created_of_create {id name : String} {sandbox : Guest.Sandbox} {module : Guest.Compiled}
    {digest : Option String} {env : Surroundings} {c : Container}
    (h : Container.create id name sandbox module digest env = .ok c) :
    (created id name sandbox module digest env).container = c := by
  unfold Container.create at h
  unfold created opened
  cases hv : validateId id with
  | error reason => simp [hv] at h
  | ok u =>
    simp only [hv] at h
    rcases hs : (Container.raw id name sandbox module digest env.now).start env with ⟨e | u, d⟩
    · simp [hs, Except.map] at h
    · simpa [hs, Except.map] using h

theorem Lively.finds_guest {s : Session} (h : s.Lively) (hrun : s.container.status = .running)
    (function : String) (args : List Wasm.Value) (now : Nat) :
    (s.container.beginCall function args now).1 ≠ .ended (.error s.container.invalidState) := by
  have hdecided := Container.decided h.present function args now
  unfold Container.Decided at hdecided
  intro hbegin
  split at hdecided
  · rename_i e hrefusal
    rw [hbegin] at hdecided
    obtain ⟨-, heq, -⟩ := hdecided
    cases heq
    exact Container.refusal?_ne_invalidState hrun hrefusal
  · obtain ⟨g, -, -, heq, -⟩ := hdecided
    rw [hbegin] at heq
    cases heq

/-- A hot reload that fails leaves the container as it is. -/
theorem hotReload_error {c : Container} {m : Guest.Compiled} {digest : Option String}
    {env : Surroundings} {e : Error} (h : (c.hotReload m digest env).1 = .error e) :
    (c.hotReload m digest env).2 = c := by
  unfold Container.hotReload at h ⊢
  dsimp only at h ⊢
  split at h
  · rfl
  · cases h

/-- The life of a container: whatever happens to it from its creation on, the statuses that it
enters follow the edges of the life, and only the end of a hot reload enters `running` again; it has
announced a stop for each step from `stopping` to `stopped`; it is settled while no operation has
its lock; and a call that finds it running finds a guest. Calls, updates and reloads that fail
enter no status. -/
theorem life_of_created (id name : String) (sandbox : Guest.Sandbox) (module : Guest.Compiled)
    (digest : Option String) (env : Surroundings) (actions : List Action) :
    let s := (created id name sandbox module digest env).run actions
    (Path Turn .starting s.container.history s.container.status ∧
      .paused ∉ .starting :: s.container.history ∧
      s.container.announced .containerStop =
        crossings .stopping .stopped .starting s.container.history) ∧
    (∀ a, a ≠ .restore → Container.Moved Edge s.container (s.act a).container) ∧
    (∀ a, a.Plain → (s.act a).container.status = s.container.status ∧
      (s.act a).container.history = s.container.history) ∧
    (∀ m digest env e, (s.container.hotReload m digest env).1 = .error e →
      (s.container.hotReload m digest env).2 = s.container) ∧
    (∀ m digest, (s.act (.reload m digest)).container = s.container) ∧
    (∀ r m digest env e, s.holder = some (.reloading r m digest) →
      s.container.reloadedGuest m env = .error e →
      (s.act (.swap env)).container = s.container ∧ (s.act (.swap env)).holder = none) ∧
    (s.holder = none → s.container.status.Settled) ∧
    (s.container.status = .running → s.container.guest.isSome ∧
      ∀ function args now, (s.container.beginCall function args now).1 ≠
        .ended (.error s.container.invalidState)) := by
  intro s
  have hcreated := lively_created id name sandbox module digest env
  have hlively : s.Lively := lively_run hcreated actions
  have hmoved : Container.Moved Turn (.raw id name sandbox module digest env.now) s.container := by
    have hstart := Container.moved_start (c := .raw id name sandbox module digest env.now) rfl env
    exact (hstart.mono fun _ _ => .edge).trans (moved_run hcreated actions)
  obtain ⟨path, hhistory, hpath, hstops⟩ := hmoved
  have hentered : s.container.history = path := hhistory
  rw [hentered]
  refine ⟨⟨hpath, ?_, ?_⟩, ?_, ?_, ?_, ?_, ?_, hlively.settled, ?_⟩
  · -- no edge of the life leads to `paused`
    intro hpaused
    rcases List.mem_cons.mp hpaused with hstarting | hmem
    · cases hstarting
    · obtain ⟨x, hx⟩ := hpath.entered hmem
      exact not_turn_paused x hx
  · rw [hstops]
    exact Nat.zero_add _
  · intro a ha
    exact (hlively.next_of_ne_restore a ha).moved
  · intro a ha
    obtain ⟨-, hstill⟩ := s.still_act ha
    exact ⟨hstill.status, hentered ▸ hstill.history⟩
  · intro m digest env e he
    exact hotReload_error he
  · intro m digest
    simp only [act, whenFree]
    split <;> rfl
  · intro r m digest env e hholder he
    simp only [act, swap, hholder, he]
    exact ⟨trivial, trivial⟩
  · intro hrun
    exact ⟨hlively.present hrun, hlively.finds_guest hrun⟩

/-- A container of the empty module. -/
def fresh : Session :=
  created "unit-1" "unit" unitSandbox ⟨1, .empty⟩ none ⟨.ofDirs [], 0⟩

/-- The life of a container that was restarted. -/
theorem life_of_restarted :
    let s := fresh.run [.restart, .wake, .boot ⟨.ofDirs [], 0⟩]
    Path Turn .starting [.running, .stopping, .stopped, .starting, .running] .running ∧
    s.container.announced .containerStop = 1 ∧
    s.holder = none ∧ s.container.status.Settled ∧
    s.container.status = .running ∧ s.container.guest.isSome := by
  intro s
  have hhistory : s.container.history = [.running, .stopping, .stopped, .starting, .running] := rfl
  obtain ⟨⟨hpath, -, hstops⟩, -, -, -, -, -, hsettled, hruns⟩ :=
    life_of_created "unit-1" "unit" unitSandbox ⟨1, .empty⟩ none ⟨.ofDirs [], 0⟩
      [.restart, .wake, .boot ⟨.ofDirs [], 0⟩]
  have hone : crossings .stopping .stopped .starting s.container.history = 1 := by
    rw [hhistory]
    decide
  exact ⟨hpath, hstops.trans hone, rfl, hsettled rfl, rfl, (hruns rfl).1⟩

end Session
end ContainerHost
