import ContainerHost.Proofs.Container.Lifecycle
/-!
# The accounts of calls

A call that finds the container running is counted once, when it ends: among the calls if it
returned, and otherwise among the errors, with an announcement. `Accounted` is the invariant; calls
that are inside the guest are the ones that are not counted yet. Lifecycle operations count nothing
and give nothing back (`Uncounted`), so that the accounts go on over restarts and hot reloads.

What is proved: `accounted_run`, and that a call that fails leaves the container's own figures
alone (`Spared`).
-/

namespace ContainerHost

/-- A call came back with values. -/
def returned (result : Except Error (List Wasm.Value)) : Bool :=
  match result with
  | .ok _ => true
  | .error _ => false

@[simp] theorem returned_ok (vs : List Wasm.Value) : returned (.ok vs) = true := rfl

@[simp] theorem returned_error (e : Error) : returned (.error e) = false := rfl

namespace Container

/-! ## What counts nothing -/

/-- `d` is `c` after something that is no end of a call. -/
structure Uncounted (c d : Container) : Prop where
  calls : d.counters.calls = c.counters.calls
  errors : d.counters.errors = c.counters.errors
  announced : d.announced .containerError = c.announced .containerError

variable {c d e : Container}

theorem Uncounted.refl (c : Container) : Uncounted c c := ⟨rfl, rfl, rfl⟩

theorem Uncounted.trans (h : Uncounted c d) (g : Uncounted d e) : Uncounted c e :=
  ⟨g.calls.trans h.calls, g.errors.trans h.errors, g.announced.trans h.announced⟩

theorem uncounted_of_aside (h : Aside c d) : Uncounted c d :=
  ⟨h.calls, h.errors, h.announced _ (by decide) (by decide) (by decide)⟩

theorem uncounted_announce (c : Container) {t : Topic} (p : List (String × Json.Value))
    (ht : t ≠ .containerError) : Uncounted c (c.announce t p) :=
  ⟨rfl, rfl, announced_announce_of_ne c p ht⟩

theorem uncounted_setStatus (c : Container) (s : Status) : Uncounted c (c.setStatus s) :=
  ⟨rfl, rfl, rfl⟩

theorem uncounted_stop (c : Container) : Uncounted c c.stop := by
  unfold stop
  split
  · exact .refl c
  · exact ⟨rfl, rfl, announced_announce_of_ne _ _ (by decide)⟩

theorem uncounted_start (c : Container) (env : Surroundings) : Uncounted c (c.start env).2 := by
  unfold start boot
  cases c.sandbox.instantiate env c.module c.id with
  | error e => exact uncounted_setStatus c .error
  | ok g => exact ⟨rfl, rfl, rfl⟩

theorem uncounted_revive (c : Container) (snapshot : State) (env : Surroundings) :
    Uncounted c (c.revive snapshot env).2 := by
  have hstart := uncounted_start c env
  unfold revive
  generalize c.start env = started at hstart ⊢
  rcases started with ⟨e | u, d⟩
  · exact hstart
  · have hupdate := aside_of_updated (updated_updateState d snapshot)
    exact (hstart.trans (uncounted_of_aside hupdate)).trans
      (uncounted_announce _ _ (by decide))

theorem uncounted_endReload (c : Container) (r : Reload) : Uncounted c (c.endReload r) := by
  have hupdate := aside_of_updated (updated_updateState c r.snapshot)
  unfold endReload
  refine Uncounted.trans ?_ (uncounted_announce _ _ (by decide))
  split
  · exact (uncounted_of_aside hupdate).trans (uncounted_setStatus _ _)
  · exact .refl c

/-! ## The end of a call -/

/-- `d` is `c` after a call that came to its end: the call is counted once, and announced if it
failed. -/
structure Counted (result : Except Error (List Wasm.Value)) (c d : Container) : Prop where
  calls : d.counters.calls = c.counters.calls + if returned result then 1 else 0
  errors : d.counters.errors = c.counters.errors + if returned result then 0 else 1
  announced : d.announced .containerError =
    c.announced .containerError + if returned result then 0 else 1

theorem counted_settleCall (c : Container) (function : String)
    (result : Except Error (List Wasm.Value)) (now : Nat) (took : Duration) :
    Counted result c (c.settleCall function result now took) := by
  cases result with
  | error e => exact ⟨rfl, rfl, announced_announce_self _ _ _⟩
  | ok vs =>
    unfold settleCall
    dsimp only
    split
    · exact ⟨rfl, rfl, announced_announce_of_ne _ _ (by decide)⟩
    · exact ⟨rfl, rfl, rfl⟩

/-- `d` is `c` after something that is none of its business: its status, its state, the number of
calls and the last of them are the same. -/
structure Spared (c d : Container) : Prop where
  status : d.status = c.status
  state : d.state = c.state
  calls : d.counters.calls = c.counters.calls
  lastCall : d.counters.lastCall = c.counters.lastCall

theorem spared_of_observed (h : Observed c d) : Spared c d := by
  obtain ⟨peak, warned, ticker, news, rfl, -⟩ := h
  exact ⟨rfl, rfl, rfl, rfl⟩

theorem spared_settleCall (c : Container) (function : String) (e : Error) (now : Nat)
    (took : Duration) : Spared c (c.settleCall function (.error e) now took) :=
  ⟨rfl, rfl, rfl, rfl⟩

/-- Beginning a call changes nothing that a call may change before it returns. -/
theorem spared_beginCall (c : Container) (function : String) (args : List Wasm.Value) (now : Nat) :
    Spared c (c.beginCall function args now).2 := by
  rcases beginCall_cases c function args now with
    ⟨-, hc⟩ | ⟨-, e, d, hobs, -, hc⟩ | ⟨-, g, d, hobs, -, hc⟩
  · rw [hc]
    exact ⟨rfl, rfl, rfl, rfl⟩
  · rw [hc]
    obtain ⟨hstatus, hstate, hcalls, hlast⟩ := spared_of_observed hobs
    exact ⟨hstatus, hstate, hcalls, hlast⟩
  · rw [hc]
    obtain ⟨hstatus, hstate, hcalls, hlast⟩ := spared_of_observed hobs
    exact ⟨hstatus, hstate, hcalls, hlast⟩

theorem spared_endCall (c : Container) (function : String) (e : Error) (took : Duration)
    (now : Nat) : Spared c (c.endCall (.entered function (.error e) took) now).2 :=
  spared_settleCall c function e now took

/-- A call that fails, from its beginning to its end. -/
theorem spared_call {c : Container} {function : String} {args : List Wasm.Value} {now : Nat}
    {e : Error} (h : (c.call function args now).1 = .error e) :
    Spared c (c.call function args now).2.2 := by
  have hbegin := spared_beginCall c function args now
  unfold call at h ⊢
  rcases hp : c.beginCall function args now with ⟨p, d⟩
  rw [hp] at hbegin
  simp only [hp] at h ⊢
  cases p with
  | ended result => exact hbegin
  | entered f result took =>
    have hresult : result = .error e := h
    subst hresult
    obtain ⟨hstatus, hstate, hcalls, hlast⟩ := hbegin
    exact ⟨hstatus, hstate, hcalls, hlast⟩

/-- A call that is refused for the status leaves no trace. -/
theorem call_of_not_running {c : Container} (h : c.status ≠ .running) (function : String)
    (args : List Wasm.Value) (now : Nat) :
    c.call function args now = (.error c.invalidState, ⟨0⟩, c) := by
  have hbegin : c.beginCall function args now = (.ended (.error c.invalidState), c) := by
    simp only [beginCall, ne_eq, h, not_false_eq_true, if_true]
  simp only [call, hbegin, endCall, CallProgress.took]

end Container

/-! ## The invariant -/

namespace Session

/-- Every call that passed the first check is counted as a call or as an error, or is still inside
the guest; the calls are the ones that returned, and each error was announced. -/
structure Accounted (s : Session) : Prop where
  passed : s.passed = s.container.counters.calls + s.container.counters.errors + s.inside.length
  calls : s.container.counters.calls = s.answers.countP returned
  events : s.container.announced .containerError = s.container.counters.errors

variable {s t : Session}

theorem Accounted.of_uncounted (h : s.Accounted)
    (hc : Container.Uncounted s.container t.container) (hp : t.passed = s.passed)
    (hi : t.inside = s.inside) (ha : t.answers = s.answers) : t.Accounted := by
  refine ⟨?_, ?_, ?_⟩
  · rw [hp, hi, hc.calls, hc.errors, h.passed]
  · rw [hc.calls, ha, h.calls]
  · rw [hc.announced, hc.errors, h.events]

theorem Accounted.call (h : s.Accounted) (function : String) (args : List Wasm.Value)
    (now : Nat) : (s.call function args now).Accounted := by
  unfold Session.call
  rcases Container.beginCall_cases s.container function args now with
    ⟨hs, hc⟩ | ⟨hs, e, d, hobs, -, hc⟩ | ⟨hs, g, d, hobs, -, hc⟩
  · simp only [hc, if_neg hs]
    refine ⟨h.passed, ?_, h.events⟩
    rw [h.calls, List.countP_append]
    rfl
  · have hd := Container.uncounted_of_aside (Container.aside_of_observed hobs)
    obtain ⟨hcalls, herrors, hevents⟩ :=
      Container.counted_settleCall d function (.error e) now ⟨0⟩
    have hpassed := h.passed
    simp only [hc, if_pos hs]
    -- refused behind the first check: it passed, and is counted among the errors at once
    refine ⟨?_, ?_, ?_⟩
    · rw [hcalls, herrors, hd.calls, hd.errors]
      simp only [returned_error, Bool.false_eq_true, if_false]
      omega
    · rw [hcalls, hd.calls, h.calls, List.countP_append]
      rfl
    · rw [hevents, herrors, hd.announced, hd.errors, h.events]
  · have hd := Container.uncounted_of_aside (Container.aside_of_observed hobs)
    have hpassed := h.passed
    simp only [hc, if_pos hs]
    -- inside the guest: it passed, and is counted when it comes out
    refine ⟨?_, ?_, ?_⟩
    · show s.passed + 1 = d.counters.calls + d.counters.errors + (s.inside ++ [_]).length
      rw [hd.calls, hd.errors, List.length_append]
      simp only [List.length_singleton]
      omega
    · exact hd.calls.trans h.calls
    · show d.announced .containerError = d.counters.errors
      rw [hd.announced, hd.errors, h.events]

theorem Accounted.answer (h : s.Accounted) (i now : Nat) : (s.answer i now).Accounted := by
  unfold Session.answer
  cases hi : s.inside[i]? with
  | none => exact h
  | some v =>
    obtain ⟨hlt, -⟩ := List.getElem?_eq_some_iff.mp hi
    obtain ⟨hcalls, herrors, hevents⟩ :=
      Container.counted_settleCall s.container v.function v.result now v.took
    have hpassed := h.passed
    refine ⟨?_, ?_, ?_⟩
    · show s.passed = (s.container.settleCall ..).counters.calls +
        (s.container.settleCall ..).counters.errors + (s.inside.eraseIdx i).length
      rw [hcalls, herrors, List.length_eraseIdx_of_lt hlt]
      split <;> omega
    · show (s.container.settleCall ..).counters.calls = (s.answers ++ [v.result]).countP returned
      rw [hcalls, h.calls, List.countP_append, List.countP_singleton]
    · show (s.container.settleCall ..).announced _ = (s.container.settleCall ..).counters.errors
      rw [hevents, herrors, h.events]

theorem Accounted.whenFree (h : s.Accounted) {f : Session → Session} (hf : (f s).Accounted) :
    (s.whenFree f).Accounted := by
  unfold Session.whenFree
  split
  · exact h
  · exact hf

/-- Nothing that happens to a container puts its accounts wrong. -/
theorem Accounted.act (h : s.Accounted) (a : Action) : (s.act a).Accounted := by
  cases a with
  | call function args now => exact h.call function args now
  | answer i now => exact h.answer i now
  | update u =>
    have haside := Container.aside_of_updated (Container.updated_updateState s.container u)
    exact h.of_uncounted (Container.uncounted_of_aside haside) rfl rfl rfl
  | subscribe tag fails replies =>
    have haside := Container.aside_subscribe s.container tag fails replies
    exact h.of_uncounted (Container.uncounted_of_aside haside) rfl rfl rfl
  | unsubscribe id =>
    have haside := Container.aside_unsubscribe s.container id
    exact h.of_uncounted (Container.uncounted_of_aside haside) rfl rfl rfl
  | query q now =>
    have haside := Container.aside_of_observed (Container.observed_query s.container now q)
    exact h.of_uncounted (Container.uncounted_of_aside haside) rfl rfl rfl
  | stop => exact h.whenFree (h.of_uncounted (Container.uncounted_stop _) rfl rfl rfl)
  | restart => exact h.whenFree (h.of_uncounted (Container.uncounted_stop _) rfl rfl rfl)
  | wake =>
    simp only [Session.act, Session.wake]
    split
    · exact h.of_uncounted (Container.uncounted_setStatus _ _) rfl rfl rfl
    · exact h
  | boot env =>
    simp only [Session.act, Session.boot]
    split
    · exact h.of_uncounted (Container.uncounted_revive _ _ _) rfl rfl rfl
    · exact h
  | reload m digest =>
    exact h.whenFree (f := fun s => s.reload m digest)
      (h.of_uncounted (.refl _) rfl rfl rfl)
  | swap env =>
    simp only [Session.act, Session.swap]
    split
    · split
      · exact h.of_uncounted (.refl _) rfl rfl rfl
      · exact h.of_uncounted ⟨rfl, rfl, rfl⟩ rfl rfl rfl
    · exact h
  | restore =>
    simp only [Session.act, Session.restore]
    split
    · exact h.of_uncounted (Container.uncounted_endReload _ _) rfl rfl rfl
    · exact h

theorem accounted_created (id name : String) (sandbox : Guest.Sandbox) (module : Guest.Compiled)
    (digest : Option String) (env : Surroundings) :
    (created id name sandbox module digest env).Accounted := by
  have hraw : (opened (.raw id name sandbox module digest env.now)).Accounted :=
    ⟨rfl, rfl, rfl⟩
  exact hraw.of_uncounted (Container.uncounted_start _ env) rfl rfl rfl

theorem accounted_run (h : s.Accounted) (as : List Action) : (s.run as).Accounted :=
  run_induction (fun _ a h => h.act a) h as

/-- The government of calls: a call is decided by the first check that has something against it, and
goes into the guest only if none has. However calls, updates and lifecycle operations of one
container interleave, the calls that found it running are the ones counted and the ones still
inside; those counted as calls returned, and each error was announced. A call that fails spares the
container, and one that is refused for the status leaves no trace of itself. -/
theorem government_of_calls :
    (∀ c : Container, (c.status = .running → c.guest.isSome) →
      ∀ function args now, c.Decided function args now) ∧
    ∀ (id name : String) (sandbox : Guest.Sandbox) (module : Guest.Compiled)
      (digest : Option String) (env : Surroundings) (actions : List Action),
      let s := (created id name sandbox module digest env).run actions
      s.Accounted ∧
      ∀ function args now,
        s.container.Decided function args now ∧
        (s.container.status ≠ .running → s.container.call function args now =
          (.error s.container.invalidState, ⟨0⟩, s.container)) ∧
        Container.Spared s.container (s.container.beginCall function args now).2 ∧
        (∀ e took, Container.Spared s.container
          (s.container.endCall (.entered function (.error e) took) now).2) ∧
        ∀ e, (s.container.call function args now).1 = .error e →
          Container.Spared s.container (s.container.call function args now).2.2 := by
  refine ⟨fun c hrun => Container.decided hrun, ?_⟩
  intro id name sandbox module digest env actions s
  have hlively : s.Lively := lively_run (lively_created ..) actions
  refine ⟨accounted_run (accounted_created ..) actions, ?_⟩
  intro function args now
  refine ⟨Container.decided hlively.present function args now, ?_, ?_, ?_, ?_⟩
  · intro hstatus
    exact Container.call_of_not_running hstatus function args now
  · exact Container.spared_beginCall _ function args now
  · intro e took
    exact Container.spared_endCall _ function e took now
  · intro e he
    exact Container.spared_call he

/-- A call of a function that the module has not is refused, and spares the container. -/
theorem government_of_missing :
    fresh.container.status = .running ∧
    (fresh.container.call "f" [] 0).1 = .error (.functionNotFound "unit-1" "f") ∧
    Container.Spared fresh.container (fresh.container.call "f" [] 0).2.2 ∧
    (fresh.run [.call "f" [] 0]).passed = 1 ∧ (fresh.run [.call "f" [] 0]).Accounted := by
  obtain ⟨hdecided, hcreated⟩ := government_of_calls
  have hcalls := hcreated "unit-1" "unit" unitSandbox ⟨1, .empty⟩ none ⟨.ofDirs [], 0⟩
  obtain ⟨hrefused, -⟩ : (fresh.container.call "f" [] 0).1 =
      .error (.functionNotFound "unit-1" "f") ∧ _ :=
    hdecided fresh.container (fun _ => rfl) "f" [] 0
  refine ⟨rfl, hrefused, ?_, rfl, (hcalls [.call "f" [] 0]).1⟩
  obtain ⟨-, -, -, -, hspared⟩ := (hcalls []).2 "f" [] 0
  exact hspared _ hrefused

end Session
end ContainerHost
