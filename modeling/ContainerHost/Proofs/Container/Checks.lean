import ContainerHost.Proofs.Container.Effects
/-!
# The checks before a call

A call is refused by the first check of `Check.order` that has something against it, and by nothing
else. `Check.verdict` says what each check looks at and what its error is, without the ways in which
the container comes to it: it is total, and it changes nothing.

What is proved:
  1. `beginCall_cases`: what a call that begins may do to a container.
  2. `decided`: a call to a container that has a guest whenever it runs ends with the verdict
     against it, without a look at the guest, or goes into the guest if there is none.
-/

namespace ContainerHost.Container

open Wasm (Value)

/-- A check before a call. -/
inductive Check where
  | status
  | time
  | memory
  | allowed
  | files
  | network
  | exported
  deriving DecidableEq, Repr

namespace Check

def order : List Check := [status, time, memory, allowed, files, network, exported]

/-- What a check has against a call. -/
def verdict (c : Container) (function : String) (now : Nat) : Check → Option Error
  | status =>
    if c.status = .running then none
    else some (.invalidState c.id c.status.name Status.running.name)
  | time =>
    match c.config.maxCpuTime with
    | none => none
    | some budget =>
      if now - c.startedAt > budget.nanos then
        some (.timeout s!"CPU time budget of container '{c.id}'" budget)
      else none
  | memory =>
    match c.guest with
    | none => none
    | some g =>
      if g.memorySize > c.config.maxMemory then
        some (.memoryLimitExceeded c.id g.memorySize c.config.maxMemory)
      else none
  | allowed =>
    match c.config.allowedImports with
    | none => none
    | some names =>
      if function ∈ names then none
      else some (.securityViolation c.id s!"function '{function}' is not in the allowed list")
  | files =>
    if function.startsWith "fs_" && !c.config.grants.fileSystemAccess then
      some (.securityViolation c.id s!"filesystem access denied for '{function}'")
    else none
  | network =>
    if function.startsWith "net_" && !c.config.grants.networkAccess then
      some (.securityViolation c.id s!"network access denied for '{function}'")
    else none
  | exported =>
    match c.guest with
    | none => none
    | some g => if g.hasFunction function then none else some (.functionNotFound c.id function)

end Check

/-- The verdict of the first check that has something against a call. -/
def refusal? (c : Container) (function : String) (now : Nat) : Option Error :=
  Check.order.findSome? (Check.verdict c function now)

variable {c d : Container} {function : String} {now : Nat} {g : Guest.Instance}

/-! ## Single checks -/

theorem verdict_status_eq_none : Check.verdict c function now .status = none ↔
    c.status = .running := by
  simp only [Check.verdict]
  split <;> simp [*]

theorem outOfTime_eq (c : Container) (function : String) (now : Nat) :
    c.outOfTime now = Check.time.verdict c function now := rfl

theorem verdict_allowed (c : Container) (function : String) (now : Nat) :
    Check.allowed.verdict c function now =
      if !c.config.isAllowed function then
        some (.securityViolation c.id s!"function '{function}' is not in the allowed list")
      else none := by
  unfold ContainerConfig.isAllowed
  cases h : c.config.allowedImports with
  | none => simp [Check.verdict, h]
  | some names =>
    by_cases hmem : function ∈ names
    · simp [Check.verdict, h, hmem]
    · simp [Check.verdict, h, hmem]

theorem verdict_files (c : Container) (function : String) (now : Nat) :
    Check.files.verdict c function now =
      if function.startsWith "fs_" && !c.config.grants.fileSystemAccess then
        some (.securityViolation c.id s!"filesystem access denied for '{function}'")
      else none := rfl

theorem verdict_network (c : Container) (function : String) (now : Nat) :
    Check.network.verdict c function now =
      if function.startsWith "net_" && !c.config.grants.networkAccess then
        some (.securityViolation c.id s!"network access denied for '{function}'")
      else none := rfl

/-- The policy is the three checks that look at names. -/
theorem checkPolicy_eq (c : Container) (function : String) (now : Nat) :
    c.checkPolicy function =
      match [Check.allowed, .files, .network].findSome? (Check.verdict c function now) with
      | some e => .error e
      | none => .ok () := by
  simp only [checkPolicy, List.findSome?_cons, List.findSome?_nil, verdict_allowed,
    verdict_files, verdict_network]
  by_cases ha : (!c.config.isAllowed function) = true
  · simp only [if_pos ha]
  · simp only [if_neg ha]
    by_cases hf : (function.startsWith "fs_" && !c.config.grants.fileSystemAccess) = true
    · simp only [if_pos hf]
    · simp only [if_neg hf]
      by_cases hn : (function.startsWith "net_" && !c.config.grants.networkAccess) = true
      · simp only [if_pos hn]
      · simp only [if_neg hn]

/-- A look at the memory of a guest says how large it is and how large it may be. -/
theorem observeMemory_ok (hg : c.guest = some g) :
    ∃ allocated peak, c.observeMemory.1 =
      .ok ⟨g.memorySize, allocated, peak, c.config.maxMemory⟩ := by
  refine ⟨c.config.maxPages * Limits.pageSize, max c.counters.peak g.memorySize, ?_⟩
  simp only [observeMemory, hg]
  split
  · split <;> rfl
  · rfl

/-- No check but the first looks at what a look at the memory changes. -/
theorem verdict_observed (h : Observed c d) (k : Check) :
    k.verdict d function now = k.verdict c function now := by
  obtain ⟨peak, warned, ticker, news, rfl, -⟩ := h
  cases k <;> rfl

/-! ## All checks -/

/-- The checks behind the first one decide whether a running container accepts a call. -/
theorem accept_eq (hg : c.guest = some g) (function : String) (now : Nat) :
    (c.accept function now).1 =
      match Check.order.tail.findSome? (Check.verdict c function now) with
      | some e => .error e
      | none => .ok g := by
  obtain ⟨allocated, peak, husage⟩ := observeMemory_ok hg
  have hobs := observed_observeMemory c
  rcases hd : c.observeMemory with ⟨usage, d⟩
  rw [hd] at husage hobs
  have hpolicy := checkPolicy_eq d function now
  rw [funext (verdict_observed hobs)] at hpolicy
  obtain ⟨hid, hguest⟩ : d.id = c.id ∧ d.guest = some g := by
    obtain ⟨_, _, _, _, rfl, -⟩ := hobs
    exact ⟨rfl, hg⟩
  have hmemory : Check.memory.verdict c function now =
      if g.memorySize > c.config.maxMemory then
        some (.memoryLimitExceeded c.id g.memorySize c.config.maxMemory)
      else none := by
    simp only [Check.verdict, hg]
  have hexport : Check.exported.verdict c function now =
      if g.hasFunction function then none else some (.functionNotFound c.id function) := by
    simp only [Check.verdict, hg]
  -- the checks come in three groups: of the limits, of the policy, and of the guest
  have horder : Check.order.tail =
      [Check.time, .memory] ++ [Check.allowed, .files, .network] ++ [Check.exported] := rfl
  simp only at husage
  subst husage
  rw [horder, List.findSome?_append, List.findSome?_append]
  generalize [Check.allowed, .files, .network].findSome? (Check.verdict c function now) = named
    at hpolicy ⊢
  simp only [accept, outOfTime_eq c function now, hd, List.findSome?_cons, List.findSome?_nil,
    hmemory, hexport, hid, hguest, hpolicy]
  cases Check.time.verdict c function now with
  | some e => rfl
  | none =>
    by_cases hover : g.memorySize > c.config.maxMemory
    · simp only [if_pos hover]
      rfl
    · simp only [if_neg hover]
      cases named with
      | some e => rfl
      | none =>
        by_cases hhas : g.hasFunction function = true
        · simp only [if_pos hhas]
          rfl
        · simp only [if_neg hhas]
          rfl

theorem observed_accept (c : Container) (function : String) (now : Nat) :
    Observed c (c.accept function now).2 := by
  have hobs := observed_observeMemory c
  unfold accept
  split
  · exact Observed.refl c
  · split
    · rename_i hd
      rw [hd] at hobs
      exact hobs
    · rename_i usage d hd
      rw [hd] at hobs
      split
      · exact hobs
      · split
        · exact hobs
        · split
          · exact hobs
          · split <;> exact hobs

/-- Where a call that begins may come to: it is refused for the status without a trace, it fails
behind that, or it is inside the guest. -/
theorem beginCall_cases (c : Container) (function : String) (args : List Value) (now : Nat) :
    (c.status ≠ .running ∧
      c.beginCall function args now = (.ended (.error c.invalidState), c)) ∨
    (c.status = .running ∧ ∃ e d, Observed c d ∧ (c.accept function now).1 = .error e ∧
      c.beginCall function args now =
        (.ended (.error e), d.settleCall function (.error e) now ⟨0⟩)) ∨
    (c.status = .running ∧ ∃ g d, Observed c d ∧ (c.accept function now).1 = .ok g ∧
      c.beginCall function args now =
        (.entered function (c.enterGuest g function args).1 (c.enterGuest g function args).2.2,
          { d with guest := some (c.enterGuest g function args).2.1 })) := by
  by_cases hs : c.status = .running
  · have hobs := observed_accept c function now
    rcases ha : c.accept function now with ⟨e | g, d⟩
    · rw [ha] at hobs
      refine Or.inr (Or.inl ⟨hs, e, d, hobs, rfl, ?_⟩)
      simp only [beginCall, hs, ha, ne_eq, not_true_eq_false, if_false]
    · rw [ha] at hobs
      refine Or.inr (Or.inr ⟨hs, g, d, hobs, rfl, ?_⟩)
      simp only [beginCall, hs, ha, ne_eq, not_true_eq_false, if_false]
      obtain ⟨_, _, _, _, rfl, -⟩ := hobs
      rfl
  · refine Or.inl ⟨hs, ?_⟩
    simp only [beginCall, ne_eq, hs, not_false_eq_true, if_true]

theorem beginCall_eq (c : Container) (function : String) (args : List Value) (now : Nat) :
    ∃ guest counters warned ticker outbox, (c.beginCall function args now).2 =
      { c with
        guest := guest, counters := counters, memoryWarned := warned, ticker := ticker,
        outbox := outbox } := by
  rcases beginCall_cases c function args now with
    ⟨-, hc⟩ | ⟨-, e, d, hobs, -, hc⟩ | ⟨-, g, d, hobs, -, hc⟩
  · rw [hc]
    exact ⟨c.guest, c.counters, c.memoryWarned, c.ticker, c.outbox, rfl⟩
  · obtain ⟨_, _, hd⟩ := d.settleCall_eq function (.error e) now ⟨0⟩
    rw [hc, hd]
    obtain ⟨_, warned, ticker, _, rfl, -⟩ := hobs
    exact ⟨c.guest, _, warned, ticker, _, rfl⟩
  · rw [hc]
    obtain ⟨_, warned, ticker, _, rfl, -⟩ := hobs
    exact ⟨_, _, warned, ticker, _, rfl⟩

/-- Only the first check finds something wrong with the status. -/
theorem verdict_ne_invalidState {k : Check} (hk : k ≠ .status) :
    k.verdict c function now ≠ some c.invalidState := by
  cases k with
  | status => exact absurd rfl hk
  | time | memory | allowed | files | network | exported =>
    intro h
    simp only [Check.verdict] at h
    repeat' split at h
    all_goals cases h

/-- A call is decided by the first verdict against it, and by the guest if there is none. Only then
is anything done to the guest. -/
def Decided (c : Container) (function : String) (args : List Value) (now : Nat) : Prop :=
  match c.refusal? function now with
  | some e =>
    (c.call function args now).1 = .error e ∧
      (c.beginCall function args now).1 = .ended (.error e) ∧
      (c.beginCall function args now).2.guest = c.guest
  | none =>
    ∃ g, c.guest = some g ∧
      (c.call function args now).1 = (c.enterGuest g function args).1 ∧
      (c.beginCall function args now).1 =
        .entered function (c.enterGuest g function args).1 (c.enterGuest g function args).2.2 ∧
      (c.beginCall function args now).2.guest = some (c.enterGuest g function args).2.1

theorem refusal?_of_not_running (h : c.status ≠ .running) :
    c.refusal? function now = some c.invalidState := by
  simp only [refusal?, Check.order, List.findSome?_cons, Check.verdict, if_neg h]
  rfl

theorem refusal?_of_running (h : c.status = .running) :
    c.refusal? function now = Check.order.tail.findSome? (Check.verdict c function now) := by
  have hverdict : Check.status.verdict c function now = none := verdict_status_eq_none.mpr h
  simp only [refusal?, Check.order, List.findSome?_cons, hverdict, List.tail_cons]

theorem refusal?_ne_invalidState (h : c.status = .running) :
    c.refusal? function now ≠ some c.invalidState := by
  intro hrefusal
  rw [refusal?_of_running h] at hrefusal
  obtain ⟨k, hk, hverdict⟩ := List.exists_of_findSome?_eq_some hrefusal
  refine verdict_ne_invalidState ?_ hverdict
  intro heq
  subst heq
  exact absurd hk (by decide)

theorem decided (hrun : c.status = .running → c.guest.isSome) (function : String)
    (args : List Value) (now : Nat) : c.Decided function args now := by
  unfold Decided
  rcases beginCall_cases c function args now with
    ⟨hs, hc⟩ | ⟨hs, e, d, hobs, ha, hc⟩ | ⟨hs, g, d, hobs, ha, hc⟩
  · rw [refusal?_of_not_running hs, call, hc]
    exact ⟨rfl, rfl, rfl⟩
  · -- a running container has a guest, so that the checks behind the first decide
    obtain ⟨g, hg⟩ := Option.isSome_iff_exists.mp (hrun hs)
    rw [accept_eq hg] at ha
    rw [refusal?_of_running hs, call, hc]
    split at ha
    · cases ha
      obtain ⟨_, _, _, _, rfl, -⟩ := hobs
      exact ⟨rfl, rfl, rfl⟩
    · cases ha
  · obtain ⟨g', hg⟩ := Option.isSome_iff_exists.mp (hrun hs)
    rw [accept_eq hg] at ha
    rw [refusal?_of_running hs, call, hc]
    split at ha
    · cases ha
    · cases ha
      exact ⟨g, hg, rfl, rfl, rfl⟩

end ContainerHost.Container
