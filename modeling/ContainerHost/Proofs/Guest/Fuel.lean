import ContainerHost.Interpreter.Machine
import ContainerHost.Proofs.Guest.Deadlines
import Mathlib.Algebra.GroupWithZero.Nat
/-!
# Fuel

On a metered backend each call of a guest begins with the budget of the configuration, whatever
calls before it have used up and however they ended. From there on the fuel only becomes less: by
what the guest does on its own, and by what it charges itself with through a host function, which
takes an amount as it is or not at all.

What is proved: `fuel_metered`, for a guest that was made on a metered backend of any machine and has
answered any calls. `HostCall.Took.spends` is what a host function does with the fuel,
`spends_chain` the account of a whole call, and `dry_run` what is left when a call stops for want of
fuel. That code gains no fuel, passes no checkpoint without, and stops for want of it only when there
is none is what is relied on of machines (`Execution.Lawful`).
-/

namespace ContainerHost.Guest

open Wasm (Value)

/-! ## Host functions and fuel -/

/-- The number that the guest reads is the one that was written. -/
theorem signed64_bits64 {n : Nat} (h : n < 1 <<< 63) : signed64 (bits64 n) = n := by
  have hmod : ((n : Int) % (1 <<< 64 : Nat)).toNat = n := by
    have hlt : n < 1 <<< 64 := by omega
    rw [← Int.natCast_emod, Int.toNat_natCast, Nat.mod_eq_of_lt hlt]
  have hbits : (bits64 n).toNat = n := by
    unfold bits64
    rw [hmod, UInt64.toNat_ofNat', Nat.mod_eq_of_lt (by omega)]
  unfold signed64
  rw [hbits, if_pos (by omega)]

def HostCall.charged (c : HostCall) : Nat :=
  match c.func, c.args with
  | .fuelConsume, [.i64 n] => if c.results = [.i32 1] then (signed64 n).toNat else 0
  | _, _ => 0

theorem HostCall.charged_of_ne {c : HostCall} (h : c.func ≠ .fuelConsume) : c.charged = 0 := by
  unfold charged
  split
  · rename_i hf _
    exact absurd hf h
  · rfl

/-- What a host function does with the fuel of its guest. -/
structure HostCall.Spends (c : HostCall) : Prop where
  account : c.after.fuel + c.charged = c.before.fuel
  remaining : c.func = .fuelRemaining → c.after = c.before ∧
    ∃ n, c.results = [.i64 n] ∧ signed64 n = min c.before.fuel (1 <<< 63 - 1)
  consume : c.func = .fuelConsume → ∃ n, c.args = [.i64 n] ∧
    if 0 ≤ signed64 n ∧ signed64 n ≤ c.before.fuel then
      c.results = [.i32 1] ∧ c.charged = signed64 n ∧
        c.after = { c.before with fuel := c.before.fuel - c.charged }
    else c.results = [.i32 0] ∧ c.charged = 0 ∧ c.after = c.before

variable {c : HostCall} {s t : Store} {l : List HostCall} {bound : Nat}

theorem HostCall.Took.remaining (h : c.Took) (hf : c.func = .fuelRemaining) :
    c.after = c.before ∧
      ∃ n, c.results = [.i64 n] ∧ signed64 n = min c.before.fuel (1 <<< 63 - 1) := by
  obtain ⟨place, func, args, before, after, results⟩ := c
  subst hf
  simp only [Took, HostFunc.call, HostFunc.taking] at h
  split at h
  · cases h
    have hcast : min (before.fuel : Int) ((1 <<< 63 : Nat) - 1) =
        (min before.fuel (1 <<< 63 - 1) : Nat) := by omega
    refine ⟨rfl, _, rfl, ?_⟩
    rw [hcast, signed64_bits64 (by omega)]
  · cases h

theorem fuelConsume_eq (p : Place) (s : Store) (n : UInt64) :
    HostFunc.fuelConsume.call p s [.i64 n] =
      if 0 ≤ signed64 n ∧ signed64 n ≤ s.fuel then .ok (s.charge (signed64 n).toNat, [.i32 1])
      else .ok (s, [.i32 0]) := by
  simp only [HostFunc.call, HostFunc.taking, HostFunc.long, HostFunc.gives32,
    HostFunc.runFuelConsume, Bool.and_eq_true, decide_eq_true_eq]
  split
  · rfl
  · rfl

/-- An amount that is not negative and not more than the fuel is charged, and no other. -/
theorem HostCall.Took.consume (h : c.Took) (hf : c.func = .fuelConsume) :
    ∃ n, c.args = [.i64 n] ∧
      if 0 ≤ signed64 n ∧ signed64 n ≤ c.before.fuel then
        c.results = [.i32 1] ∧ c.charged = signed64 n ∧
          c.after = { c.before with fuel := c.before.fuel - c.charged }
      else c.results = [.i32 0] ∧ c.charged = 0 ∧ c.after = c.before := by
  obtain ⟨place, func, args, before, after, results⟩ := c
  subst hf
  have hlong : ∃ n, args = [.i64 n] := by
    simp only [Took, HostFunc.call, HostFunc.taking, HostFunc.long] at h
    split at h
    · rename_i hargs
      split at hargs
      · exact ⟨_, rfl⟩
      · cases hargs
    · cases h
  obtain ⟨n, rfl⟩ := hlong
  refine ⟨n, rfl, ?_⟩
  simp only [Took, fuelConsume_eq] at h
  split at h
  · rename_i hwithin
    cases h
    have hamount : ((signed64 n).toNat : Int) = signed64 n := Int.toNat_of_nonneg hwithin.1
    simp only [hwithin]
    simp [charged, hamount, Store.charge, Heap.charge]
  · rename_i hbeyond
    cases h
    simp only [hbeyond, if_false]
    simp [charged]

/-- Whatever it is, a host function leaves a guest the fuel that it does not charge. -/
theorem HostCall.Took.spends (h : c.Took) : c.Spends := by
  refine ⟨?_, h.remaining, h.consume⟩
  by_cases hf : c.func = .fuelConsume
  · obtain ⟨n, -, hconsumed⟩ := h.consume hf
    split at hconsumed
    · rename_i hwithin
      obtain ⟨-, hcharged, hafter⟩ := hconsumed
      rw [hafter]
      exact Nat.sub_add_cancel (by omega)
    · obtain ⟨-, hcharged, hafter⟩ := hconsumed
      rw [hafter, hcharged, Nat.add_zero]
  · have hsame : c.after.fuel = c.before.fuel := HostFunc.fuel_call c.place c.before hf c.args _ h
    rw [c.charged_of_ne hf, hsame, Nat.add_zero]

/-! ## Calls and fuel -/

/-- The account of a call that finds some fuel: each host function finds what those before it have
left at most, and what they charge altogether is covered. -/
theorem spends_chain (hc : Chain (Own bound) s l t) :
    (∀ c ∈ l, c.Spends ∧ c.before.fuel ≤ s.fuel) ∧
    (l.Pairwise fun c d => d.before.fuel + c.charged ≤ c.before.fuel) ∧
    t.fuel + (l.map HostCall.charged).sum ≤ s.fuel := by
  induction hc with
  | own h => exact ⟨by simp, .nil, by simpa using h.fuel⟩
  | @call s t c rest h htook _ ih =>
    have hspends := htook.spends
    have haccount := hspends.account
    have hfound := h.fuel
    obtain ⟨hall, hpairs, hsum⟩ := ih
    refine ⟨fun d hd => ?_, .cons (fun d hd => ?_) hpairs, ?_⟩
    · rcases List.mem_cons.mp hd with rfl | hd
      · exact ⟨hspends, hfound⟩
      · have hless := (hall d hd).2
        exact ⟨(hall d hd).1, by omega⟩
    · have hless := (hall d hd).2
      omega
    · rw [List.map_cons, List.sum_cons]
      omega

/-! ## Checkpoints and fuel -/

def Pause.point? (what : Pause) (s : Store) : Option Store :=
  match what with
  | .checkpoint => some s
  | .grow .. | .call .. => none

/-- The stores that a run has at its checkpoints. -/
def checkpoints (w : Wiring) (watch : Nat → Signal) (time : Nat) :
    Execution → HostState → List Store
  | .ended .., _ => []
  | .paused what h next, k =>
    (what.point? ⟨h, k⟩).toList ++
      match what.answer w (watch time) ⟨h, k⟩ with
      | .ok (⟨h, k⟩, results) => checkpoints w watch (time + 1) (next results h) k
      | .error _ => []

/-- No host stops a guest for want of fuel. -/
theorem Pause.answer_ne_outOfFuel (what : Pause) (w : Wiring) (signal : Signal) (s : Store) :
    what.answer w signal s ≠ .error (.trap .outOfFuel) := by
  cases what with
  | checkpoint =>
    intro h
    simp only [Pause.answer, Store.checkpoint] at h
    split at h
    · cases h
    · split at h <;> cases h
  | grow address delta =>
    intro h
    cases h
  | call f args => exact HostFunc.call_ne_trap f w.place s args .outOfFuel

/-- A run passes its checkpoints with fuel, and has none left when it stops for want of fuel. -/
theorem dry_run {w : Wiring} (watch : Nat → Signal) (time : Nat) {h : Heap} {e : Execution}
    (he : e.Lawful w.toLinks h) (k : HostState) :
    (∀ s ∈ checkpoints w watch time e k, 0 < s.fuel) ∧
      ((run w watch time e k).1 = .stopped (.trap .outOfFuel) →
        (run w watch time e k).2.fuel = 0) := by
  induction he generalizing time k with
  | @ended s t how hended =>
    refine ⟨fun s hs => (by cases hs), fun hdry => hended.dry ?_⟩
    cases how with
    | returned results => cases hdry
    | trapped trap =>
      cases hdry
      rfl
  | @paused s t what next hpause _ ih =>
    have hfed : ∀ u ∈ (what.point? ⟨t, k⟩).toList, 0 < u.fuel := by
      cases what with
      | checkpoint =>
        intro u hu
        obtain rfl := List.mem_singleton.mp hu
        exact hpause.fed rfl
      | grow address delta => nofun
      | call f args => nofun
    unfold checkpoints run
    cases hanswer : what.answer w (watch time) ⟨t, k⟩ with
    | error why =>
      refine ⟨by simpa using hfed, fun hdry => ?_⟩
      cases hdry
      exact absurd hanswer (what.answer_ne_outOfFuel w (watch time) ⟨t, k⟩)
    | ok r =>
      obtain ⟨⟨u, k'⟩, results⟩ := r
      obtain ⟨hpoints, hdry⟩ := ih results u (time + 1) k'
      refine ⟨fun v hv => ?_, hdry⟩
      rcases List.mem_append.mp hv with hv | hv
      · exact hfed v hv
      · exact hpoints v hv

/-- The stores at the checkpoints of a function that is called. -/
def enterCheckpoints (w : Wiring) (watch : Nat → Signal) (s : Store) (callee : Callee)
    (args : List Value) : List Store :=
  match callee with
  | .host _ => []
  | .own f =>
    match s with
    | ⟨h, k⟩ => checkpoints w watch 0 (w.machine.enter w.toLinks f args h) k

theorem dry_enter (w : Wiring) (p : Place) (watch : Nat → Signal) (s : Store) (callee : Callee)
    (args : List Value) :
    (∀ t ∈ enterCheckpoints w watch s callee args, 0 < t.fuel) ∧
      ((enter w p watch s callee args).1 = .stopped (.trap .outOfFuel) →
        (enter w p watch s callee args).2.fuel = 0) := by
  cases callee with
  | host f =>
    refine ⟨nofun, fun hdry => ?_⟩
    simp only [enter] at hdry
    cases hcall : f.call p s args with
    | ok r =>
      rw [hcall] at hdry
      cases hdry
    | error why =>
      rw [hcall] at hdry
      cases hdry
      exact absurd hcall (HostFunc.call_ne_trap f p s args .outOfFuel)
  | own f => exact dry_run watch 0 (w.machine.enter_spec w.toLinks f args s.toHeap) s.toHostState

/-! ## Metered guests -/

namespace Instance

/-- The stores of a guest at the checkpoints of a call. -/
def checkpoints (g : Instance) (function : String) (args : List Value) (watch : Watch) :
    List Store :=
  match g.approach function args (watch.signal 0) with
  | (.error _, _) => []
  | (.ok callee, store) => enterCheckpoints g.wiring watch.signal store callee args

variable {g : Instance} {function : String} {args : List Value} {signal : Signal} {watch : Watch}
  {callee : Callee}

/-- A call that enters a metered guest finds the budget. -/
theorem fuel_approach {budget : Nat} (hbudget : g.fuelBudget = some budget)
    (h : (g.approach function args signal).1 = .ok callee) :
    (g.approach function args signal).2.fuel = budget := by
  unfold approach at h ⊢
  split
  · rename_i hraised
    simp only [hraised, if_true] at h
    cases h
  · have hprepared : (g.prepared signal).fuel = budget := by
      unfold prepared
      rw [hbudget]
      rfl
    split
    · exact hprepared
    · exact hprepared

/-- A call that stops for want of fuel has used up all of it, and has taken too long for the caller.
-/
theorem call_exhausted (hcallee : (g.approach function args (watch.signal 0)).1 = .ok callee)
    (hstopped : (enter g.wiring g.wiring.place.outside watch.signal
      (g.approach function args (watch.signal 0)).2 callee args).1 = .stopped (.trap .outOfFuel)) :
    (g.call function args watch).1 = .error (g.exhausted function) ∧
      (g.call function args watch).2.store.fuel = 0 := by
  rw [call_eq]
  generalize g.approach function args (watch.signal 0) = approached at hcallee hstopped
  obtain ⟨refused | callee', store⟩ := approached
  · cases hcallee
  · cases hcallee
    dsimp only at hstopped ⊢
    refine ⟨?_, (dry_enter ..).2 hstopped⟩
    rw [hstopped]
    rfl

theorem checkpoints_fed (g : Instance) (function : String) (args : List Value) (watch : Watch) :
    ∀ s ∈ g.checkpoints function args watch, 0 < s.fuel := by
  unfold checkpoints
  split
  · nofun
  · exact (dry_enter g.wiring g.wiring.place.outside watch.signal _ _ args).1

end Instance

namespace Sandbox

variable {b : Sandbox} {env : Surroundings} {c : Compiled} {id : String} {g : Instance}

/-- Fuel on a metered backend, for a guest that was made there and has answered any calls before:
each call that enters it begins with the budget, and so does the next one, however this one has
ended; host functions account for all that they charge, and find no more than those before them have
left; what they charge is covered by the budget, together with what is left; no checkpoint is passed
without fuel; and a call that stops for want of fuel has none left and took too long for the caller.
-/
theorem fuel_metered {g' : Instance} (h : b.instantiate env c id = .ok g)
    (hmetered : b.backend.isMetered = true) (hlater : g.Later g') (function : String)
    (args : List Value) (watch : Watch) :
    let budget := b.config.fuelBudget
    let found := g'.approach function args (watch.signal 0)
    let used := g'.hostCalls function args watch
    let called := g'.call function args watch
    (∀ callee, found.1 = .ok callee → found.2.fuel = budget ∧
      called.2.store.fuel + (used.map HostCall.charged).sum ≤ budget) ∧
    (∀ c ∈ used, c.Spends ∧ c.before.fuel ≤ budget) ∧
    (used.Pairwise fun c d => d.before.fuel + c.charged ≤ c.before.fuel) ∧
    (used.map HostCall.charged).sum ≤ budget ∧
    (∀ s ∈ g'.checkpoints function args watch, 0 < s.fuel) ∧
    (∀ callee, found.1 = .ok callee →
      (enter g'.wiring g'.wiring.place.outside watch.signal found.2 callee args).1 =
        .stopped (.trap .outOfFuel) →
      called.2.store.fuel = 0 ∧ ∃ e, called.1 = .error e ∧ e.isTimeout = true) ∧
    (∀ function' args' signal callee, (called.2.approach function' args' signal).1 = .ok callee →
      (called.2.approach function' args' signal).2.fuel = budget) := by
  intro budget found used called
  have hmade := made_of_instantiate h
  have hbudget {g'' : Instance} (hfixed : g''.fuelBudget = g.fuelBudget) :
      g''.fuelBudget = some budget := by
    rw [hfixed, hmade.fuelBudget, Sandbox.fuelBudget, hmetered, if_pos rfl]
  have hnow : g'.fuelBudget = some budget := hbudget hlater.fuelBudget
  have hnext : called.2.fuelBudget = some budget :=
    hbudget (hlater.call function args watch).fuelBudget
  have hfound (callee : Callee) (hcallee : found.1 = .ok callee) : found.2.fuel = budget :=
    Instance.fuel_approach hnow hcallee
  have hlimit : g'.wiring.memoryLimit = b.config.maxPages * Limits.pageSize := by
    rw [hlater.wiring, hmade.memoryLimit]
  have hentered (callee : Callee) (hcallee : found.1 = .ok callee) :
      (∀ c ∈ used, c.Spends ∧ c.before.fuel ≤ budget) ∧
      (used.Pairwise fun c d => d.before.fuel + c.charged ≤ c.before.fuel) ∧
      called.2.store.fuel + (used.map HostCall.charged).sum ≤ budget := by
    rw [← hfound callee hcallee]
    exact spends_chain (g'.chain_call function args watch hlimit)
  -- a call that does not enter the guest has used nothing
  have haccount : (∀ c ∈ used, c.Spends ∧ c.before.fuel ≤ budget) ∧
      (used.Pairwise fun c d => d.before.fuel + c.charged ≤ c.before.fuel) ∧
      (used.map HostCall.charged).sum ≤ budget := by
    cases hcallee : found.1 with
    | error e =>
      have hnone : used = [] := g'.hostCalls_of_refused function args watch hcallee
      rw [hnone]
      exact ⟨fun c hc => absurd hc List.not_mem_nil, .nil, Nat.zero_le _⟩
    | ok callee =>
      obtain ⟨hall, hpairs, hsum⟩ := hentered callee hcallee
      exact ⟨hall, hpairs, Nat.le_trans (Nat.le_add_left _ _) hsum⟩
  refine ⟨fun callee hcallee => ⟨hfound callee hcallee, (hentered callee hcallee).2.2⟩,
    haccount.1, haccount.2.1, haccount.2.2, g'.checkpoints_fed function args watch, ?_, ?_⟩
  · intro callee hcallee hstopped
    obtain ⟨herror, hdry⟩ := Instance.call_exhausted hcallee hstopped
    exact ⟨hdry, _, herror, rfl⟩
  · intro function' args' signal callee hcallee
    exact Instance.fuel_approach hnext hcallee

/-- A module whose function charges itself with most of its fuel and an amount that it has not, and
then goes round for ever. -/
def spender : Wasm.Module :=
  { Wasm.Module.empty with
    imports := [⟨"wasmtime", "fuel_remaining", .func ⟨[], [.i64]⟩⟩,
      ⟨"wasmtime", "fuel_consume", .func ⟨[.i64], [.i32]⟩⟩]
    funcs := [⟨⟨[], []⟩, [], #[.call 0, .drop, .const (.i64 99985), .call 1, .drop,
      .const (.i64 99985), .call 1, .drop, .loop, .br 0], #[⟨8, 0, 0⟩]⟩]
    exports := [⟨"spend", .func 2⟩] }

def metered : Sandbox :=
  ⟨.wasmtime, 1, { ContainerConfig.standard with maxCpuTime := some (.millis 1) }, none,
    Interpreter.interpreter⟩

/-- The amount that is there is charged, the other is not; the call takes too long and leaves no
fuel, and the next one finds the whole budget again. -/
theorem fuel_metered_spender :
    ∃ g, metered.instantiate default ⟨1, spender⟩ "unit-1" = .ok g ∧
      let called := g.call "spend" [] .quiet
      (g.hostCalls "spend" [] .quiet).map HostCall.charged = [0, 99985, 0] ∧
      ((g.hostCalls "spend" [] .quiet).map HostCall.charged).sum ≤ metered.config.fuelBudget ∧
      called.2.store.fuel = 0 ∧ (∃ e, called.1 = .error e ∧ e.isTimeout = true) ∧
      (called.2.approach "spend" [] ⟨0, false⟩).2.fuel = metered.config.fuelBudget := by
  have hran : (metered.instantiate default ⟨1, spender⟩ "unit-1").toOption.any (fun g =>
      let found := g.approach "spend" [] (Watch.quiet.signal 0)
      (g.hostCalls "spend" [] .quiet).map HostCall.charged = [0, 99985, 0] &&
      found.1.toOption.any (fun callee =>
        (enter g.wiring g.wiring.place.outside Watch.quiet.signal found.2 callee []).1 =
          .stopped (.trap .outOfFuel)) &&
      ((g.call "spend" [] .quiet).2.approach "spend" [] ⟨0, false⟩).1.toOption.isSome) = true := by
    decide +kernel
  cases hg : metered.instantiate default ⟨1, spender⟩ "unit-1" with
  | error e => simp [hg, Except.toOption] at hran
  | ok g =>
    rw [hg] at hran
    simp only [Except.toOption, Option.any_some, Bool.and_eq_true, decide_eq_true_eq] at hran
    obtain ⟨⟨hcharged, hstopped⟩, hnext⟩ := hran
    obtain ⟨-, -, -, hsum, -, hdry, hrefilled⟩ := fuel_metered hg rfl .same "spend" [] .quiet
    refine ⟨g, rfl, hcharged, hsum, ?_⟩
    have hout : (g.call "spend" [] .quiet).2.store.fuel = 0 ∧
        ∃ e, (g.call "spend" [] .quiet).1 = .error e ∧ e.isTimeout = true := by
      cases hcallee : (g.approach "spend" [] (Watch.quiet.signal 0)).1 with
      | error e => simp [hcallee] at hstopped
      | ok callee =>
        simp only [hcallee, Option.any_some, decide_eq_true_eq] at hstopped
        exact hdry callee hcallee hstopped
    refine ⟨hout.1, hout.2, ?_⟩
    cases hcallee : ((g.call "spend" [] .quiet).2.approach "spend" [] ⟨0, false⟩).1 with
    | error e => simp [hcallee] at hnext
    | ok callee => exact hrefilled "spend" [] ⟨0, false⟩ callee hcallee

end Sandbox
end ContainerHost.Guest
