import ContainerHost.Proofs.Container.Checks
import ContainerHost.Proofs.Container.Session
import ContainerHost.Proofs.Tables
import ContainerHost.Proofs.Pool
/-!
# The state over the life of a container

The state of a container is made of the updates that were merged into it, and of nothing else. A
restart clears it and merges the snapshot that it took before the stop; a hot reload merges its
snapshot over what is there; a restart that does not come up touches nothing. While updates keep
away from lifecycle operations (`Apart`) each snapshot is the state itself, and all of this leaves
the state as it is. The invariant is `Keeps`.

`merged` lists the updates in the order in which they are merged, with those that subscribers answer
deliveries with (`echoes`).

What is proved: `state_of_updates`.
-/

namespace ContainerHost

namespace Container

variable {c d : Container}

/-! ## Updates -/

/-- The updates that subscribers answer deliveries with, in the order in which they are merged. -/
def answers : Nat → List (Nat × State) → Container → List State
  | 0, _, _ => []
  | _, [], _ => []
  | fuel + 1, (id, state) :: rest, c =>
    match (c.notify id state).takeReply id with
    | (none, c) => answers fuel rest c
    | (some reply, c) => reply :: answers fuel ((c.merge reply).deliveries ++ rest) (c.merge reply)

/-- The updates that subscribers answer an update with. -/
def echoes (c : Container) (u : State) : List State :=
  answers (c.merge u).deliveryBound (c.merge u).deliveries (c.merge u)

theorem state_notify (c : Container) (id : Nat) (s : State) : (c.notify id s).state = c.state := by
  unfold notify
  split <;> rfl

theorem state_takeReply (c : Container) (id : Nat) : (c.takeReply id).2.state = c.state := by
  unfold takeReply
  split
  · split <;> rfl
  · rfl

theorem state_deliver (fuel : Nat) (ds : List (Nat × State)) (c : Container) :
    (deliver fuel ds c).state = (answers fuel ds c).foldl Table.merge c.state := by
  induction fuel generalizing ds c with
  | zero => rfl
  | succ fuel ih =>
    cases ds with
    | nil => rfl
    | cons d rest =>
      obtain ⟨id, state⟩ := d
      have htaken : ((c.notify id state).takeReply id).2.state = c.state :=
        (state_takeReply _ id).trans (state_notify c id state)
      simp only [deliver, answers]
      generalize (c.notify id state).takeReply id = taken at htaken ⊢
      rcases taken with ⟨_ | reply, d⟩
      · rw [ih, show d.state = c.state from htaken]
      · rw [ih, state_merge, show d.state = c.state from htaken]
        rfl

theorem state_updateState (c : Container) (u : State) :
    (c.updateState u).state = (c.echoes u).foldl Table.merge (c.state.merge u) :=
  state_deliver _ _ (c.merge u)

theorem subscribers_notify (c : Container) (id : Nat) (s : State) :
    (c.notify id s).subscribers = c.subscribers := by
  unfold notify
  split <;> rfl

theorem takeReply_congr (h : c.subscribers = d.subscribers) (id : Nat) :
    (c.takeReply id).1 = (d.takeReply id).1 ∧
      (c.takeReply id).2.subscribers = (d.takeReply id).2.subscribers := by
  unfold takeReply
  rw [h]
  split
  · split
    · exact ⟨rfl, h⟩
    · exact ⟨rfl, rfl⟩
  · exact ⟨rfl, h⟩

theorem fst_deliveries (c : Container) : c.deliveries.map (·.1) = c.subscribers.map (·.id) := by
  unfold deliveries
  rw [List.map_map]
  rfl

/-- What is answered depends on who has subscribed, and not on what is delivered. -/
theorem answers_congr (fuel : Nat) {ds es : List (Nat × State)}
    (hds : ds.map (·.1) = es.map (·.1)) (h : c.subscribers = d.subscribers) :
    answers fuel ds c = answers fuel es d := by
  induction fuel generalizing ds es c d with
  | zero => rfl
  | succ fuel ih =>
    match ds, es, hds with
    | [], [], _ => rfl
    | (id, s) :: ds, (id', s') :: es, hds =>
      obtain ⟨rfl, hrest⟩ : id = id' ∧ ds.map (·.1) = es.map (·.1) := List.cons.inj hds
      have hnotified : (c.notify id s).subscribers = (d.notify id s').subscribers := by
        rw [subscribers_notify, subscribers_notify, h]
      obtain ⟨hreply, hleft⟩ := takeReply_congr hnotified id
      simp only [answers]
      generalize (c.notify id s).takeReply id = taken at hreply hleft ⊢
      generalize (d.notify id s').takeReply id = taken' at hreply hleft ⊢
      obtain ⟨reply, c'⟩ := taken
      obtain ⟨reply', d'⟩ := taken'
      obtain rfl : reply = reply' := hreply
      cases reply with
      | none => exact ih hrest hleft
      | some u =>
        refine congrArg (List.cons u) (ih ?_ hleft)
        rw [List.map_append, List.map_append, fst_deliveries, fst_deliveries, hrest]
        exact congrArg (· ++ _) (congrArg (List.map _) hleft)

theorem echoes_congr (h : c.subscribers = d.subscribers) (u v : State) :
    c.echoes u = d.echoes v := by
  have hbound : (c.merge u).deliveryBound = (d.merge v).deliveryBound := by
    unfold deliveryBound
    rw [show (c.merge u).subscribers = (d.merge v).subscribers from h]
  unfold echoes
  rw [hbound]
  refine answers_congr _ ?_ h
  rw [fst_deliveries, fst_deliveries]
  exact congrArg (List.map _) h

/-- No subscriber answers with an update of its own. -/
def Unanswered (c : Container) : Prop := ∀ s ∈ c.subscribers, s.fails = true ∨ s.replies = []

theorem takeReply_unanswered (h : c.Unanswered) (id : Nat) :
    (c.takeReply id).1 = none ∧ (c.takeReply id).2.Unanswered := by
  unfold takeReply
  split
  · rename_i s hs
    split
    · exact ⟨rfl, h⟩
    · rename_i hfails
      have hnone := (h s (List.mem_of_find?_eq_some hs)).resolve_left hfails
      refine ⟨by rw [hnone]; rfl, ?_⟩
      intro x hx
      obtain ⟨y, hy, rfl⟩ := List.mem_map.mp hx
      split
      · exact (h y hy).imp_right fun heq => by rw [heq]; rfl
      · exact h y hy
  · exact ⟨rfl, h⟩

theorem answers_unanswered (fuel : Nat) (ds : List (Nat × State)) (h : c.Unanswered) :
    answers fuel ds c = [] := by
  induction fuel generalizing ds c with
  | zero => rfl
  | succ fuel ih =>
    match ds with
    | [] => rfl
    | (id, s) :: ds =>
      have hnotified : (c.notify id s).Unanswered := by
        unfold Unanswered
        rw [subscribers_notify]
        exact h
      obtain ⟨hnone, hleft⟩ := takeReply_unanswered hnotified id
      simp only [answers]
      generalize (c.notify id s).takeReply id = taken at hnone hleft ⊢
      obtain ⟨reply, c'⟩ := taken
      obtain rfl : reply = none := hnone
      exact ih ds hleft

theorem echoes_unanswered (h : c.Unanswered) (u : State) : c.echoes u = [] :=
  answers_unanswered _ _ h

/-- Nobody answers where nobody has subscribed. -/
theorem echoes_of_nil (h : c.subscribers = []) (u : State) : c.echoes u = [] :=
  echoes_unanswered (fun s hs => by rw [h] at hs; cases hs) u

/-! ## The state after other operations -/

theorem state_of_observed (h : Observed c d) : d.state = c.state := by
  obtain ⟨_, _, _, _, rfl, -⟩ := h
  rfl

theorem state_stop (c : Container) : c.stop.state = c.state := by
  unfold stop
  split <;> rfl

/-- A container that comes up has no state, and one that does not keeps what it had. -/
theorem start_spec (c : Container) (env : Surroundings) :
    match c.start env with
    | (.error _, d) => d.state = c.state
    | (.ok (), d) => d.state = .empty ∧ d.id = c.id ∧ d.subscribers = c.subscribers ∧
      d.outbox = c.outbox := by
  unfold start boot
  cases c.sandbox.instantiate env c.module c.id with
  | error e => rfl
  | ok g => exact ⟨rfl, rfl, rfl, rfl⟩

def restarted (id : String) (state : State) : Notice :=
  .event ⟨Topic.containerRestart.name, some id,
    .obj [("containerId", .str id), ("restoredState", state.toJson)]⟩

/-- A container that is revived has its snapshot and the answers to it, and says what it restored;
one that does not come up keeps its state. -/
theorem revive_spec (c : Container) {snapshot : State} (h : snapshot.Ordered)
    (env : Surroundings) :
    match c.revive snapshot env with
    | (.error _, d) => d.state = c.state
    | (.ok (), d) => d.state = ((c.start env).2.echoes snapshot).foldl Table.merge snapshot ∧
      ∃ news, d.outbox = c.outbox ++ news ++ [restarted c.id snapshot] ∧
        ∀ n ∈ news, ∀ t, n.isOf t = true → t = .stateChange := by
  have hstart := c.start_spec env
  unfold revive
  generalize c.start env = started at hstart ⊢
  rcases started with ⟨e | u, d⟩
  · exact hstart
  · obtain ⟨hstate, hid, -, houtbox⟩ := hstart
    have hupdated := updated_updateState d snapshot
    have hstate' := state_updateState d snapshot
    rw [hstate, Table.empty_merge h] at hstate'
    refine ⟨hstate', ?_⟩
    obtain ⟨_, _, news, heq, hnews⟩ := hupdated
    refine ⟨news, ?_, ?_⟩
    · show (d.updateState snapshot).outbox ++ [restarted (d.updateState snapshot).id snapshot] = _
      rw [heq, ← houtbox, ← hid]
    · intro n hn t hof
      exact List.mem_singleton.mp (hnews n hn t hof)

/-! ## Containers like this one -/

theorem state_replica {r : Container} (h : c.state.Ordered) {id : String} {env : Surroundings}
    (hr : c.replica id env = .ok r) : r.state = c.state := by
  let bare : Container := .raw id c.name c.sandbox c.module c.digest env.now
  have hstart := bare.start_spec env
  unfold replica create at hr
  cases hv : validateId id with
  | error reason => simp [hv, Except.map] at hr
  | ok u =>
    simp only [hv] at hr
    rcases hs : bare.start env with ⟨e | u, d⟩
    · simp [bare, hs, Except.map] at hr
    · rw [hs] at hstart
      obtain ⟨hstate, -, hsubscribers, -⟩ := hstart
      simp only [bare] at hs
      simp only [hs, Except.map, Except.ok.injEq] at hr
      rw [← hr, state_updateState, echoes_of_nil hsubscribers, hstate, Table.empty_merge h]
      rfl

/-- Every container that scaling makes has a copy of the state, whether it goes on or is stopped
again. -/
theorem state_scale (h : c.state.Ordered) (tries : List (Stamp × Surroundings)) :
    ∀ r ∈ (c.scale tries).2, r.state = c.state :=
  forall_scale (fun _ _ _ hr => state_replica h hr) (fun d hd => d.state_stop.trans hd) tries

end Container

theorem Json.Value.nat_injective : Function.Injective Json.Value.nat := by
  intro m n h
  injection h with h
  injection h with h
  exact Int.ofNat.inj h

/-- The state that a lifecycle operation remembers. -/
def Holder.snapshot : Holder → State
  | .resting snapshot | .booting snapshot => snapshot
  | .reloading r _ _ | .reloaded r => r.snapshot

namespace Session

variable {s : Session}

/-! ## The updates of a run -/

/-- The updates that are merged into the state when something happens, in order. What a lifecycle
operation puts back is none of them, but the answers to it are. -/
def merged (s : Session) : Action → List State
  | .update u => u :: s.container.echoes u
  | .boot env =>
    match s.holder with
    | some (.booting snapshot) =>
      match s.container.start env with
      | (.ok (), c) => c.echoes snapshot
      | (.error _, _) => []
    | _ => []
  | .restore =>
    match s.holder with
    | some (.reloaded r) => if r.wasRunning then s.container.echoes r.snapshot else []
    | _ => []
  | _ => []

/-- The updates that are merged into the state in the course of a run. -/
def allMerged : Session → List Action → List State
  | _, [] => []
  | s, a :: as => s.merged a ++ (s.act a).allMerged as

/-- The action is no update, or no lifecycle operation is in progress. -/
def Apart (s : Session) (a : Action) : Prop := ∀ u, a = .update u → s.holder = none

/-! ## The invariant -/

/-- The state is what these updates make of an empty one, and so is the snapshot of a lifecycle
operation in progress. -/
structure Keeps (updates : List State) (s : Session) : Prop where
  state : s.container.state = updates.foldl Table.merge .empty
  snapshot : ∀ h, s.holder = some h → h.snapshot = s.container.state

section

variable {t : Session} {updates : List State}

theorem Keeps.ordered (h : Keeps updates s) : s.container.state.Ordered := by
  rw [h.state]
  exact Table.ordered_foldl_merge Table.ordered_empty updates

/-- Whoever leaves the lock and the state alone keeps them. -/
theorem Keeps.same (h : Keeps updates s) (hholder : t.holder = s.holder)
    (hstate : t.container.state = s.container.state) : Keeps (updates ++ []) t := by
  rw [List.append_nil]
  refine ⟨hstate.trans h.state, ?_⟩
  intro x hx
  rw [hstate]
  exact h.snapshot x (hholder ▸ hx)

/-- Whoever takes the lock and remembers the state keeps it. -/
theorem Keeps.hold (h : Keeps updates s) {x : Holder} (hholder : t.holder = some x)
    (hstate : t.container.state = s.container.state) (hx : x.snapshot = s.container.state) :
    Keeps (updates ++ []) t := by
  rw [List.append_nil]
  refine ⟨hstate.trans h.state, ?_⟩
  intro y hy
  rw [hholder] at hy
  cases hy
  exact hx.trans hstate.symm

/-- Whoever gives the lock back may merge more updates. -/
theorem Keeps.merge (h : Keeps updates s) {more : List State} (hholder : t.holder = none)
    (hstate : t.container.state = more.foldl Table.merge s.container.state) :
    Keeps (updates ++ more) t := by
  refine ⟨?_, ?_⟩
  · rw [hstate, h.state, List.foldl_append]
  · intro x hx
    rw [hholder] at hx
    cases hx

theorem Keeps.whenFree (h : Keeps updates s) {f : Session → Session}
    (hf : s.holder = none → Keeps (updates ++ []) (f s)) :
    Keeps (updates ++ []) (s.whenFree f) := by
  unfold Session.whenFree
  cases hholder : s.holder with
  | none => exact hf hholder
  | some _ => exact h.same rfl rfl

theorem Keeps.boot (h : Keeps updates s) (env : Surroundings) :
    Keeps (updates ++ s.merged (.boot env)) (s.boot env) := by
  by_cases hbooting : ∃ snapshot, s.holder = some (.booting snapshot)
  · obtain ⟨snapshot, hholder⟩ := hbooting
    have hsnapshot : snapshot = s.container.state := h.snapshot _ hholder
    have hrevive := s.container.revive_spec (hsnapshot ▸ h.ordered) env
    simp only [Session.boot, merged, hholder]
    unfold Container.revive at hrevive ⊢
    generalize s.container.start env = started at hrevive ⊢
    rcases started with ⟨e | u, d⟩
    · exact h.merge rfl hrevive
    · refine h.merge rfl (hrevive.1.trans ?_)
      rw [hsnapshot]
  · simp only [not_exists] at hbooting
    simp only [Session.boot, merged]
    exact h.same rfl rfl

theorem Keeps.swap (h : Keeps updates s) (env : Surroundings) :
    Keeps (updates ++ []) (s.swap env) := by
  unfold Session.swap
  split
  · rename_i r m digest hholder
    have hsnapshot : r.snapshot = s.container.state := h.snapshot _ hholder
    split
    · exact h.merge rfl rfl
    · exact h.hold rfl rfl hsnapshot
  · exact h.same rfl rfl

theorem Keeps.restore (h : Keeps updates s) :
    Keeps (updates ++ s.merged .restore) s.restore := by
  by_cases hreloaded : ∃ r, s.holder = some (.reloaded r)
  · obtain ⟨r, hholder⟩ := hreloaded
    have hsnapshot : r.snapshot = s.container.state := h.snapshot _ hholder
    simp only [Session.restore, merged, hholder, Container.endReload]
    by_cases hwas : r.wasRunning = true
    · simp only [if_pos hwas]
      refine h.merge rfl ?_
      -- what is put back is there already
      show (s.container.updateState r.snapshot).state = _
      rw [Container.state_updateState, hsnapshot, Table.merge_self h.ordered]
    · simp only [if_neg hwas]
      exact h.merge rfl rfl
  · simp only [not_exists] at hreloaded
    simp only [Session.restore, merged]
    exact h.same rfl rfl

theorem Keeps.act (h : Keeps updates s) {a : Action} (ha : s.Apart a) :
    Keeps (updates ++ s.merged a) (s.act a) := by
  cases a with
  | call function args now =>
    have hstate : (s.container.beginCall function args now).2.state = s.container.state := by
      obtain ⟨_, _, _, _, _, hc⟩ := s.container.beginCall_eq function args now
      rw [hc]
    simp only [Session.act, call]
    generalize s.container.beginCall function args now = begun at hstate ⊢
    rcases begun with ⟨_ | _, d⟩
    · exact h.same rfl hstate
    · exact h.same rfl hstate
  | answer i now =>
    simp only [Session.act, answer]
    cases s.inside[i]? with
    | none => exact h.same rfl rfl
    | some v =>
      obtain ⟨_, _, hc⟩ := s.container.settleCall_eq v.function v.result now v.took
      have hstate := congrArg Container.state hc
      exact h.same rfl hstate
  | update u =>
    have hfree := ha u rfl
    refine h.merge hfree ?_
    exact Container.state_updateState s.container u
  | subscribe tag fails replies => exact h.same rfl rfl
  | unsubscribe id => exact h.same rfl rfl
  | query q now =>
    exact h.same rfl (Container.state_of_observed (Container.observed_query s.container now q))
  | stop => exact h.whenFree fun _ => h.same rfl (Container.state_stop _)
  | restart => exact h.whenFree fun _ => h.hold rfl (Container.state_stop _) rfl
  | wake =>
    simp only [Session.act, wake]
    split
    · rename_i snapshot hholder
      have hsnapshot : snapshot = s.container.state := h.snapshot _ hholder
      exact h.hold rfl rfl hsnapshot
    · exact h.same rfl rfl
  | boot env => exact h.boot env
  | reload m digest =>
    exact h.whenFree (f := fun s => s.reload m digest) fun _ => h.hold rfl rfl rfl
  | swap env => exact h.swap env
  | restore => exact h.restore

theorem Keeps.run (h : Keeps updates s) {as : List Action} (has : s.Throughout Apart as) :
    Keeps (updates ++ s.allMerged as) (s.run as) := by
  -- the list grows with the run, so that `run_induction_of_throughout` does not give it
  induction as generalizing s updates with
  | nil =>
    rw [allMerged, List.append_nil]
    exact h
  | cons a as ih =>
    obtain ⟨ha, hrest⟩ := has
    rw [allMerged, ← List.append_assoc]
    exact ih (h.act ha) hrest

end

/-! ## Whole lives -/

theorem keeps_created (id name : String) (sandbox : Guest.Sandbox) (module : Guest.Compiled)
    (digest : Option String) (env : Surroundings) :
    Keeps [] (created id name sandbox module digest env) := by
  have hstart := (Container.raw id name sandbox module digest env.now).start_spec env
  refine ⟨?_, fun x hx => by cases hx⟩
  unfold created opened
  generalize (Container.raw id name sandbox module digest env.now).start env = started at hstart ⊢
  rcases started with ⟨e | u, d⟩
  · exact hstart
  · exact hstart.1

/-- The state survives the life of a container: whatever happens to it from its creation on, if
updates keep away from lifecycle operations, its state is made of the updates that were merged into
it, the last one that has a name deciding what the name stands for. A restart that succeeds
announces this state once, behind what the put-back leads to. Scaling leaves the container as it is
in the pool, and each container that it makes of this one starts with the same state. -/
theorem state_of_updates (id name : String) (sandbox : Guest.Sandbox) (module : Guest.Compiled)
    (digest : Option String) (env : Surroundings) (actions : List Action)
    (hapart : (created id name sandbox module digest env).Throughout Apart actions) :
    let s := (created id name sandbox module digest env).run actions
    let updates := (created id name sandbox module digest env).allMerged actions
    s.container.state = updates.foldl Table.merge .empty ∧
    ((∀ u ∈ updates, u.Ordered) →
      ∀ k, s.container.state.get? k = updates.reverse.findSome? (·.get? k)) ∧
    (∀ snapshot env, s.holder = some (.booting snapshot) →
      (s.container.revive snapshot env).1 = .ok () →
      ∃ news, (s.act (.boot env)).container.outbox =
          s.container.outbox ++ news ++ [Container.restarted s.container.id s.container.state] ∧
        ∀ n ∈ news, ∀ t, n.isOf t = true → t = .stateChange) ∧
    (∀ (y : Pool) scaled n result y', y.Sound →
      y.get? s.container.id = some s.container.takeNotices.2 →
      y.scale scaled n = some (result, y') →
      y'.get? s.container.id = some s.container.takeNotices.2 ∧
      (scaled = s.container.id → ∀ x r, y.get? x = none → y'.get? x = some r →
        r.state = s.container.state)) := by
  intro s updates
  have hkeeps : Keeps updates s :=
    (keeps_created id name sandbox module digest env).run hapart
  refine ⟨hkeeps.state, ?_, ?_, ?_⟩
  · intro hordered k
    rw [hkeeps.state, Table.get?_foldl_merge .empty hordered, Table.get?_empty, Option.or_none]
  · intro snapshot env hholder hok
    -- whoever holds the lock remembers the state as it still is
    have hsnapshot : snapshot = s.container.state := hkeeps.snapshot _ hholder
    have hrevive := s.container.revive_spec (hsnapshot ▸ hkeeps.ordered) env
    simp only [act, boot, hholder]
    rw [hsnapshot] at hok hrevive ⊢
    generalize s.container.revive s.container.state env = revived at hok hrevive ⊢
    rcases revived with ⟨e | u, d⟩
    · cases hok
    · exact hrevive.2
  · intro y scaled n result y' hsound hthere hscale
    refine ⟨?_, ?_⟩
    · obtain ⟨c, -, hrest⟩ := Pool.get?_scale hsound hscale s.container.id
      rw [hthere] at hrest
      exact hrest
    · rintro rfl x r hnone hr
      obtain ⟨c, hc, hrest⟩ := Pool.get?_scale hsound hscale x
      rw [hthere] at hc
      cases hc
      rw [hnone] at hrest
      obtain ⟨tries, d, hd, rfl⟩ := hrest r hr
      exact Container.state_scale (c := s.container.takeNotices.2) hkeeps.ordered tries d hd

/-- What a container is given first. -/
def firstValue : State := .ofList [("a", .nat 1), ("b", .nat 1)]

def secondValue : State := .ofList [("b", .nat 2)]

/-- A restart between two updates, and a hot reload with a module of another engine. -/
def updatesAndRestarts : List Action :=
  [.update firstValue, .restart, .wake, .boot ⟨.ofDirs [], 0⟩, .update secondValue,
   .reload ⟨2, .empty⟩ none, .swap ⟨.ofDirs [], 0⟩, .restart, .wake]

/-- The state of that container before the second restart comes up, and what the restart says. -/
theorem state_of_restarted :
    let s := fresh.run updatesAndRestarts
    fresh.Throughout Apart updatesAndRestarts ∧
    s.container.state = (Table.empty.merge firstValue).merge secondValue ∧
    s.container.state.get? "a" = some (.nat 1) ∧ s.container.state.get? "b" = some (.nat 2) ∧
    s.holder = some (.booting s.container.state) ∧
    (s.container.revive s.container.state ⟨.ofDirs [], 0⟩).1 = .ok () ∧
    ∃ news, (s.act (.boot ⟨.ofDirs [], 0⟩)).container.outbox =
      s.container.outbox ++ news ++ [Container.restarted "unit-1" s.container.state] := by
  intro s
  have hapart : fresh.Throughout Apart updatesAndRestarts :=
    ⟨fun _ _ => rfl, nofun, nofun, nofun, fun _ _ => rfl, nofun, nofun, nofun, nofun, trivial⟩
  obtain ⟨hstate, hnames, hrestart, -⟩ := state_of_updates "unit-1" "unit"
    unitSandbox ⟨1, .empty⟩ none ⟨.ofDirs [], 0⟩ updatesAndRestarts hapart
  have hordered : ∀ u ∈ [firstValue, secondValue], u.Ordered := by
    intro u hu
    rcases List.mem_pair.mp hu with rfl | rfl
    · exact Table.ordered_insertAll Table.ordered_empty _
    · exact Table.ordered_insertAll Table.ordered_empty _
  obtain ⟨news, houtbox, -⟩ := hrestart _ ⟨.ofDirs [], 0⟩ rfl rfl
  exact ⟨hapart, hstate, hnames hordered "a", hnames hordered "b", rfl, rfl, news, houtbox⟩

end Session
end ContainerHost
