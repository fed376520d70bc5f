import ContainerHost.Proofs.Manager.Quiet
/-!
# Stopped containers in the registry

A container that is registered is only ever stopped for the time of a rest: a stop takes it out of
the registry, a cleanup has done so before, and scaling does not register what it stops. When nothing
is under way, no registered container is stopped (`Reached.status_ne_stopped`).
-/

namespace ContainerHost

/-- Each registered container that is stopped is at rest. -/
def Restful (slots : Slots) (s : String → Option Status) (tasks : List (Nat × Task)) : Prop :=
  ∀ id, slots.holds id = true → s id = some .stopped → tasks.any (·.2.hasLock id) = true

namespace Restful

variable {slots slots' : Slots} {s : String → Option Status} {tasks rest : List (Nat × Task)}
  {ticket : Nat} {task : Task} {id : String} {ids : List String} {st : Status}

theorem reslot (h : Restful slots s tasks) (hs : ∀ x, slots'.holds x = slots.holds x) :
    Restful slots' s tasks := fun x hx => h x (hs x ▸ hx)

theorem enlist (h : Restful slots s tasks) (new : List (Nat × Task)) :
    Restful slots s (tasks ++ new) := by
  intro x hx hst
  rw [List.any_append, h x hx hst, Bool.true_or]

theorem perm (h : Restful slots s tasks) (hp : rest.Perm tasks) : Restful slots s rest := by
  intro x hx hst
  rw [hp.any_eq]
  exact h x hx hst

theorem forget (h : Restful slots s ((ticket, task) :: tasks))
    (ht : ∀ x, task.hasLock x = false) : Restful slots s tasks := by
  intro x hx hst
  have hany := h x hx hst
  rwa [List.any_cons, ht x, Bool.false_or] at hany

/-- A container that has left its rest is not stopped any more. -/
theorem wake {snapshot : State} (h : Restful slots s ((ticket, .rest id snapshot) :: tasks))
    (hst : st ≠ .stopped) : Restful slots (assign s id st) tasks := by
  intro x hx hx'
  unfold assign at hx'
  split at hx'
  · cases hx'
    exact absurd rfl hst
  · rename_i hne
    have hany := h x hx hx'
    have hother : (Task.rest id snapshot).hasLock x = false :=
      beq_eq_false_iff_ne.mpr fun heq => hne heq.symm
    rwa [List.any_cons, hother, Bool.false_or] at hany

theorem lie (h : Restful slots s tasks) (snapshot : State) (st : Status) :
    Restful slots (assign s id st) (tasks ++ [(ticket, .rest id snapshot)]) := by
  intro x hx hx'
  rw [List.any_append]
  unfold assign at hx'
  split at hx'
  · rename_i heq
    subst heq
    simp [Task.hasLock]
  · rw [h x hx hx', Bool.true_or]

theorem remove (h : Restful slots s tasks)
    (hs : ∀ x, slots'.holds x = true → x ≠ id ∧ slots.holds x = true) :
    Restful slots' (assign s id st) tasks := by
  intro x hx hx'
  obtain ⟨hne, hin⟩ := hs x hx
  unfold assign at hx'
  rw [if_neg hne] at hx'
  exact h x hin hx'

theorem make (h : Restful slots s tasks)
    (hs : ∀ x, slots'.holds x = true → slots.holds x = true ∨ x ∈ ids) :
    Restful slots' (assignAll s ids .running) tasks := by
  intro x hx hx'
  unfold assignAll at hx'
  split at hx'
  · cases hx'
  · rename_i hout
    exact h x ((hs x hx).resolve_right hout) hx'

/-- What scaling stops is not registered. -/
theorem fail (h : Restful slots s tasks) (hregistered : ∀ x, slots.holds x = true → (s x).isSome)
    (hfresh : ∀ x ∈ ids, s x = none) : Restful slots (assignAll s ids st) tasks := by
  intro x hx hx'
  unfold assignAll at hx'
  split at hx'
  · rename_i hmem
    have hsome := hregistered x hx
    rw [hfresh x hmem] at hsome
    cases hsome
  · exact h x hx hx'

end Restful

namespace ConcurrentManager

variable {t : ConcurrentManager} {slots : Slots} {s : String → Option Status} {m : Manager}
  {ticket : Nat}
  {task : Task} {tasks : List (Nat × Task)}

/-- Each registered container that is stopped is at rest. -/
def Rested (t : ConcurrentManager) : Prop := Restful t.manager.slots t.manager.pool.statusOf t.tasks

theorem rested_of_shows {t : ConcurrentManager} (hm : t.manager.Shows slots s)
    (h : Restful slots s t.tasks) : t.Rested := by
  have hstatus : t.manager.pool.statusOf = s := funext hm.pool.status
  unfold Rested
  rw [hm.slots, hstatus]
  exact h

theorem restful_of_rested (hm : t.manager.Shows slots s) (h : t.Rested) :
    Restful slots s t.tasks := by
  have hstatus : t.manager.pool.statusOf = s := funext hm.pool.status
  unfold Rested at h
  rwa [hm.slots, hstatus] at h

theorem restful_ran (h : Restful slots s tasks) {r : Reservation} {result : Except Failure String}
    (hran : Manager.Ran slots s r (result, m)) :
    Restful m.slots m.pool.statusOf tasks := by
  cases result with
  | error e =>
    exact rested_of_shows (t := ⟨m, tasks, 0, [], []⟩) hran (h.reslot (Slots.holds_drop _ r))
  | ok id =>
    obtain ⟨-, hm⟩ := hran
    rw [assign_eq_assignAll] at hm
    exact rested_of_shows (t := ⟨m, tasks, 0, [], []⟩) hm (h.make fun _ => Slots.holds_commit.mp)

theorem restful_scaled (h : Restful slots s tasks)
    (hregistered : ∀ x, slots.holds x = true → (s x).isSome) {r : Reservation} {n : Nat}
    {ids : List String} {result : Except Failure (List String)} (hfresh : ∀ x ∈ ids, s x = none)
    (hscaled : Manager.Scaled slots s r n ids (result, m)) :
    Restful m.slots m.pool.statusOf tasks := by
  cases result with
  | error e =>
    exact rested_of_shows (t := ⟨m, tasks, 0, [], []⟩) hscaled
      ((h.fail hregistered hfresh).reslot (Slots.holds_drop _ r))
  | ok made =>
    obtain ⟨-, -, hm⟩ := hscaled
    exact rested_of_shows (t := ⟨m, tasks, 0, [], []⟩) hm (h.make fun _ => Slots.holds_commit.mp)

theorem rested_find (hm : t.manager.Shows slots s) (h : Restful slots s t.tasks) (ticket : Nat)
    (id : String) (task : Container → Task) : (t.find ticket id task).Rested := by
  unfold ConcurrentManager.find
  split
  · exact rested_of_shows hm h
  · exact rested_of_shows hm (h.enlist [_])

theorem rested_ask (hs : t.manager.Shows slots s) (h : Restful slots s t.tasks) (q : Request) :
    (t.ask q).Rested := by
  cases q with
  | run name config =>
    simp only [ask]
    rcases hs.beginRun name config with ⟨e, -, hb⟩ | ⟨r, held, hreserve, hb⟩
    · rw [hb]
      exact rested_of_shows hs h
    · have hheld : Restful held s t.tasks := h.reslot fun _ => Slots.holds_reserve hreserve
      generalize t.manager.beginRun name config = begun at hb ⊢
      obtain ⟨result | ⟨r', name, config, bytes⟩, m⟩ := begun
      · exact restful_ran hheld hb
      · exact rested_of_shows hb.2 (hheld.enlist [_])
  | scale id n =>
    have hb := hs.beginScale id n
    simp only [ask]
    generalize t.manager.beginScale id n = begun at hb ⊢
    obtain ⟨e | r, m⟩ := begun
    · exact rested_of_shows hb h
    · obtain ⟨-, held, hreserve, hm⟩ := hb
      have hheld : Restful held s t.tasks := h.reslot fun _ => Slots.holds_reserve hreserve
      exact rested_of_shows hm (hheld.enlist [_])
  | stop id => exact rested_find (t := { t with tickets := t.tickets + 1 }) hs h _ _ _
  | restart id => exact rested_find (t := { t with tickets := t.tickets + 1 }) hs h _ _ _
  | hotReload id => exact rested_find (t := { t with tickets := t.tickets + 1 }) hs h _ _ _
  | restartAll =>
    have hscattered : Restful slots s
        ({ t with tickets := t.tickets + 1 }.scatter t.tickets t.manager.slots.ids .restart
          false).tasks := by
      rw [Agrees.tasks_scatter]
      exact h.enlist _
    exact rested_of_shows hs hscattered
  | cleanup =>
    -- nothing is registered any more
    intro id hin
    cases hin

theorem rested_proceed (hs : t.Agrees slots s ((ticket, task) :: t.tasks))
    (h : Restful slots s ((ticket, task) :: t.tasks)) : (t.proceed ticket task).Rested := by
  have hregistered (x : String) (hx : slots.holds x = true) : (s x).isSome :=
    (hs.filed.registered x hx).1
  cases task with
  | run r name config bytes =>
    exact restful_ran (h.forget fun _ => rfl) (hs.shows.endRun r name config bytes)
  | scale r id n =>
    obtain ⟨ids, hfresh, hend⟩ := hs.shows.endScale r id n
    have hended := restful_scaled (h.forget fun _ => rfl) hregistered hfresh hend
    unfold Rested
    rw [proceed, manager_scaled, tasks_scaled]
    exact hended
  | stop id =>
    have hin := hs.filed.targets _ List.mem_cons_self id rfl
    have hrest := h.forget fun _ => rfl
    exact rested_of_shows (t := ⟨_, t.tasks, 0, [], []⟩) (hs.shows.remove hin)
      (hrest.remove fun _ => Slots.holds_remove.mp)
  | restart id =>
    have hin := hs.filed.targets _ List.mem_cons_self id rfl
    have hrest := h.forget fun _ => rfl
    exact rested_of_shows (t := proceed t ticket (.restart id)) (hs.shows.beginRestart hin)
      (hrest.lie _ _)
  | rest id snapshot =>
    have hin := hs.filed.targets _ List.mem_cons_self id rfl
    have hend := hs.shows.endRestart hin snapshot
    simp only [proceed]
    generalize t.manager.endRestart id snapshot = ended at hend ⊢
    obtain ⟨e | u, m⟩ := ended
    · exact rested_of_shows (t := ⟨m, t.tasks, 0, [], []⟩) hend (h.wake (by decide))
    · exact rested_of_shows (t := ⟨m, t.tasks, 0, [], []⟩) hend (h.wake (by decide))
  | fetch id name key =>
    have hfetch := hs.shows.fetchAndCompile name
    have hrest := h.forget fun _ => rfl
    simp only [proceed]
    generalize t.manager.fetchAndCompile name = fetched at hfetch ⊢
    obtain ⟨e | module, m⟩ := fetched
    · exact rested_of_shows (t := ⟨m, t.tasks, 0, [], []⟩) hfetch hrest
    · exact rested_of_shows (t := ⟨m, t.tasks ++ [_], 0, [], []⟩) hfetch (hrest.enlist [_])
  | reload id key module =>
    exact rested_of_shows (t := ⟨_, t.tasks, 0, [], []⟩) (hs.shows.putIn id key module)
      (h.forget fun _ => rfl)
  | sweep id =>
    -- the cleanup took the container out of the registry before
    have hin := hs.filed.targets _ List.mem_cons_self id rfl
    have hout := hs.filed.swept ticket id List.mem_cons_self
    have hrest := h.forget fun _ => rfl
    exact rested_of_shows (t := ⟨_, t.tasks, 0, [], []⟩) (hs.shows.halt hin)
      (hrest.remove fun x hx => ⟨fun heq => hout (heq ▸ hx), hx⟩)
  | gather parts cleans =>
    have hrest := h.forget fun _ => rfl
    cases cleans with
    | false => exact rested_of_shows (t := ⟨_, t.tasks, 0, [], []⟩) (hs.shows.endRestartAll _) hrest
    | true => exact rested_of_shows (t := ⟨_, t.tasks, 0, [], []⟩) (hs.shows.endCleanup _) hrest

theorem rested_move (hs : t.Sane) (h : t.Rested) (x : Move) : (t.move x).Rested := by
  obtain ⟨slots, s, hs⟩ := hs
  have hrestful := restful_of_rested hs.shows h
  cases x with
  | ask q => exact rested_ask hs.shows hrestful q
  | go i =>
    simp only [move, go]
    split
    · exact h
    · rename_i ticket task he
      split
      · obtain ⟨hlt, heq⟩ := List.getElem?_eq_some_iff.mp he
        exact rested_proceed (hs.at_place he)
          (hrestful.perm (heq ▸ List.getElem_cons_eraseIdx_perm hlt))
      · exact h
  | abandon i =>
    simp only [move, abandon]
    split
    · exact h
    · rename_i r hr
      obtain ⟨⟨ticket, task⟩, he, hreservation⟩ := Option.bind_eq_some_iff.mp hr
      obtain ⟨hlt, heq⟩ := List.getElem?_eq_some_iff.mp he
      -- what is abandoned has a reservation, and no lock
      have hlock (x : String) : task.hasLock x = false := by
        cases task with
        | rest id snapshot => cases hreservation
        | _ => rfl
      have hfirst := hrestful.perm (heq ▸ List.getElem_cons_eraseIdx_perm hlt)
      exact rested_of_shows (t := ⟨_, t.tasks.eraseIdx i, 0, [], []⟩) (hs.shows.drop r)
        ((hfirst.forget hlock).reslot (Slots.holds_drop slots r))
  | interact id x =>
    have hm := hs.shows.act_still id () (f := fun c => ((), c.interact t.manager.pool.clock.wall x))
      (fun c => (still_interact c _ x).id) (fun c => (still_interact c _ x).status)
    exact rested_of_shows (t := ⟨_, t.tasks, 0, [], []⟩) hm hrestful
  | observe event who => exact h
  | sleep d => exact rested_of_shows (t := ⟨_, t.tasks, 0, [], []⟩) (hs.shows.sleep d) hrestful
  | pass d => exact h
  | surround source network outside => exact h

/-- When nothing is under way, no registered container is stopped. -/
theorem Reached.status_ne_stopped {config : ManagerConfig} (h : t.Reached config)
    (hidle : t.tasks = []) {id : String} {c : Container} (hc : t.manager.get? id = some c) :
    c.status ≠ .stopped := by
  have hrested : t.Sane ∧ t.Rested := by
    obtain ⟨host, source, deployer, network, outside, m, moves, hm, rfl⟩ := h
    refine run_induction (P := fun t => t.Sane ∧ t.Rested) ?_ ?_ moves
    · rintro t x ⟨hsane, hrested⟩
      exact ⟨sane_move hsane x, rested_move hsane hrested x⟩
    · refine ⟨sane_of_opened rfl (shows_of_opened hm) [], ?_⟩
      intro id hin
      have hslots : (opened m).manager.slots = .free config.maxContainers :=
        (shows_of_opened hm).slots
      rw [hslots] at hin
      cases hin
  intro hstopped
  obtain ⟨hin, hget⟩ := Manager.holds_of_get? hc
  have hlocked := hrested.2 id hin (by rw [Pool.statusOf, hget, Option.map_some, hstopped])
  rw [hidle] at hlocked
  cases hlocked

end ConcurrentManager
end ContainerHost
