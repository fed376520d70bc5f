import ContainerHost.Proofs.Manager.Handling
/-!
# Containers in hand

A manager hands its containers out. Whoever has one can stop, restart and reload it without asking the
manager, and whoever asked for an operation can give it up where it waits. A registered container can
so be stopped, or be left stopped in the midst of a restart, for as long as nobody does anything else
to it.

What is proved: what can be relied on between the operations of a manager can be relied on then, too
(`Reachable.settled`, `Reachable.nodup_ids`, `Reachable.ordered`).

Correspondence: a `HandleStep` is `ContainerInstance::stop`, either side of the grace period in
`ContainerInstance::restart`, or `ContainerInstance::hot_reload`; `ConcurrentManager.cancel` is a
future that is dropped while it waits for a lifecycle lock, for a module, or for the end of the grace
period.
-/

namespace ContainerHost

/-- A step of an operation on the life of a container that its manager has no part in. -/
inductive HandleStep where
  | stop
  | beginRestart
  | endRestart (snapshot : State)
  | hotReload (module : Guest.Compiled) (digest : Option String)

namespace Container

def handle (c : Container) (env : Surroundings) : HandleStep → Container
  | .stop => c.stop
  | .beginRestart => c.beginRestart.2
  | .endRestart snapshot => (c.endRestart snapshot env).2
  | .hotReload module digest => (c.hotReload module digest env).2

theorem handled_handle (c : Container) (env : Surroundings) (x : HandleStep) :
    Handled c (c.handle env x) := by
  cases x with
  | stop => exact .stopped c
  | beginRestart => exact .stopped c
  | endRestart snapshot => exact .revived c snapshot env
  | hotReload module digest => exact .reloaded c module digest env

theorem id_handle (c : Container) (env : Surroundings) (x : HandleStep) :
    (c.handle env x).id = c.id := by
  cases x with
  | stop => exact c.sameIdentity_stop.id
  | beginRestart => exact c.sameIdentity_stop.id
  | endRestart snapshot => exact (c.sameIdentity_endRestart snapshot env).id
  | hotReload module digest => exact (c.sameIdentity_hotReload module digest env).id

end Container

/-- The task can be given up with nothing left to do: it holds no reservation, and no container that
was taken out of the registry waits for it. -/
def Task.isIdle (task : Task) : Bool := task.reservation?.isNone && !task.isSweep

namespace ConcurrentManager

variable {t : ConcurrentManager} {config : ManagerConfig} {bound : Nat}

/-- Someone who has a container does something with it; the mark tells whether it runs then. -/
def handle (t : ConcurrentManager) (id : String) (x : HandleStep) : ConcurrentManager :=
  let m := (t.manager.act id () fun c => ((), c.handle t.manager.pool.surroundings x)).2
  match m.pool.statusOf id with
  | none => t
  | some st => (t.withManager m).mark [id] (if st = .running then .revived else .broken)

/-- Nobody waits any more for the task at a place. -/
def cancel (t : ConcurrentManager) (i : Nat) : ConcurrentManager :=
  match t.tasks[i]? with
  | none => t
  | some e => if e.2.isIdle then { t with tasks := t.tasks.eraseIdx i } else t

/-- A manager that was opened with these settings, whatever was asked of it, done past it, or given
up. -/
inductive Reachable (config : ManagerConfig) : ConcurrentManager → Prop where
  | opened {host : Guest.Host} {source : Source} {deployer : Deployer} {network : Http.Network}
      {outside : Outside} {m : Manager}
      (h : Manager.opened config host source deployer network outside = .ok m) :
      Reachable config (opened m)
  | move {t : ConcurrentManager} (h : Reachable config t) (x : Move) : Reachable config (t.move x)
  | handle {t : ConcurrentManager} (h : Reachable config t) (id : String) (x : HandleStep) :
      Reachable config (t.handle id x)
  | cancel {t : ConcurrentManager} (h : Reachable config t) (i : Nat) : Reachable config (t.cancel i)

theorem Reached.reachable (h : t.Reached config) : t.Reachable config := by
  obtain ⟨host, source, deployer, network, outside, m, moves, hm, rfl⟩ := h
  exact run_induction (P := Reachable config) (fun _ x h => h.move x) (.opened hm) moves

/-! ## Steps that the manager has no part in -/

theorem sane_handle (h : t.Sane) (id : String) (x : HandleStep) : (t.handle id x).Sane := by
  have hsane := h
  obtain ⟨slots, s, h⟩ := h
  unfold handle
  dsimp only
  split
  · exact hsane
  · rename_i st hst
    -- a container that is there after the step was there before
    have hin : (s id).isSome := by
      cases hs : s id with
      | some st => rfl
      | none =>
        have hnone : t.manager.pool.get? id = none := by
          rw [← h.shows.pool.status] at hs
          exact Option.map_eq_none_iff.mp hs
        unfold Manager.act Pool.act at hst
        rw [hnone] at hst
        rw [Pool.statusOf, hnone] at hst
        cases hst
    obtain ⟨c, -, hshows⟩ := h.shows.act () (fun c => c.id_handle t.manager.pool.surroundings x) hin
      (f := fun c => ((), c.handle t.manager.pool.surroundings x))
    have hafter : assign s id (c.handle t.manager.pool.surroundings x).status id = some st := by
      rw [← hshows.pool.status, ← hst]
    obtain rfl : (c.handle t.manager.pool.surroundings x).status = st := by
      simpa [assign] using hafter
    by_cases hrun : (c.handle t.manager.pool.surroundings x).status = .running
    · rw [if_pos hrun]
      exact ⟨slots, _, h.enter .revived hin hshows (by decide) (by decide) (by simp [hrun])⟩
    · rw [if_neg hrun]
      exact ⟨slots, _, h.enter .broken hin hshows (by decide) (by decide) (by simp [hrun])⟩

theorem sane_cancel (h : t.Sane) (i : Nat) : (t.cancel i).Sane := by
  have hsane := h
  obtain ⟨slots, s, h⟩ := h
  unfold cancel
  split
  · exact hsane
  · rename_i e he
    split
    · rename_i hidle
      obtain ⟨ticket, task⟩ := e
      have hsweep : task.isSweep = false := by simpa using (Bool.and_eq_true_iff.mp hidle).2
      exact ⟨slots, s, (h.at_place he).forget hsweep⟩
    · exact hsane

/-- What the manager is after a step through a handle. -/
theorem manager_handle (t : ConcurrentManager) (id : String) (x : HandleStep) :
    (t.handle id x).manager = t.manager ∨ (t.handle id x).manager =
      (t.manager.act id () fun c => ((), c.handle t.manager.pool.surroundings x)).2 := by
  unfold handle
  dsimp only
  split
  · exact .inl rfl
  · exact .inr rfl

theorem manager_cancel (t : ConcurrentManager) (i : Nat) : (t.cancel i).manager = t.manager := by
  unfold cancel
  split
  · rfl
  · split <;> rfl

theorem books_handle (h : t.Books bound) (id : String) (x : HandleStep) :
    (t.handle id x).Books bound := by
  have hsame : (t.handle id x).manager.slots = t.manager.slots := by
    rcases t.manager_handle id x with heq | heq
    · rw [heq]
    · rw [heq, Manager.slots_act]
  have htasks : (t.handle id x).tasks = t.tasks ∧ (t.handle id x).tickets = t.tickets := by
    unfold handle
    dsimp only
    split
    · exact ⟨rfl, rfl⟩
    · exact ⟨rfl, rfl⟩
  unfold Books
  rw [hsame, htasks.1, htasks.2]
  exact h

theorem books_cancel (h : t.Books bound) (i : Nat) : (t.cancel i).Books bound := by
  have hbooks := h
  obtain ⟨l, hl, h⟩ := h
  unfold cancel
  split
  · exact hbooks
  · rename_i e he
    split
    · rename_i hidle
      have hnone := Option.isNone_iff_eq_none.mp (Bool.and_eq_true_iff.mp hidle).1
      exact ⟨l, hl, (h.at_place he).forget hnone⟩
    · exact hbooks

/-! ## Managers that are reached -/

/-- What every step keeps, whoever takes it. -/
structure Kept (config : ManagerConfig) (t : ConcurrentManager) : Prop where
  sane : t.Sane
  books : t.Books config.maxContainers
  quiet : t.manager.Quiet
  ordered : t.manager.pool.All fun c => c.state.Ordered

theorem Reachable.kept (h : t.Reachable config) : t.Kept config := by
  induction h with
  | opened hm =>
    have hshows := shows_of_opened hm
    refine ⟨sane_of_opened rfl hshows [], books_opened hshows.slots, Manager.Quiet.of_opened hm, ?_⟩
    rw [Manager.eq_of_opened hm]
    exact Pool.all_opened _ _
  | move _ x ih =>
    exact ⟨sane_move ih.sane x, books_move ih.sane ih.books x, quiet_move ih.quiet x,
      Pool.endures_ordered.move ih.ordered x⟩
  | @handle t _ id x ih =>
    refine ⟨sane_handle ih.sane id x, books_handle ih.books id x, ?_, ?_⟩
    · rcases t.manager_handle id x with heq | heq
      · exact heq ▸ ih.quiet
      · exact heq ▸ ih.quiet.act id () _
    · rcases t.manager_handle id x with heq | heq
      · exact heq ▸ ih.ordered
      · exact heq ▸ Pool.endures_ordered.toKeeps.acted ih.ordered id () fun c _ =>
          c.handled_handle _ x
  | @cancel t _ i ih =>
    exact ⟨sane_cancel ih.sane i, books_cancel ih.books i, (t.manager_cancel i).symm ▸ ih.quiet,
      (t.manager_cancel i).symm ▸ ih.ordered⟩

theorem Reachable.limit (h : t.Reachable config) :
    t.manager.slots.limit = config.maxContainers := limit_of_books h.kept.books

theorem Reachable.settled (h : t.Reachable config) : t.manager.Settled :=
  settled_of_books h.kept.sane h.kept.books h.kept.quiet

theorem Reachable.nodup_ids (h : t.Reachable config) : t.manager.slots.ids.Nodup :=
  nodup_ids_of_books h.kept.books

theorem Reachable.ordered (h : t.Reachable config) :
    t.manager.pool.All fun c => c.state.Ordered := h.kept.ordered

end ConcurrentManager
end ContainerHost
