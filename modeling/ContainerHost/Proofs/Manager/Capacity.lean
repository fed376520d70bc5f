import ContainerHost.Interpreter.Machine
import ContainerHost.Proofs.Manager.Registry
import ContainerHost.Proofs.Manager.Reservations
/-!
# The capacity of a manager

The slots of a concurrent manager are those of a ledger: each move takes one or two steps of the
registry, or none, and the reservations that the ledger holds are those of the runs and the scalings
under way (`Booked`). What is true of every ledger is therefore true of a manager.

What is proved: `capacity`.
-/

namespace ContainerHost

/-- A ledger that is reached from an empty one. -/
def Ledger.Reached (limit : Nat) (l : Ledger) : Prop := ∃ steps, l = (opened limit).run steps

namespace Ledger.Reached

variable {limit : Nat} {l : Ledger}

theorem step (h : l.Reached limit) (s : RegistryStep) : (l.step s).Reached limit := by
  obtain ⟨steps, rfl⟩ := h
  refine ⟨steps ++ [s], ?_⟩
  simp only [run, List.foldl_append, List.foldl_cons, List.foldl_nil]

theorem sound (h : l.Reached limit) : l.Sound := by
  obtain ⟨steps, rfl⟩ := h
  exact sound_run (sound_opened limit) steps

theorem limit_eq (h : l.Reached limit) : l.slots.limit = limit := by
  obtain ⟨steps, rfl⟩ := h
  rw [limit_run]
  rfl

theorem ordered (h : l.Reached limit) : l.slots.registered.Ordered := by
  obtain ⟨steps, rfl⟩ := h
  refine List.foldlRecOn (motive := fun l : Ledger => l.slots.registered.Ordered) steps _
    Table.ordered_empty ?_
  intro l hl step _
  cases step with
  | reserve ticket n =>
    simp only [Ledger.step]
    split
    · exact hl
    · split
      · exact hl
      · rename_i hreserve
        obtain ⟨-, rfl, -⟩ := Slots.reserve_eq_ok hreserve
        exact hl
  | commit ticket ids =>
    simp only [Ledger.step]
    split
    · exact hl
    · split
      · exact Table.ordered_insertAll hl _
      · exact hl
  | drop ticket =>
    simp only [Ledger.step]
    split
    · exact hl
    · simpa only [Ledger.settle, Slots.registered_drop] using hl
  | remove id => exact Table.ordered_erase hl id
  | drain => exact Table.ordered_empty

end Ledger.Reached

def reservations (tasks : List (Nat × Task)) : List (Nat × Reservation) :=
  tasks.filterMap fun e => e.2.reservation?.map (e.1, ·)

/-- A task commits as many instances as it has slots for. -/
def Task.Sized : Task → Prop
  | .run r _ _ _ => r.slots = 1
  | .scale r _ n => r.slots = n
  | _ => True

/-- The ledger has these slots, and holds the reservations of these tasks. -/
structure Booked (slots : Slots) (tickets : Nat) (tasks : List (Nat × Task)) (l : Ledger) :
    Prop where
  slots : l.slots = slots
  held : l.held.Perm (reservations tasks)
  granted : ∀ k ∈ l.granted, k < tickets
  sized : ∀ e ∈ tasks, e.2.Sized

namespace Booked

variable {slots : Slots} {tickets : Nat} {tasks rest : List (Nat × Task)} {l : Ledger}
  {ticket : Nat} {task : Task} {r : Reservation}

/-- Tasks that hold no reservation begin. -/
theorem enlist (h : Booked slots tickets tasks l) {more : Nat} (hle : tickets ≤ more)
    (new : List (Nat × Task)) (hnew : ∀ e ∈ new, e.2.reservation? = none) :
    Booked slots more (tasks ++ new) l := by
  have hnone : reservations new = [] := by
    refine List.filterMap_eq_nil_iff.mpr ?_
    intro e he
    rw [hnew e he]
    rfl
  refine ⟨h.slots, ?_, ?_, ?_⟩
  · rw [reservations, List.filterMap_append]
    show l.held.Perm (reservations tasks ++ reservations new)
    rw [hnone, List.append_nil]
    exact h.held
  · intro k hk
    exact Nat.lt_of_lt_of_le (h.granted k hk) hle
  · intro e he
    rcases List.mem_append.mp he with he | he
    · exact h.sized e he
    · have hres := hnew e he
      generalize e.2 = task at hres ⊢
      cases task with
      | run r name config bytes => cases hres
      | scale r id n => cases hres
      | _ => trivial

/-- A task that holds no reservation ends. -/
theorem forget (h : Booked slots tickets ((ticket, task) :: rest) l)
    (hr : task.reservation? = none) : Booked slots tickets rest l := by
  refine ⟨h.slots, ?_, h.granted, fun e he => h.sized e (List.mem_cons_of_mem _ he)⟩
  have hskip : reservations ((ticket, task) :: rest) = reservations rest := by
    simp [reservations, hr]
  exact hskip ▸ h.held

theorem perm (h : Booked slots tickets tasks l) (hp : rest.Perm tasks) :
    Booked slots tickets rest l :=
  ⟨h.slots, h.held.trans (hp.filterMap _).symm, h.granted, fun e he => h.sized e (hp.mem_iff.mp he)⟩

theorem at_place (h : Booked slots tickets tasks l) {i : Nat} {e : Nat × Task}
    (he : tasks[i]? = some e) : Booked slots tickets (e :: tasks.eraseIdx i) l := by
  obtain ⟨hlt, rfl⟩ := List.getElem?_eq_some_iff.mp he
  exact h.perm (List.getElem_cons_eraseIdx_perm hlt)

/-- An operation reserves slots and goes on as a task. -/
theorem reserve (h : Booked slots tickets tasks l) {n : Nat} {held : Slots} (task : Task)
    (hreserve : slots.reserve n = .ok (r, held)) (hr : task.reservation? = some r)
    (hsized : r.slots = n → task.Sized) :
    Booked held (tickets + 1) (tasks ++ [(tickets, task)]) (l.step (.reserve tickets n)) := by
  have hfresh : tickets ∉ l.granted := fun hmem => Nat.lt_irrefl _ (h.granted _ hmem)
  have hn := (Slots.reserve_eq_ok hreserve).1
  have hstep : l.step (.reserve tickets n) =
      { l with slots := held, held := l.held ++ [(tickets, r)],
               granted := l.granted ++ [tickets] } := by
    simp only [Ledger.step, if_neg hfresh, h.slots, hreserve]
  rw [hstep]
  refine ⟨rfl, ?_, ?_, ?_⟩
  · rw [reservations, List.filterMap_append]
    refine h.held.append ?_
    simp [hr]
  · intro k hk
    rcases List.mem_append.mp hk with hk | hk
    · exact Nat.lt_succ_of_lt (h.granted k hk)
    · rw [List.mem_singleton] at hk
      omega
  · intro e he
    rcases List.mem_append.mp he with he | he
    · exact h.sized e he
    · rw [List.mem_singleton] at he
      subst he
      exact hsized (congrArg Reservation.slots hn)

theorem settle (h : Booked slots tickets ((ticket, task) :: rest) l) (hl : l.Sound)
    (hr : task.reservation? = some r) (x : Settlement) :
    l.reservation? ticket = some r ∧ (l.settle ticket x).held.Perm (reservations rest) := by
  have hheld : l.held.Perm ((ticket, r) :: reservations rest) := by
    have hfirst : reservations ((ticket, task) :: rest) = (ticket, r) :: reservations rest := by
      simp [reservations, hr]
    exact hfirst ▸ h.held
  have hmem : (ticket, r) ∈ l.held := hheld.mem_iff.mpr List.mem_cons_self
  -- tickets are distinct, so that settling takes away this reservation and no other
  have hsplit := Ledger.perm_held (Ledger.held_nodup hl) hmem
  exact ⟨Ledger.reservation?_of_mem hl hmem, List.Perm.cons_inv (hsplit.symm.trans hheld)⟩

theorem drop (h : Booked slots tickets ((ticket, task) :: rest) l) (hl : l.Sound)
    (hr : task.reservation? = some r) :
    Booked (slots.drop r) tickets rest (l.step (.drop ticket)) := by
  obtain ⟨hfound, hheld⟩ := h.settle hl hr .released
  have hstep : l.step (.drop ticket) =
      { l with slots := l.slots.drop r }.settle ticket .released := by
    simp only [Ledger.step, hfound]
  rw [hstep]
  exact ⟨congrArg (Slots.drop · r) h.slots, hheld, h.granted,
    fun e he => h.sized e (List.mem_cons_of_mem _ he)⟩

theorem commit (h : Booked slots tickets ((ticket, task) :: rest) l) (hl : l.Sound)
    (hr : task.reservation? = some r) {ids : List String} (hids : ids.length ≤ r.slots) :
    Booked (slots.commit r ids).2 tickets rest (l.step (.commit ticket ids)) := by
  obtain ⟨hfound, hheld⟩ := h.settle hl hr .committed
  have hstep : l.step (.commit ticket ids) =
      { l with slots := (l.slots.commit r ids).2 }.settle ticket .committed := by
    simp only [Ledger.step, hfound, if_pos hids]
    rfl
  rw [hstep]
  exact ⟨congrArg (fun s => (Slots.commit s r ids).2) h.slots, hheld, h.granted,
    fun e he => h.sized e (List.mem_cons_of_mem _ he)⟩

/-- Ids leave the registry, one or all of them. -/
theorem unregister (h : Booked slots tickets tasks l) (step : RegistryStep) {s : Slots}
    (hstep : l.step step = { l with slots := s }) : Booked s tickets tasks (l.step step) := by
  rw [hstep]
  exact ⟨rfl, h.held, h.granted, h.sized⟩

end Booked

namespace ConcurrentManager

variable {t : ConcurrentManager} {slots : Slots} {s : String → Option Status}
  {tasks rest : List (Nat × Task)} {l : Ledger} {m : Manager} {ticket : Nat} {task : Task}
  {r : Reservation} {limit : Nat}

/-- The slots are those of a ledger that is reached, with the same reservations. -/
def Books (t : ConcurrentManager) (limit : Nat) : Prop :=
  ∃ l : Ledger, l.Reached limit ∧ Booked t.manager.slots t.tickets t.tasks l

theorem books_opened (hslots : m.slots = .free limit) : (opened m).Books limit := by
  refine ⟨Ledger.opened limit, ⟨[], rfl⟩, hslots.symm, List.Perm.refl _, ?_, ?_⟩
  · intro k hk
    cases hk
  · intro e he
    cases he

/-- A run that ends settles its reservation. -/
theorem books_ran (hl : l.Reached limit) {tickets : Nat}
    (h : Booked slots tickets ((ticket, task) :: rest) l) (hr : task.reservation? = some r)
    (hsized : r.slots = 1) {result : Except Failure String}
    (hran : Manager.Ran slots s r (result, m)) :
    ∃ l : Ledger, l.Reached limit ∧ Booked m.slots tickets rest l := by
  cases result with
  | error e =>
    refine ⟨_, hl.step (.drop ticket), ?_⟩
    rw [hran.slots]
    exact h.drop hl.sound hr
  | ok id =>
    obtain ⟨-, hm⟩ := hran
    refine ⟨_, hl.step (.commit ticket [id]), ?_⟩
    rw [hm.slots]
    exact h.commit hl.sound hr (Nat.le_of_eq hsized.symm)

/-- Scaling that ends settles its reservation. -/
theorem books_scaled (hl : l.Reached limit) {tickets n : Nat} {ids : List String}
    (h : Booked slots tickets ((ticket, task) :: rest) l) (hr : task.reservation? = some r)
    (hsized : r.slots = n) {result : Except Failure (List String)}
    (hscaled : Manager.Scaled slots s r n ids (result, m)) :
    ∃ l : Ledger, l.Reached limit ∧ Booked m.slots tickets rest l := by
  cases result with
  | error e =>
    refine ⟨_, hl.step (.drop ticket), ?_⟩
    rw [hscaled.slots]
    exact h.drop hl.sound hr
  | ok made =>
    obtain ⟨-, hlength, hm⟩ := hscaled
    refine ⟨_, hl.step (.commit ticket ids), ?_⟩
    rw [hm.slots]
    exact h.commit hl.sound hr (Nat.le_of_eq (hlength.trans hsized.symm))

/-- A move that touches no slots, and begins nothing that reserves any. -/
theorem books_find (h : Booked t.manager.slots t.tickets t.tasks l) (hl : l.Reached limit)
    (ticket : Nat) (id : String) {task : Container → Task}
    (ht : ∀ c, (task c).reservation? = none) : (t.find ticket id task).Books limit := by
  unfold ConcurrentManager.find
  cases t.manager.lookup id with
  | error e => exact ⟨l, hl, h⟩
  | ok c => exact ⟨l, hl, h.enlist (Nat.le_refl _) [(ticket, task c)] (by simpa using ht c)⟩

theorem books_scatter (h : Booked t.manager.slots t.tickets t.tasks l) (hl : l.Reached limit)
    (ticket : Nat) (ids : List String) {part : String → Task}
    (hpart : ∀ id, (part id).reservation? = none) (cleans : Bool) :
    (t.scatter ticket ids part cleans).Books limit := by
  refine ⟨l, hl, ?_⟩
  rw [Agrees.tasks_scatter]
  refine h.enlist (Nat.le_add_right _ _) _ ?_
  intro e he
  rcases Agrees.of_mem_scattered he with ⟨id, -, heq⟩ | ⟨parts, heq⟩
  · rw [heq]
    exact hpart id
  · rw [heq]
    rfl

theorem books_ask (hs : t.Sane) (h : t.Books limit) (q : Request) : (t.ask q).Books limit := by
  obtain ⟨slots, s, hs⟩ := hs
  obtain ⟨l, hl, h⟩ := h
  have hnext : Booked t.manager.slots (t.tickets + 1) t.tasks l := by
    have hmore := h.enlist (Nat.le_succ t.tickets) [] (by simp)
    rwa [List.append_nil] at hmore
  cases q with
  | run name config =>
    simp only [ask]
    rcases hs.shows.beginRun name config with ⟨e, -, hb⟩ | ⟨r, held, hreserve, hb⟩
    · rw [hb]
      exact ⟨l, hl, hnext⟩
    · rw [← hs.shows.slots] at hreserve
      have hone : r.slots = 1 := congrArg Reservation.slots (Slots.reserve_eq_ok hreserve).1
      generalize t.manager.beginRun name config = begun at hb ⊢
      obtain ⟨result | ⟨r', name', config', bytes⟩, m⟩ := begun
      · -- a run that ends at once is one that goes on, and then ends
        have htask := h.reserve (.run r name config (.error .noRuntimeAvailable)) hreserve
          rfl fun heq => heq
        have hfirst := htask.perm List.perm_append_comm.symm
        obtain ⟨l', hl', hended⟩ := books_ran (hl.step _) hfirst rfl hone hb
        exact ⟨l', hl', hended⟩
      · obtain ⟨rfl, hm⟩ := hb
        have htask := h.reserve (.run r' name' config' bytes) hreserve rfl fun heq => heq
        exact ⟨_, hl.step (.reserve t.tickets 1), hm.slots ▸ htask⟩
  | scale id n =>
    have hb := hs.shows.beginScale id n
    simp only [ask]
    generalize t.manager.beginScale id n = begun at hb ⊢
    obtain ⟨e | r, m⟩ := begun
    · have hsame : m.slots = t.manager.slots := hb.slots.trans hs.shows.slots.symm
      exact ⟨l, hl, hsame ▸ hnext⟩
    · obtain ⟨-, held, hreserve, hm⟩ := hb
      rw [← hs.shows.slots] at hreserve
      have htask := h.reserve (.scale r id n) hreserve rfl fun heq => heq
      exact ⟨_, hl.step (.reserve t.tickets n), hm.slots ▸ htask⟩
  | stop id =>
    exact books_find (t := { t with tickets := t.tickets + 1 }) hnext hl _ id fun _ => rfl
  | restart id =>
    exact books_find (t := { t with tickets := t.tickets + 1 }) hnext hl _ id fun _ => rfl
  | hotReload id =>
    exact books_find (t := { t with tickets := t.tickets + 1 }) hnext hl _ id fun _ => rfl
  | restartAll =>
    exact books_scatter (t := { t with tickets := t.tickets + 1 }) hnext hl _ _ (fun _ => rfl) false
  | cleanup =>
    -- the registry is drained before the stops begin, and what is pending stays
    have hdrained := hnext.unregister .drain (s := t.manager.slots.drain.2) (by rw [← h.slots]; rfl)
    exact books_scatter (t := ConcurrentManager.withManager { t with tickets := t.tickets + 1 }
      { t.manager with slots := t.manager.slots.drain.2 }) hdrained (hl.step .drain) _ _
      (fun _ => rfl) true

theorem books_proceed (hs : t.Agrees slots s ((ticket, task) :: t.tasks))
    (hl : l.Reached limit)
    (h : Booked t.manager.slots t.tickets ((ticket, task) :: t.tasks) l) :
    (t.proceed ticket task).Books limit := by
  rw [hs.shows.slots] at h
  have hsized := h.sized _ List.mem_cons_self
  cases task with
  | run r name config bytes =>
    -- runs and scalings settle their reservations
    obtain ⟨l', hl', hended⟩ := books_ran hl h rfl hsized (hs.shows.endRun r name config bytes)
    exact ⟨l', hl', hended⟩
  | scale r id n =>
    obtain ⟨ids, -, hend⟩ := hs.shows.endScale r id n
    obtain ⟨l', hl', hended⟩ := books_scaled hl h rfl hsized hend
    refine ⟨l', hl', ?_⟩
    rw [proceed, manager_scaled, tasks_scaled, tickets_scaled]
    exact hended
  | stop id =>
    -- all others have none, and at most take ids out
    have hrest := h.forget rfl
    have hin := hs.filed.targets _ List.mem_cons_self id rfl
    have hremoved := hrest.unregister (.remove id) (s := slots.remove id) (by rw [← h.slots]; rfl)
    exact ⟨_, hl.step (.remove id), (hs.shows.remove hin).slots ▸ hremoved⟩
  | restart id =>
    have hin := hs.filed.targets _ List.mem_cons_self id rfl
    have hlisted := (h.forget rfl).enlist (Nat.le_refl _)
      [(ticket, .rest id (t.manager.beginRestart id).1)] (by simp [Task.reservation?])
    exact ⟨l, hl, (hs.shows.beginRestart hin).slots ▸ hlisted⟩
  | rest id snapshot =>
    have hin := hs.filed.targets _ List.mem_cons_self id rfl
    have hend := hs.shows.endRestart hin snapshot
    have hrest := h.forget rfl
    simp only [proceed]
    generalize t.manager.endRestart id snapshot = ended at hend ⊢
    obtain ⟨e | u, m⟩ := ended
    · exact ⟨l, hl, hend.slots ▸ hrest⟩
    · exact ⟨l, hl, hend.slots ▸ hrest⟩
  | fetch id name key =>
    have hfetch := hs.shows.fetchAndCompile name
    have hrest := h.forget rfl
    simp only [proceed]
    generalize t.manager.fetchAndCompile name = fetched at hfetch ⊢
    obtain ⟨e | module, m⟩ := fetched
    · exact ⟨l, hl, hfetch.slots ▸ hrest⟩
    · have hlisted := hrest.enlist (Nat.le_refl _) [(ticket, .reload id key module)]
        (by simp [Task.reservation?])
      exact ⟨l, hl, hfetch.slots ▸ hlisted⟩
  | reload id key module =>
    exact ⟨l, hl, (hs.shows.putIn id key module).slots ▸ h.forget rfl⟩
  | sweep id =>
    have hin := hs.filed.targets _ List.mem_cons_self id rfl
    exact ⟨l, hl, (hs.shows.halt hin).slots ▸ h.forget rfl⟩
  | gather parts cleans =>
    refine ⟨l, hl, ?_⟩
    have hrest := h.forget rfl
    rw [← hs.shows.slots] at hrest
    cases cleans with
    | false => exact hrest
    | true => exact hrest

theorem books_go (hs : t.Sane) (h : t.Books limit) (i : Nat) : (t.go i).Books limit := by
  have hbooks := h
  obtain ⟨slots, s, hs⟩ := hs
  obtain ⟨l, hl, h⟩ := h
  unfold go
  split
  · exact hbooks
  · rename_i ticket task he
    split
    · exact books_proceed (hs.at_place he) hl (h.at_place he)
    · exact hbooks

theorem books_abandon (h : t.Books limit) (i : Nat) : (t.abandon i).Books limit := by
  have hbooks := h
  obtain ⟨l, hl, h⟩ := h
  unfold abandon
  split
  · exact hbooks
  · rename_i r hr
    obtain ⟨⟨ticket, task⟩, he, hreservation⟩ := Option.bind_eq_some_iff.mp hr
    exact ⟨_, hl.step (.drop ticket), (h.at_place he).drop hl.sound hreservation⟩

/-- A move touches the slots by steps of a ledger only. -/
theorem books_move (hs : t.Sane) (h : t.Books limit) (x : Move) : (t.move x).Books limit := by
  have hbooks := h
  have hsane := hs
  obtain ⟨slots, s, hs⟩ := hs
  obtain ⟨l, hl, h⟩ := h
  cases x with
  | ask q => exact books_ask hsane hbooks q
  | go i => exact books_go hsane hbooks i
  | abandon i => exact books_abandon hbooks i
  | interact id x =>
    have hm := hs.shows.act_still id ()
      (f := fun c => ((), c.interact t.manager.pool.clock.wall x))
      (fun c => (still_interact c _ x).id) (fun c => (still_interact c _ x).status)
    have hsame := hm.slots.trans hs.shows.slots.symm
    exact ⟨l, hl, hsame ▸ h⟩
  | observe event who => exact hbooks
  | sleep d =>
    have hsame := (hs.shows.sleep d).slots.trans hs.shows.slots.symm
    exact ⟨l, hl, hsame ▸ h⟩
  | pass d => exact hbooks
  | surround source network outside => exact hbooks

theorem books_run (hs : t.Sane) (h : t.Books limit) (xs : List Move) : (t.run xs).Books limit := by
  have hboth := run_induction (P := fun t => t.Sane ∧ t.Books limit)
    (fun _ x h => ⟨sane_move h.1 x, books_move h.1 h.2 x⟩) ⟨hs, h⟩ xs
  exact hboth.2

theorem shows_of_opened {config : ManagerConfig} {host : Guest.Host} {source : Source}
    {deployer : Deployer} {network : Http.Network} {outside : Outside}
    (h : Manager.opened config host source deployer network outside = .ok m) :
    m.Shows (.free config.maxContainers) fun _ => none := by
  unfold Manager.opened at h
  cases hvalid : config.validate with
  | error e => simp [hvalid, Except.map] at h
  | ok u =>
    simp only [hvalid, Except.map, Except.ok.injEq] at h
    subst h
    exact ⟨rfl, Pool.shows_opened outside⟩

theorem sane_of_opened {slots : Slots} (hslots : slots.registered = .empty)
    (h : m.Shows slots fun _ => none) (xs : List Move) : ((opened m).run xs).Sane := by
  refine sane_run (sane_opened ?_ ?_) xs
  · rw [h.slots, hslots]
  · exact ⟨rfl, h.pool⟩

/-- A concurrent manager keeps within the limit: the pending slots are those of the runs and scalings
under way. -/
theorem within_of_books (h : t.Books limit) :
    t.manager.slots.occupied ≤ limit ∧
      t.manager.slots.pending = ((reservations t.tasks).map (·.2.slots)).sum := by
  obtain ⟨l, hl, h⟩ := h
  have hwithin := hl.sound.within
  have hpending := hl.sound.pending
  rw [hl.limit_eq, h.slots] at hwithin
  rw [h.slots] at hpending
  exact ⟨hwithin, hpending.trans (h.held.map _).sum_nat⟩

/-- The capacity of a manager. Whatever steps operations take in its registry, the taken slots stay
within the limit and the pending ones are those of the reservations in flight, so that giving a
reservation's slots back never takes more than there are. Every reservation that was granted is
settled once, or is in flight; when none is, no slot is pending. The operations of a manager,
however they interleave, take such steps and no others, and the reservations in flight are those of
the runs and scalings under way. -/
theorem capacity (limit : Nat) :
    (∀ steps, let l := (Ledger.opened limit).run steps
      l.slots.occupied ≤ limit ∧
      l.slots.pending = (l.held.map (·.2.slots)).sum ∧
      (∀ k r, (k, r) ∈ l.held → r.slots ≤ l.slots.pending) ∧
      l.granted.Nodup ∧
      (l.held.map (·.1) ++ l.settled.map (·.1)).Perm l.granted ∧
      (l.held = [] → l.slots.pending = 0)) ∧
    ∀ (config : ManagerConfig) (host : Guest.Host) (source : Source) (deployer : Deployer)
      (network : Http.Network) (outside : Outside) (m : Manager) (moves : List Move),
      Manager.opened config host source deployer network outside = .ok m →
      config.maxContainers = limit →
      let t := (ConcurrentManager.opened m).run moves
      (∃ steps, ((Ledger.opened limit).run steps).slots = t.manager.slots ∧
        ((Ledger.opened limit).run steps).held.Perm (reservations t.tasks)) ∧
      t.manager.slots.occupied ≤ limit ∧
      t.manager.slots.pending = ((reservations t.tasks).map (·.2.slots)).sum ∧
      (reservations t.tasks = [] → t.manager.slots.pending = 0) := by
  refine ⟨?_, ?_⟩
  · intro steps l
    have hl : l.Sound := Ledger.sound_run (Ledger.sound_opened limit) steps
    have hlimit : l.slots.limit = limit := Ledger.limit_run _ steps
    refine ⟨hlimit ▸ hl.within, hl.pending, ?_, hl.granted, hl.accounted, ?_⟩
    · intro k r hmem
      exact Ledger.slots_le_pending hl hmem
    · intro hnone
      rw [hl.pending, Ledger.outstanding, hnone]
      rfl
  · intro config host source deployer network outside m moves hm hlimit t
    have hshows := shows_of_opened hm
    rw [hlimit] at hshows
    have hbooks : t.Books limit := books_run (sane_of_opened rfl hshows [])
      (books_opened hshows.slots) moves
    obtain ⟨hwithin, hpending⟩ := within_of_books hbooks
    refine ⟨?_, hwithin, hpending, ?_⟩
    · obtain ⟨l, ⟨steps, rfl⟩, hbooked⟩ := hbooks
      exact ⟨steps, hbooked.slots, hbooked.held⟩
    · intro hnone
      rw [hpending, hnone]
      rfl

/-! ## One slot -/

def narrow : ManagerConfig := { ManagerConfig.standard with maxContainers := 1 }

def solo : Manager where
  config := narrow
  host := ⟨⟨.linux, .amd64, [.embeddedEngine]⟩, 1, Interpreter.interpreter⟩
  source := .held (.ofList [("a", .bytes ⟨#[0, 0x61, 0x73, 0x6d, 1, 0, 0, 0]⟩)])
  deployer := .rehearsal ⟨[], [], []⟩
  network := .silent
  bus := .empty
  slots := .free 1
  cache := .empty narrow.cacheSize
  pool := .opened (.ofDirs [])
  heard := []

theorem opened_solo :
    Manager.opened narrow solo.host solo.source solo.deployer .silent (.ofDirs []) = .ok solo := rfl

/-- While a run waits for its module, its reservation is the slot that is taken, and another run
gets none. -/
theorem capacity_solo :
    let t := (opened solo).run [.ask (.run "a" .standard), .ask (.run "a" .standard)]
    Manager.opened narrow solo.host solo.source solo.deployer .silent (.ofDirs []) = .ok solo ∧
    t.manager.slots.occupied ≤ 1 ∧
    t.manager.slots.pending = ((reservations t.tasks).map (·.2.slots)).sum ∧
    t.manager.slots.pending = 1 := by
  intro t
  obtain ⟨-, hwithin, hpending, -⟩ := (capacity 1).2 narrow solo.host solo.source solo.deployer
    .silent (.ofDirs []) solo _ opened_solo rfl
  exact ⟨opened_solo, hwithin, hpending, by decide +kernel⟩

end ConcurrentManager
end ContainerHost
