import ContainerHost.Proofs.Manager.Removals
import ContainerHost.Proofs.Manager.Reuse
/-!
# What is done with a manager

Operations in any interleaving, deployments, looks at all containers, and what is done with the bus
are the steps of a manager. A manager that is atop of another one comes to the same with all of
them, as long as nobody does anything with a container that was left over
(`ConcurrentManager.Atop.doSteps`).
-/

namespace ContainerHost

namespace ConcurrentManager

variable {t u : ConcurrentManager} {left : Manager} {id : String}

/-! ## Operations under way -/

/-- The same is under way on a manager that is atop, and the same came of what has ended. -/
structure Atop (t : ConcurrentManager) (left : Manager) (u : ConcurrentManager) : Prop where
  manager : t.manager.Atop left u.manager
  tasks : u.tasks = t.tasks
  tickets : u.tickets = t.tickets
  answers : u.answers = t.answers

theorem housed (h : t.Sane) : t.manager.Housed := fun _ hid => present_of_holds h hid

/-- The container that a task is about is there. -/
theorem target_there (h : t.Sane) {e : Nat × Task} (he : e ∈ t.tasks)
    (hid : e.2.target? = some id) : (t.manager.pool.get? id).isSome := by
  obtain ⟨slots, s, hagrees⟩ := h
  have hpresent := hagrees.filed.targets e he id hid
  rwa [← hagrees.shows.pool.status, Pool.statusOf, Option.isSome_map] at hpresent

namespace Atop

theorem find (h : t.Atop left u) (hm : t.manager.Housed) (ticket : Nat) (id : String)
    (task : Container → Task) : (t.find ticket id task).Atop left (u.find ticket id task) := by
  unfold ConcurrentManager.find
  rw [h.manager.lookup hm]
  cases t.manager.lookup id with
  | error e => exact ⟨h.manager, h.tasks, h.tickets, congrArg (· ++ _) h.answers⟩
  | ok c => exact ⟨h.manager, congrArg (· ++ _) h.tasks, h.tickets, h.answers⟩

theorem scatter (h : t.Atop left u) (ticket : Nat) (ids : List String) (part : String → Task)
    (cleans : Bool) :
    (t.scatter ticket ids part cleans).Atop left (u.scatter ticket ids part cleans) := by
  simp only [ConcurrentManager.scatter]
  rw [h.tickets, h.tasks]
  exact ⟨h.manager, rfl, rfl, h.answers⟩

theorem withManager (h : t.Atop left u) {m m' : Manager} (hm : m.Atop left m') :
    (t.withManager m).Atop left (u.withManager m') := ⟨hm, h.tasks, h.tickets, h.answers⟩

theorem mark (h : t.Atop left u) (ids ids' : List String) (what what' : Mark) :
    (t.mark ids what).Atop left (u.mark ids' what') := ⟨h.manager, h.tasks, h.tickets, h.answers⟩

theorem answer (h : t.Atop left u) (ticket : Nat) (r : Reply) :
    (t.answer ticket r).Atop left (u.answer ticket r) :=
  ⟨h.manager, h.tasks, h.tickets, congrArg (· ++ _) h.answers⟩

theorem enlist (h : t.Atop left u) (ticket : Nat) (task : Task) :
    (t.enlist ticket task).Atop left (u.enlist ticket task) :=
  ⟨h.manager, congrArg (· ++ _) h.tasks, h.tickets, h.answers⟩

theorem ran (h : t.Atop left u) (ticket : Nat) (result : Except Failure String) {m m' : Manager}
    (hm : m.Atop left m') : (t.ran ticket result m).Atop left (u.ran ticket result m') :=
  ((h.withManager hm).mark ..).answer ..

theorem scaled (h : t.Atop left u) (ticket : Nat) (result : Except Failure (List String))
    {m m' : Manager} (hm : m.Atop left m') :
    (t.scaled ticket result m).Atop left (u.scaled ticket result m') := by
  cases result with
  | error e => exact ((h.withManager hm).mark ..).answer ..
  | ok ids => exact ((h.withManager hm).mark ..).answer ..

theorem ask (h : t.Atop left u) (hm : t.manager.Housed) (q : Request) :
    (t.ask q).Atop left (u.ask q) := by
  have hnext : { t with tickets := t.tickets + 1 }.Atop left { u with tickets := t.tickets + 1 } :=
    ⟨h.manager, h.tasks, rfl, h.answers⟩
  unfold ConcurrentManager.ask
  rw [h.tickets]
  cases q with
  | run name config =>
    obtain ⟨hresult, hafter⟩ := h.manager.beginRun name config
    dsimp only
    generalize t.manager.beginRun name config = begun at hresult hafter ⊢
    generalize u.manager.beginRun name config = begun' at hresult hafter ⊢
    -- both begin in the same way, and go on so
    obtain ⟨p, m⟩ := begun
    obtain ⟨p', m'⟩ := begun'
    obtain rfl : p' = p := hresult
    cases p' with
    | ended result => exact hnext.ran _ _ hafter
    | waiting r name config bytes => exact (hnext.withManager hafter).enlist ..
  | scale id n =>
    obtain ⟨hresult, hafter⟩ := h.manager.beginScale hm id n
    dsimp only
    generalize t.manager.beginScale id n = begun at hresult hafter ⊢
    generalize u.manager.beginScale id n = begun' at hresult hafter ⊢
    obtain ⟨r, m⟩ := begun
    obtain ⟨r', m'⟩ := begun'
    obtain rfl : r' = r := hresult
    cases r' with
    | error e => exact (hnext.withManager hafter).answer ..
    | ok r => exact (hnext.withManager hafter).enlist ..
  | stop id => exact hnext.find hm ..
  | restart id => exact hnext.find hm ..
  | hotReload id => exact hnext.find hm ..
  | restartAll =>
    dsimp only
    rw [h.manager.slots]
    exact hnext.scatter ..
  | cleanup =>
    dsimp only
    rw [h.manager.slots]
    have hdrained : ({ t with tickets := t.tickets + 1 }.withManager
        { t.manager with slots := t.manager.slots.drain.2 }).Atop left
        ({ u with tickets := t.tickets + 1 }.withManager
          { u.manager with slots := t.manager.slots.drain.2 }) :=
      ⟨h.manager.withSlots _, h.tasks, rfl, h.answers⟩
    exact hdrained.scatter ..

/-- A task goes on that is about a container that is there. -/
theorem proceed (h : t.Atop left u) (ticket : Nat) {task : Task}
    (hid : ∀ id, task.target? = some id → (t.manager.pool.get? id).isSome) :
    (t.proceed ticket task).Atop left (u.proceed ticket task) := by
  cases task with
  | run r name config bytes =>
    obtain ⟨hresult, hafter⟩ := h.manager.endRun (.waiting r name config bytes)
    simp only [ConcurrentManager.proceed]
    rw [hresult]
    exact h.ran _ _ hafter
  | scale r id n =>
    obtain ⟨hresult, hafter⟩ := h.manager.endScale (hid id rfl) r n
    simp only [ConcurrentManager.proceed]
    rw [hresult]
    exact h.scaled _ _ hafter
  | stop id => exact ((h.withManager (h.manager.remove (hid id rfl))).mark ..).answer ..
  | restart id =>
    obtain ⟨hresult, hafter⟩ := h.manager.act (h.manager.pool.get?_of_isSome (hid id rfl))
      (.empty : State) Container.beginRestart
    simp only [ConcurrentManager.proceed, Manager.beginRestart]
    rw [hresult]
    exact ((h.withManager hafter).mark ..).enlist ..
  | rest id snapshot =>
    obtain ⟨hresult, hafter⟩ := h.manager.endRestart (hid id rfl) snapshot
    simp only [ConcurrentManager.proceed]
    rw [hresult]
    exact ((h.withManager hafter).mark ..).answer ..
  | fetch id name key =>
    obtain ⟨hresult, hafter⟩ := h.manager.fetchAndCompile name
    simp only [ConcurrentManager.proceed]
    generalize t.manager.fetchAndCompile name = fetched at hresult hafter ⊢
    generalize u.manager.fetchAndCompile name = fetched' at hresult hafter ⊢
    obtain ⟨r, m⟩ := fetched
    obtain ⟨r', m'⟩ := fetched'
    obtain rfl : r' = r := hresult
    cases r' with
    | error e => exact (h.withManager hafter).answer ..
    | ok module => exact (h.withManager hafter).enlist ..
  | reload id key module =>
    obtain ⟨hresult, hafter⟩ := h.manager.putIn (hid id rfl) key module
    simp only [ConcurrentManager.proceed]
    rw [hresult]
    exact (h.withManager hafter).answer ..
  | sweep id => exact ((h.withManager (h.manager.halt (hid id rfl))).mark ..).answer ..
  | gather parts cleans =>
    have hresults : u.resultOf? = t.resultOf? := by
      funext ticket
      unfold resultOf?
      rw [h.answers]
    simp only [ConcurrentManager.proceed]
    rw [hresults]
    cases cleans with
    | false => exact (h.withManager (h.manager.emit _)).answer ..
    | true => exact (h.withManager (h.manager.endCleanup _)).answer ..

theorem ready (h : t.Atop left u) (task : Task) : u.ready task = t.ready task := by
  have hlocked : u.locked = t.locked := by
    funext id
    unfold locked
    rw [h.tasks]
  have hresults : u.resultOf? = t.resultOf? := by
    funext ticket
    unfold resultOf?
    rw [h.answers]
  unfold ConcurrentManager.ready
  rw [hlocked, hresults]

theorem go (h : t.Atop left u) (hs : t.Sane) (i : Nat) : (t.go i).Atop left (u.go i) := by
  unfold ConcurrentManager.go
  rw [h.tasks]
  split
  · exact h
  · rename_i ticket task he
    rw [h.ready]
    split
    · have hrest : { t with tasks := t.tasks.eraseIdx i }.Atop left
          { u with tasks := t.tasks.eraseIdx i } := ⟨h.manager, rfl, h.tickets, h.answers⟩
      exact hrest.proceed ticket fun _ => target_there hs (List.mem_of_getElem? he)
    · exact h

theorem abandon (h : t.Atop left u) (i : Nat) : (t.abandon i).Atop left (u.abandon i) := by
  unfold ConcurrentManager.abandon
  rw [h.tasks]
  split
  · exact h
  · exact ⟨h.manager.drop _, rfl, h.tickets, h.answers⟩

/-- Whatever happens next, nobody does anything with a container that was left over. -/
theorem move (h : t.Atop left u) (hs : t.Sane) {x : Move}
    (hx : ∀ id y, x = .interact id y → left.pool.get? id = none) : (t.move x).Atop left (u.move x) := by
  cases x with
  | ask q => exact h.ask (housed hs) q
  | go i => exact h.go hs i
  | abandon i => exact h.abandon i
  | interact id y =>
    have hclock : u.manager.pool.clock = t.manager.pool.clock := h.manager.pool.clock
    unfold ConcurrentManager.move
    rw [hclock]
    exact h.withManager (h.manager.act (h.manager.pool.get?_of_none (hx id y rfl)) ..).after
  | observe event who => exact h.withManager (h.manager.register_bus event false who)
  | sleep d => exact h.withManager (h.manager.sleep d)
  | pass d =>
    obtain ⟨y, hy, hsame⟩ := h.manager.exists_onto
    unfold ConcurrentManager.move
    rw [hsame]
    exact h.withManager (Manager.atop_onto
      (m := { t.manager with pool := t.manager.pool.pass d }) (hy.pass d))
  | surround source network outside =>
    obtain ⟨y, hy, hsame⟩ := h.manager.exists_onto
    unfold ConcurrentManager.move
    rw [hsame]
    exact h.withManager (Manager.atop_onto
      (m := { t.manager with
        source := source, network := network, pool := { t.manager.pool with outside := outside } })
      ⟨hy.clock, rfl, hy.stamps, hy.heard, hy.ordered, hy.ordered', hy.containers⟩)

end Atop
end ConcurrentManager

/-! ## Steps -/

/-- Something that is done with a manager. A listener that is taken off is named by how many were
registered before it. -/
inductive ManagerStep where
  | move (x : Move)
  | deploy (id : String)
  | health
  | metrics
  | once (event : String) (who : Observer)
  | off (event : String) (number : Nat)
  | removeAll (event : Option String)

/-- What a step comes to at once. -/
inductive Outcome where
  | done
  | deployed (result : Except Error String)
  | checked (all : List (String × Health))
  | measured (all : List (String × Metrics))
  | left (found : Bool)

/-- Nobody does anything with a container that the manager has left over. -/
def ManagerStep.Spares (left : Manager) (x : ManagerStep) : Prop :=
  ∀ id y, x = .move (.interact id y) → left.pool.get? id = none

/-- The manager as others see it: its containers, documents about them, the cache without the counts
of look-ups, and who listens. -/
structure Manager.Looks (m u : Manager) : Prop where
  get? : ∀ id, u.get? id = m.get? id
  size : u.size = m.size
  list : u.list = m.list
  composeText : u.composeText = m.composeText
  description : u.description = m.description
  cache : { u.cache.stats with hits := 0, misses := 0 } = { m.cache.stats with hits := 0, misses := 0 }
  count : ∀ event, u.bus.count event = m.bus.count event
  names : u.bus.names = m.bus.names

namespace ConcurrentManager

def doStep (first : Nat) (t : ConcurrentManager) : ManagerStep → Outcome × ConcurrentManager
  | .move x => (.done, t.move x)
  | .deploy id =>
    let (result, m) := t.manager.deploy id
    (.deployed result, t.withManager m)
  | .health =>
    let (all, m) := t.manager.health
    (.checked all, t.withManager m)
  | .metrics =>
    let (all, m) := t.manager.metrics
    (.measured all, t.withManager m)
  | .once event who =>
    (.done, t.withManager { t.manager with bus := (t.manager.bus.register event true who).2 })
  | .off event number =>
    let (found, bus) := t.manager.bus.off event (first + number)
    (.left found, t.withManager { t.manager with bus := bus })
  | .removeAll event =>
    (.done, t.withManager { t.manager with bus := t.manager.bus.removeAll event })

/-- Does one thing after the other. -/
def doSteps (first : Nat) : List ManagerStep → ConcurrentManager → List Outcome × ConcurrentManager
  | [], t => ([], t)
  | x :: xs, t =>
    let (outcome, t) := t.doStep first x
    let (outcomes, t) := doSteps first xs t
    (outcome :: outcomes, t)

/-- Does one thing after the other with a manager by itself, whose first listener is the next one. -/
def afterSteps (m : Manager) (xs : List ManagerStep) : List Outcome × ConcurrentManager :=
  doSteps m.bus.nextId xs (opened m)

variable {t u : ConcurrentManager} {left : Manager} {first : Nat}

theorem sane_withManager (h : t.Sane) {m : Manager}
    (hm : ∀ slots s, t.manager.Shows slots s → m.Shows slots s) : (t.withManager m).Sane := by
  obtain ⟨slots, s, hagrees⟩ := h
  exact ⟨slots, s, hagrees.quiet (hm slots s hagrees.shows) fun _ => rfl⟩

theorem shows_askAll {α : Type} {f : Container → α × Container}
    (hf : ∀ c, Container.Observed c (f c).2) (ids : List String) {m : Manager} {slots : Slots}
    {s : String → Option Status} (h : m.Shows slots s) :
    (Manager.askAll f ids m).2.Shows slots s := by
  induction ids generalizing m with
  | nil => exact h
  | cons id ids ih =>
    unfold Manager.askAll
    split
    · exact ih h
    · rename_i a y ha
      have hid (c : Container) : (f c).2.id = c.id := by
        obtain ⟨_, _, _, _, heq, -⟩ := hf c
        rw [heq]
      have hstatus (c : Container) : (f c).2.status = c.status := by
        obtain ⟨_, _, _, _, heq, -⟩ := hf c
        rw [heq]
      exact ih (Manager.shows_withPool h.slots (Pool.shows_act_still h.pool hid hstatus ha))

theorem shows_deploy (id : String) {m : Manager} {slots : Slots} {s : String → Option Status}
    (h : m.Shows slots s) : (m.deploy id).2.Shows slots s := by
  unfold Manager.deploy
  split
  · exact h
  · dsimp only
    split
    · exact ⟨h.slots, h.pool⟩
    · split <;> exact ⟨h.slots, h.pool⟩

theorem sane_doStep (h : t.Sane) (x : ManagerStep) : (t.doStep first x).2.Sane := by
  cases x with
  | move x => exact sane_move h x
  | deploy id =>
    exact sane_withManager h fun _ _ => shows_deploy id
  | health =>
    exact sane_withManager h fun _ _ => shows_askAll (fun c => c.observed_health _) _
  | metrics =>
    exact sane_withManager h fun _ _ => shows_askAll (fun c => c.observed_metrics _) _
  | once event who => exact sane_withManager h fun _ _ hm => ⟨hm.slots, hm.pool⟩
  | off event number => exact sane_withManager h fun _ _ hm => ⟨hm.slots, hm.pool⟩
  | removeAll event => exact sane_withManager h fun _ _ hm => ⟨hm.slots, hm.pool⟩

namespace Atop

theorem doStep (h : t.Atop left u) (hs : t.Sane) {x : ManagerStep} (hx : x.Spares left)
    (first : Nat) :
    (u.doStep (left.bus.nextId - 1 + first) x).1 = (t.doStep first x).1 ∧
      (t.doStep first x).2.Atop left (u.doStep (left.bus.nextId - 1 + first) x).2 := by
  have hclock : u.manager.pool.clock = t.manager.pool.clock := h.manager.pool.clock
  have hids : ∀ id ∈ t.manager.slots.ids, (t.manager.pool.get? id).isSome :=
    fun id hid => housed hs id (Slots.holds_iff.mpr hid)
  cases x with
  | move x => exact ⟨rfl, h.move hs fun id y heq => hx id y (congrArg ManagerStep.move heq)⟩
  | deploy id =>
    obtain ⟨hresult, hafter⟩ := h.manager.deploy (housed hs) id
    exact ⟨congrArg Outcome.deployed hresult, h.withManager hafter⟩
  | health =>
    obtain ⟨hresult, hafter⟩ := h.manager.askAll
      (fun c => c.health t.manager.pool.clock.wall) hids
    simp only [ConcurrentManager.doStep, Manager.health]
    rw [h.manager.slots, hclock]
    exact ⟨congrArg Outcome.checked hresult, h.withManager hafter⟩
  | metrics =>
    obtain ⟨hresult, hafter⟩ := h.manager.askAll
      (fun c => c.metrics t.manager.pool.clock.wall) hids
    simp only [ConcurrentManager.doStep, Manager.metrics]
    rw [h.manager.slots, hclock]
    exact ⟨congrArg Outcome.measured hresult, h.withManager hafter⟩
  | once event who => exact ⟨rfl, h.withManager (h.manager.register_bus event true who)⟩
  | off event number =>
    obtain ⟨hfound, hafter⟩ := h.manager.off_bus event (first + number)
    simp only [ConcurrentManager.doStep]
    rw [Nat.add_assoc]
    exact ⟨congrArg Outcome.left hfound, h.withManager hafter⟩
  | removeAll event => exact ⟨rfl, h.withManager (h.manager.removeAll_bus event)⟩

/-- Whatever is done one thing after the other comes to the same. -/
theorem doSteps (h : t.Atop left u) (hs : t.Sane) {xs : List ManagerStep}
    (hxs : ∀ x ∈ xs, x.Spares left)
    (first : Nat) :
    (doSteps (left.bus.nextId - 1 + first) xs u).1 = (ConcurrentManager.doSteps first xs t).1 ∧
      (ConcurrentManager.doSteps first xs t).2.Atop left
        (ConcurrentManager.doSteps (left.bus.nextId - 1 + first) xs u).2 ∧
      (ConcurrentManager.doSteps first xs t).2.Sane := by
  induction xs generalizing t u with
  | nil => exact ⟨rfl, h, hs⟩
  | cons x xs ih =>
    obtain ⟨hfirst, hnext⟩ := h.doStep hs (hxs x List.mem_cons_self) first
    obtain ⟨hrest, hlast⟩ := ih hnext (sane_doStep hs x) fun y hy => hxs y (List.mem_cons_of_mem _ hy)
    exact ⟨congrArg₂ List.cons hfirst hrest, hlast⟩

end Atop
end ConcurrentManager

namespace Manager

variable {m u left : Manager}

theorem Atop.looks (h : m.Atop left u) (hm : m.Housed) : m.Looks u := by
  have hget := h.get? hm
  have hcontainers : u.containers = m.containers := by
    unfold containers
    rw [h.slots]
    refine List.filterMap_congr ?_
    intro id hid
    exact h.pool.get?_of_isSome (hm id (Slots.holds_iff.mpr hid))
  have hsize : u.size = m.size := congrArg (fun s : Slots => s.registered.size) h.slots
  refine ⟨hget, hsize, ?_, ?_, ?_, ?_, ?_, ?_⟩
  · unfold list
    rw [hcontainers]
  · unfold composeText
    rw [hcontainers]
  · have hconfig : u.config = m.config := by rw [h.same]; rfl
    have hsource : u.source = m.source := by rw [h.same]; rfl
    unfold description
    rw [hsize, hconfig, hsource]
  · rw [h.same]
    rfl
  · intro event
    rw [h.same]
    exact Event.Bus.count_raise ..
  · rw [h.same]
    exact Event.Bus.names_raise ..

end Manager
end ContainerHost
