import ContainerHost.Proofs.Container.State
import ContainerHost.Proofs.Manager.Quiet
import ContainerHost.Proofs.Manager.Transparency
/-!
# How containers are handled

Whatever is done to a container that is there is one of five things: it is stopped, it comes up from
a restart, another module is put in, someone interacts with it, or it is looked at while time
passes. What all of these keep (`Handled`), and what holds of new containers, is kept by every move
(`Endures.move`). What new containers are may depend on their names, which are valid ones whenever
an operation gets to make them (`EnduresFor`), and on the pool that they come into, so that this is
said for the operations that are done from one pool on (`EnduresFrom`), and then for any.

The first such property is that the names in a state are in order. A state that is copied is then the
same state, and a snapshot that is put back is the state that was there (`Pool.endures_ordered`).
-/

namespace ContainerHost

namespace Container

/-- `d` is `c` after one of the things that are done to containers. -/
inductive Handled : Container → Container → Prop where
  | stopped (c : Container) : Handled c c.stop
  | revived (c : Container) (snapshot : State) (env : Surroundings) :
    Handled c (c.endRestart snapshot env).2
  | reloaded (c : Container) (m : Guest.Compiled) (digest : Option String) (env : Surroundings) :
    Handled c (c.hotReload m digest env).2
  | interacted (c : Container) (now : Nat) (x : Interaction) : Handled c (c.interact now x)
  | observed {c d : Container} (h : Observed c d) : Handled c d

variable {c d : Container}

/-! ## States in order -/

theorem ordered_updateState (h : c.state.Ordered) (u : State) :
    (c.updateState u).state.Ordered := by
  rw [state_updateState]
  exact Table.ordered_foldl_merge (Table.ordered_merge h u) _

theorem ordered_endRestart (h : c.state.Ordered) (snapshot : State) (env : Surroundings) :
    (c.endRestart snapshot env).2.state.Ordered := by
  have hstart := (c.setStatus .starting).start_spec env
  unfold endRestart revive
  generalize (c.setStatus .starting).start env = started at hstart ⊢
  obtain ⟨e | u, d⟩ := started
  · exact hstart.symm ▸ h
  · have hd : d.state.Ordered := hstart.1.symm ▸ Table.ordered_empty
    exact ordered_updateState hd snapshot

theorem ordered_hotReload (h : c.state.Ordered) (m : Guest.Compiled) (digest : Option String)
    (env : Surroundings) : (c.hotReload m digest env).2.state.Ordered := by
  unfold hotReload
  cases c.reloadedGuest m env with
  | error e => exact h
  | ok g =>
    dsimp only [endReload]
    split
    · exact ordered_updateState (c := c.swap g m digest) h c.state
    · exact h

/-- Of all interactions only updates change the state. -/
theorem ordered_interact (h : c.state.Ordered) (now : Nat) (x : Interaction) :
    (c.interact now x).state.Ordered := by
  cases x with
  | call function args =>
    obtain ⟨_, _, _, _, _, hd⟩ := c.beginCall_eq function args now
    rw [interact, hd]
    exact h
  | settle function result took =>
    obtain ⟨_, _, hd⟩ := c.settleCall_eq function result now took
    rw [interact, hd]
    exact h
  | update u => exact ordered_updateState h u
  | subscribe tag fails replies => exact h
  | unsubscribe id => exact h
  | query q => exact state_of_observed (c.observed_query now q) ▸ h

theorem Handled.ordered (h : Handled c d) (hc : c.state.Ordered) : d.state.Ordered := by
  cases h with
  | stopped => exact c.state_stop ▸ hc
  | revived snapshot env => exact ordered_endRestart hc snapshot env
  | reloaded m digest env => exact ordered_hotReload hc m digest env
  | interacted now x => exact ordered_interact hc now x
  | observed h => exact state_of_observed h ▸ hc

/-- A container that was made has no state. -/
theorem state_create {id name : String} {box : Guest.Sandbox} {module : Guest.Compiled}
    {digest : Option String} {env : Surroundings}
    (h : create id name box module digest env = .ok c) : c.state = .empty := by
  have hstart := (raw id name box module digest env.now).start_spec env
  unfold create at h
  split at h
  · cases h
  · generalize (raw id name box module digest env.now).start env = started at hstart h
    obtain ⟨e | u, d⟩ := started
    · cases h
    · cases h
      exact hstart.1

/-! ## Time that passes -/

/-- `d` is `c` some time later, when nothing was done to it but look at it. -/
def Aged (c d : Container) : Prop :=
  ∃ peak warned ticker outbox,
    d = { c with
      counters := { c.counters with peak := peak }, memoryWarned := warned, ticker := ticker,
      outbox := outbox }

theorem Aged.refl (c : Container) : Aged c c :=
  ⟨c.counters.peak, c.memoryWarned, c.ticker, c.outbox, rfl⟩

theorem Aged.trans {e : Container} (h : Aged c d) (k : Aged d e) : Aged c e := by
  obtain ⟨_, _, _, _, rfl⟩ := h
  obtain ⟨peak, warned, ticker, outbox, rfl⟩ := k
  exact ⟨peak, warned, ticker, outbox, rfl⟩

theorem aged_of_observed (h : Observed c d) : Aged c d := by
  obtain ⟨peak, warned, ticker, _, rfl, -⟩ := h
  exact ⟨peak, warned, ticker, _, rfl⟩

theorem aged_cleared (c : Container) : Aged c { c with outbox := [] } :=
  ⟨c.counters.peak, c.memoryWarned, c.ticker, [], rfl⟩

theorem Aged.alike (h : Aged c d) : Alike c d := by
  obtain ⟨_, _, _, _, rfl⟩ := h
  exact ⟨rfl, rfl, rfl, rfl, rfl, rfl⟩

end Container

/-- Time passes, and nothing else is done to any container. -/
theorem Pool.keeps_aged (y : Pool) : Keeps Container.Observed (y.Tracks Container.Aged) := by
  have htracks : Keeps Container.Aged (y.Tracks Container.Aged) :=
    keeps_tracks (fun _ _ h => h.alike.id) (fun _ _ e h k => (h.trans k).trans e.aged_cleared) y
  exact htracks.mono fun _ _ => Container.aged_of_observed

/-! ## The other containers -/

namespace Manager

variable {m : Manager} {id x : String}

/-- What is done to a container is done to no other. -/
theorem get?_pool_act_of_ne {α : Type} (h : m.pool.Labelled) (default : α)
    {f : Container → α × Container} (hf : ∀ c, (f c).2.id = c.id) (hx : x ≠ id) :
    (m.act id default f).2.pool.get? x = m.pool.get? x := by
  unfold act
  split
  · rename_i a y ha
    rw [pool_withPool]
    show y.get? x = m.pool.get? x
    exact Pool.get?_act_of_ne ha hf (h id) hx
  · rfl

theorem get?_pool_watchOver_of_ne (h : m.pool.Labelled) (hx : x ≠ id) :
    (m.watchOver id).pool.get? x = m.pool.get? x := by
  unfold watchOver
  split
  · split
    · rename_i y ha
      rw [pool_withPool]
      show y.get? x = m.pool.get? x
      exact Pool.get?_act_of_ne (f := fun c => ((), c.startTicker _ _)) ha (fun _ => rfl) (h id) hx
    · rfl
  · rfl

end Manager

/-! ## Every move -/

namespace Pool

/-- Whatever one operation does from a pool on, it keeps `Q`. -/
structure EnduresFrom (y : Pool) (Q : Pool → Prop) : Prop extends Keeps Container.Handled Q where
  created : ∀ {name : String} {box : Guest.Sandbox} {module : Guest.Compiled}
    {digest : Option String}, Q (y.create none name box module digest).2
  scaled : ∀ {y' : Pool} {id : String} {n : Nat} {result : Except Error (List String)},
    y.scale id n = some (result, y') → Q y'
  moved : ∀ outside : Outside, Q { y with outside := outside }

/-- The same if containers are only made of names that are allowed. -/
structure EnduresFor (ok : String → Prop) (y : Pool) (Q : Pool → Prop) : Prop
    extends Keeps Container.Handled Q where
  created : ∀ {name : String} {box : Guest.Sandbox} {module : Guest.Compiled}
    {digest : Option String}, ok name → Q (y.create none name box module digest).2
  scaled : ∀ {y' : Pool} {id : String} {n : Nat} {result : Except Error (List String)},
    y.scale id n = some (result, y') → Q y'
  moved : ∀ outside : Outside, Q { y with outside := outside }

/-- Whatever operations do, they keep `Q`. -/
structure Endures (Q : Pool → Prop) : Prop extends Keeps Container.Handled Q where
  created : ∀ {y : Pool} {name : String} {box : Guest.Sandbox} {module : Guest.Compiled}
    {digest : Option String}, Q y → Q (y.create none name box module digest).2
  scaled : ∀ {y y' : Pool} {id : String} {n : Nat} {result : Except Error (List String)}, Q y →
    y.scale id n = some (result, y') → Q y'
  moved : ∀ {y : Pool} (outside : Outside), Q y → Q { y with outside := outside }

variable {Q : Pool → Prop} {P : Container → Prop}

theorem EnduresFor.observed {ok : String → Prop} {y : Pool} (k : EnduresFor ok y Q) :
    Keeps Container.Observed Q := k.toKeeps.mono fun _ _ h => .observed h

/-- All names are allowed. -/
theorem EnduresFrom.enduresFor {y : Pool} (k : EnduresFrom y Q) : EnduresFor (fun _ => True) y Q where
  toKeeps := k.toKeeps
  created := fun _ => k.created
  scaled := k.scaled
  moved := k.moved

theorem Endures.enduresFrom {y : Pool} (k : Endures Q) (h : Q y) : EnduresFrom y Q where
  toKeeps := k.toKeeps
  created := k.created h
  scaled := k.scaled h
  moved := fun outside => k.moved outside h

/-- What is kept for each container by itself, and holds of each new one, holds of all. -/
theorem endures_all
    (hhandled : ∀ c d, Container.Handled c d → P c → P { d with outbox := [] })
    (hnew : ∀ id name box module digest env c,
      Container.create id name box module digest env = .ok c → P { c with outbox := [] })
    (hlike : ∀ c tries, P c → ∀ r ∈ (c.scale tries).2, P { r with outbox := [] }) :
    Endures (All P) where
  toKeeps := keeps_all hhandled
  created := fun h => h.create fun id env c hc => hnew id _ _ _ _ env c hc
  scaled := fun h hs => h.scale hs fun c hc tries r hr => hlike c tries (h _ c hc) r hr
  moved := fun _ h => h.of_same rfl

end Pool

/-- The name of the module that a run or a reload goes on with. -/
def Task.name? : Task → Option String
  | .run _ name _ _ | .fetch _ name _ => some name
  | _ => none

namespace Pool.EnduresFor

variable {ok : String → Prop} {Q : Pool → Prop} {m : Manager} {t : ConcurrentManager}

section

variable (k : EnduresFor ok m.pool Q)

include k

theorem startContainer (r : Reservation) {name : String} (hname : ok name) (c : ContainerConfig)
    (module : CachedModule) : Q (m.startContainer r name c module).2.pool :=
  Manager.kept_startContainer k.observed r (k.created hname)

theorem beginRun (hok : ∀ name, ValidName name → ok name) (h : Q m.pool) (name : String)
    (c : ContainerConfig) : Q (m.beginRun name c).2.pool := by
  unfold Manager.beginRun Manager.resolve
  split
  · exact h
  · rename_i r slots _
    split
    · exact h
    · rename_i hvalid
      have hname : ok name := hok name hvalid
      generalize m.cache.lookup (ModuleCache.key name c) = looked
      obtain ⟨_ | module, cache⟩ := looked
      · dsimp only [Manager.fetch]
        split
        · split <;> exact h
        · exact h
      · exact startContainer (m := { m with slots := slots, cache := cache }) k r hname c module

theorem endRun (h : Q m.pool) (r : Reservation) {name : String} (hname : ok name)
    (c : ContainerConfig) (bytes : Except Error Blob) :
    Q (m.endRun (.waiting r name c bytes)).2.pool := by
  simp only [Manager.endRun]
  split
  · exact h
  · rename_i module _
    exact startContainer (m := m.keep (ModuleCache.key name c) module) k r hname c module

theorem endScale (h : Q m.pool) (r : Reservation) (id : String) (n : Nat) :
    Q (m.endScale r id n).2.pool := by
  unfold Manager.endScale
  split
  · exact h
  · rename_i result y hs
    have hmade := k.withPool m (k.scaled hs)
    cases result with
    | error e => exact hmade
    | ok ids => exact Keeps.announceScaled (k.observed.register hmade r ids) id n ids

theorem endRestart (h : Q m.pool) (id : String) (snapshot : State) :
    Q (m.endRestart id snapshot).2.pool :=
  k.observed.afterRestart (k.acted h id _ fun c _ => .revived c snapshot _) id _

theorem putIn (h : Q m.pool) (id key : String) (module : CachedModule) :
    Q (m.putIn id key module).2.pool := by
  have hacted := k.acted h id (.ok ())
    (f := fun c => c.hotReload module.module (some module.digest) m.pool.surroundings)
    fun c _ => .reloaded c ..
  simp only [Manager.putIn]
  generalize m.act id (.ok ()) (fun c =>
    c.hotReload module.module (some module.digest) m.pool.surroundings) = acted at hacted ⊢
  obtain ⟨e | u, m'⟩ := acted
  · exact hacted
  · exact hacted

end

section

variable (k : EnduresFor ok t.manager.pool Q)

include k

theorem ask (hok : ∀ name, ValidName name → ok name) (h : Q t.manager.pool) (q : Request) :
    Q (t.ask q).manager.pool := by
  have hfind (t : ConcurrentManager) (h : Q t.manager.pool) (ticket : Nat) (id : String)
      (task : Container → Task) : Q (t.find ticket id task).manager.pool := by
    unfold ConcurrentManager.find
    split <;> exact h
  cases q with
  | run name config =>
    have hbegun := k.beginRun hok h name config
    simp only [ConcurrentManager.ask]
    generalize t.manager.beginRun name config = begun at hbegun ⊢
    obtain ⟨result | ⟨r, name, config, bytes⟩, m⟩ := begun
    · exact hbegun
    · exact hbegun
  | scale id n =>
    simp only [ConcurrentManager.ask, Manager.beginScale]
    cases t.manager.lookup id with
    | error e => exact h
    | ok c =>
      dsimp only
      cases t.manager.slots.reserve n with
      | error e => exact h
      | ok p => exact h
  | stop id => exact hfind { t with tickets := t.tickets + 1 } h ..
  | restart id => exact hfind { t with tickets := t.tickets + 1 } h ..
  | hotReload id => exact hfind { t with tickets := t.tickets + 1 } h ..
  | restartAll => exact h
  | cleanup => exact h

theorem proceed (h : Q t.manager.pool) (ticket : Nat) {task : Task}
    (hname : ∀ name, task.name? = some name → ok name) :
    Q (t.proceed ticket task).manager.pool := by
  cases task with
  | run r name config bytes => exact k.endRun h r (hname name rfl) config bytes
  | scale r id n =>
    rw [ConcurrentManager.proceed, ConcurrentManager.manager_scaled]
    exact k.endScale h r id n
  | stop id => exact k.acted h id () fun c _ => .stopped c
  | restart id => exact k.acted h id .empty (f := Container.beginRestart) fun c _ => .stopped c
  | rest id snapshot => exact k.endRestart h id snapshot
  | fetch id name key =>
    simp only [ConcurrentManager.proceed, Manager.fetchAndCompile, Manager.fetch]
    generalize t.manager.source.fetch name t.manager.network = fetched
    obtain ⟨e | b, network⟩ := fetched
    · exact h
    · dsimp only
      generalize ({ t.manager with network := network } : Manager).compile name b = compiled
      cases compiled with
      | error e => exact h
      | ok module => exact h
  | reload id key module => exact k.putIn h id key module
  | sweep id => exact k.acted h id () fun c _ => .stopped c
  | gather parts cleans =>
    cases cleans with
    | false => exact h
    | true => exact h

theorem move (hok : ∀ name, ValidName name → ok name)
    (hnames : ∀ e ∈ t.tasks, ∀ name, e.2.name? = some name → ok name) (h : Q t.manager.pool)
    (x : Move) : Q (t.move x).manager.pool := by
  cases x with
  | ask q => exact k.ask hok h q
  | go i =>
    simp only [ConcurrentManager.move, ConcurrentManager.go]
    split
    · exact h
    · rename_i ticket task he
      split
      · exact proceed (t := { t with tasks := t.tasks.eraseIdx i }) k h ticket
          (hnames _ (List.mem_of_getElem? he))
      · exact h
  | abandon i =>
    simp only [ConcurrentManager.move, ConcurrentManager.abandon]
    split
    · exact h
    · exact h
  | interact id x => exact k.acted h id () fun c _ => .interacted c _ x
  | observe event who => exact h
  | sleep d => exact k.observed.slept h d
  | pass d => exact k.same h rfl rfl
  | surround source network outside => exact k.moved outside

end

end Pool.EnduresFor

theorem Pool.EnduresFrom.move {Q : Pool → Prop} {t : ConcurrentManager}
    (k : EnduresFrom t.manager.pool Q)
    (h : Q t.manager.pool) (x : Move) : Q (t.move x).manager.pool :=
  k.enduresFor.move (fun _ _ => trivial) (fun _ _ _ _ => trivial) h x

namespace Pool.Endures

variable {Q : Pool → Prop} {t : ConcurrentManager}

theorem move (k : Endures Q) (h : Q t.manager.pool) (x : Move) : Q (t.move x).manager.pool :=
  (k.enduresFrom h).move h x

end Pool.Endures

/-- Containers that are there stay, whatever is done. -/
theorem Pool.endures_present (P : String → Prop) :
    Endures fun y => ∀ id, P id → (y.get? id).isSome := by
  have hput (y : Pool) (c : Container) (h : ∀ id, P id → (y.get? id).isSome) :
      ∀ id, P id → ((y.put c).get? id).isSome := by
    intro id hid
    rw [get?_put]
    split
    · rfl
    · exact h id hid
  exact
    { toKeeps := keeps_present _ P
      created := fun h => (keeps_present (fun _ _ => True) P).create h fun y _ _ c _ hy =>
        hput y c hy
      scaled := fun h hs => (keeps_present (fun _ _ => True) P).scale h hs
        fun _ _ _ r _ y hy => hput y r hy
      moved := fun _ h => h }

theorem Pool.endures_ordered : Endures (All fun c => c.state.Ordered) :=
  endures_all (fun _ _ h hc => h.ordered hc)
    (fun _ _ _ _ _ _ c hc => show c.state.Ordered from
      Container.state_create hc ▸ Table.ordered_empty)
    fun _ tries hc r hr => show r.state.Ordered from Container.state_scale hc tries r hr ▸ hc

end ContainerHost
