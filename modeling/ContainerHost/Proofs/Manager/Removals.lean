import ContainerHost.Proofs.Manager.Announcements
import ContainerHost.Proofs.Manager.Escapes
import ContainerHost.Proofs.Manager.Modules
/-!
# How containers leave the registry

A stop looks its container up when it is asked for, waits until nobody has the container, and then
removes it and says so. Between the look and the removal a container may leave by another way: by an
earlier stop, or by a cleanup. The stop that comes too late finds nothing to remove, but goes on as
if it had.

A container leaves at most once, however operations interleave, since ids that have left are never
registered again (`count_leaves_le_one`). Each stop that ends and each cleanup that takes the
container out is either the one that it leaves by, or late (`balance`). What is proved: every stop
is granted and announced, or refused without a trace, and only one is granted for each container if
and only if none is late (`removedOnce_iff_punctual`).
-/

namespace ContainerHost

/-! ## What is heard under one topic -/

def Heard.isOf (t : Topic) : Heard → Bool
  | .event _ e => e.kind == t.name
  | .delivered .. => false

namespace Manager

variable {m m' : Manager} {t : Topic} {es : List Event}

def heardOf (m : Manager) (t : Topic) : List Heard := m.heard.filter (Heard.isOf t)

def hearing (m : Manager) (e : Event) : List Heard :=
  (m.bus.listeners e.kind).map fun x => .event x.listener e

theorem heardOf_emit (m : Manager) (e : Event) (t : Topic) :
    (m.emit e).heardOf t = m.heardOf t ++ if e.kind = t.name then m.hearing e else [] := by
  unfold heardOf emit Event.Bus.take
  rw [List.filter_append]
  congr 1
  split
  · rename_i hkind
    refine List.filter_eq_self.mpr ?_
    intro x hx
    obtain ⟨l, -, rfl⟩ := List.mem_map.mp hx
    exact beq_iff_eq.mpr hkind
  · rename_i hkind
    refine List.filter_eq_nil_iff.mpr ?_
    intro x hx heq
    obtain ⟨l, -, rfl⟩ := List.mem_map.mp hx
    exact hkind (beq_iff_eq.mp heq)

theorem heardOf_emitAll (h : ∀ e ∈ es, e.kind ≠ t.name) (m : Manager) :
    (es.foldl emit m).heardOf t = m.heardOf t := by
  refine List.foldlRecOn (motive := fun m' : Manager => m'.heardOf t = m.heardOf t) es _ rfl ?_
  intro m' hm' e he
  rw [heardOf_emit, if_neg (h e he), List.append_nil, hm']

theorem heardOf_eq_filter (ht : t ∈ Topic.ofManagers) (m : Manager) :
    m.heardOf t = m.ownHeard.filter (Heard.isOf t) := by
  unfold heardOf ownHeard
  rw [List.filter_filter]
  refine List.filter_congr ?_
  intro x _
  cases x with
  | delivered tag state => rfl
  | event who e =>
    show (e.kind == t.name) = ((e.kind == t.name) && e.isOwn)
    by_cases hkind : e.kind = t.name
    · have hown : e.isOwn = true := List.any_eq_true.mpr ⟨t, ht, beq_iff_eq.mpr hkind⟩
      rw [hown, Bool.and_true]
    · rw [beq_eq_false_iff_ne.mpr hkind, Bool.false_and]

theorem Announces.heardOf (h : m.Announces es m') (ht : t ∈ Topic.ofManagers) :
    m'.heardOf t = (es.foldl emit m).heardOf t := by
  rw [heardOf_eq_filter ht, heardOf_eq_filter ht, h.heard]

theorem Announces.heardOf_other (h : m.Announces es m') (ht : t ∈ Topic.ofManagers)
    (hes : ∀ e ∈ es, e.kind ≠ t.name) : m'.heardOf t = m.heardOf t :=
  (h.heardOf ht).trans (heardOf_emitAll hes m)

theorem Level.heardOf (h : m.Level m') (ht : t ∈ Topic.ofManagers) : m'.heardOf t = m.heardOf t :=
  h.announces.heardOf_other ht (by simp)

end Manager

/-! ## What happens in a run -/

namespace ConcurrentManager

variable {t : ConcurrentManager} {id : String} {x : Move}

def goesOn (t : ConcurrentManager) : Move → Option (Nat × Task)
  | .go i => t.tasks[i]?.filter fun e => t.ready e.2
  | _ => none

def grants (id : String) (t : ConcurrentManager) (x : Move) : Bool :=
  match t.goesOn x with
  | some (_, .stop id') => id' == id
  | _ => false

/-- A cleanup takes the container out of the registry. -/
def clears (id : String) (t : ConcurrentManager) : Move → Bool
  | .ask .cleanup => t.manager.slots.holds id
  | _ => false

/-- The container leaves the registry. -/
def leaves (id : String) (t : ConcurrentManager) (x : Move) : Bool :=
  t.manager.slots.holds id && !(t.move x).manager.slots.holds id

/-- A stop of the container ends when the container has left already. -/
def late (id : String) (t : ConcurrentManager) (x : Move) : Bool :=
  grants id t x && !t.manager.slots.holds id

/-- How often something is so in the course of a run. -/
def count (p : ConcurrentManager → Move → Bool) : ConcurrentManager → List Move → Nat
  | _, [] => 0
  | t, x :: xs => (p t x).toNat + count p (t.move x) xs

theorem go_of_goesOn {i ticket : Nat} {task : Task} (h : t.goesOn (.go i) = some (ticket, task)) :
    t.tasks[i]? = some (ticket, task) ∧ t.ready task = true ∧
      t.go i = { t with tasks := t.tasks.eraseIdx i }.proceed ticket task := by
  obtain ⟨he, hready⟩ := Option.filter_eq_some_iff.mp h
  refine ⟨he, hready, ?_⟩
  unfold go
  rw [he]
  exact if_pos hready

theorem go_of_goesOn_none {i : Nat} (h : t.goesOn (.go i) = none) : t.go i = t := by
  unfold go
  split
  · rfl
  · rename_i ticket task he
    have hready : t.ready task = false := by
      cases hready : t.ready task with
      | false => rfl
      | true =>
        have hsome : t.goesOn (.go i) = some (ticket, task) :=
          Option.filter_eq_some_iff.mpr ⟨he, hready⟩
        rw [h] at hsome
        cases hsome
    rw [if_neg (by rw [hready]; decide)]

/-! ## The registry -/

/-- The container stays registered, and is not newly registered if it was there before. -/
structure Steady (m : Manager) (id : String) (s : Slots) : Prop where
  stays : m.slots.holds id = true → s.holds id = true
  known : s.holds id = true → (m.pool.get? id).isSome → m.slots.holds id = true

variable {m m' : Manager} {s : Slots} {st : String → Option Status} {r : Reservation}

theorem steady_of_same (h : s.holds id = m.slots.holds id) : Steady m id s :=
  ⟨fun hin => h.trans hin, fun hin _ => h.symm.trans hin⟩

theorem steady_of_slots (h : s = m.slots) : Steady m id s := steady_of_same (by rw [h])

/-- New containers get ids that were not there. -/
theorem steady_commit (h : m.Shows m.slots st) {ids : List String} (hfresh : ∀ x ∈ ids, st x = none)
    (hs : s.holds id = m.slots.holds id) : Steady m id (s.commit r ids).2 := by
  refine ⟨fun hin => Slots.holds_commit.mpr (.inl (hs.trans hin)), ?_⟩
  intro hin hpresent
  rcases Slots.holds_commit.mp hin with hin | hmem
  · exact hs.symm.trans hin
  · have hnone := hfresh id hmem
    rw [← h.pool.status id, Pool.statusOf, Option.map_eq_none_iff] at hnone
    rw [hnone] at hpresent
    cases hpresent

theorem steady_ran (h : m.Shows m.slots st) (hs : s.holds id = m.slots.holds id)
    {result : Except Failure String} (hran : Manager.Ran s st r (result, m')) :
    Steady m id m'.slots := by
  cases result with
  | error e =>
    rw [hran.slots]
    exact steady_of_same ((Slots.holds_drop s r id).trans hs)
  | ok made =>
    obtain ⟨hfresh, hm⟩ := hran
    rw [hm.slots]
    refine steady_commit h ?_ hs
    intro x hx
    rw [List.mem_singleton.mp hx]
    exact hfresh

theorem steady_scaled (h : m.Shows m.slots st) {n : Nat} {ids : List String}
    (hfresh : ∀ x ∈ ids, st x = none) {result : Except Failure (List String)}
    (hscaled : Manager.Scaled m.slots st r n ids (result, m')) : Steady m id m'.slots := by
  cases result with
  | error e =>
    rw [hscaled.slots]
    exact steady_of_same (Slots.holds_drop m.slots r id)
  | ok made =>
    obtain ⟨-, -, hm⟩ := hscaled
    rw [hm.slots]
    exact steady_commit h hfresh rfl

theorem steady_ask (h : t.manager.Shows t.manager.slots st) (id : String) {q : Request}
    (hq : q ≠ .cleanup) : Steady t.manager id (t.ask q).manager.slots := by
  have hfind (t : ConcurrentManager) (ticket : Nat) (x : String) (task : Container → Task) :
      Steady t.manager id (t.find ticket x task).manager.slots := by
    unfold ConcurrentManager.find
    split <;> exact steady_of_same rfl
  cases q with
  | run name config =>
    simp only [ask]
    rcases h.beginRun name config with ⟨e, -, hb⟩ | ⟨r, held, hreserve, hb⟩
    · rw [hb]
      exact steady_of_same rfl
    · have hheld := Slots.holds_reserve (x := id) hreserve
      generalize t.manager.beginRun name config = begun at hb ⊢
      obtain ⟨result | ⟨r', name', config', bytes⟩, m⟩ := begun
      · exact steady_ran h hheld hb
      · obtain ⟨rfl, hm⟩ := hb
        refine steady_of_same ?_
        rw [← hheld, ← hm.slots]
        rfl
  | scale x n =>
    have hb := h.beginScale x n
    simp only [ask]
    generalize t.manager.beginScale x n = begun at hb ⊢
    obtain ⟨e | r, m⟩ := begun
    · exact steady_of_slots hb.slots
    · obtain ⟨-, held, hreserve, hm⟩ := hb
      refine steady_of_same ?_
      rw [← Slots.holds_reserve (x := id) hreserve, ← hm.slots]
      rfl
  | stop x => exact hfind { t with tickets := t.tickets + 1 } ..
  | restart x => exact hfind { t with tickets := t.tickets + 1 } ..
  | hotReload x => exact hfind { t with tickets := t.tickets + 1 } ..
  | restartAll => exact steady_of_same rfl
  | cleanup => exact absurd rfl hq

theorem slots_fetchAndCompile (m : Manager) (name : String) :
    (m.fetchAndCompile name).2.slots = m.slots := by
  simp only [Manager.fetchAndCompile, Manager.fetch]
  split <;> rfl

theorem slots_putIn (m : Manager) (id key : String) (module : CachedModule) :
    (m.putIn id key module).2.slots = m.slots := by
  have hacted := m.slots_act id (.ok ()) fun c =>
    c.hotReload module.module (some module.digest) m.pool.surroundings
  simp only [Manager.putIn]
  generalize m.act id (.ok ()) (fun c =>
    c.hotReload module.module (some module.digest) m.pool.surroundings) = acted at hacted ⊢
  obtain ⟨e | u, m'⟩ := acted
  · exact hacted
  · exact hacted

theorem steady_proceed (h : t.manager.Shows t.manager.slots st) (id : String) (ticket : Nat)
    {task : Task} (htask : task ≠ .stop id) :
    Steady t.manager id (t.proceed ticket task).manager.slots := by
  cases task with
  | run r name config bytes => exact steady_ran h rfl (h.endRun r name config bytes)
  | scale r x n =>
    obtain ⟨ids, hfresh, hend⟩ := h.endScale r x n
    rw [proceed, manager_scaled]
    exact steady_scaled h hfresh hend
  | stop x =>
    have hne : id ≠ x := fun heq => htask (heq ▸ rfl)
    have hslots : (t.manager.remove x).slots = t.manager.slots.remove x :=
      congrArg (Slots.remove · x) (t.manager.slots_act x () fun c => ((), c.stop))
    refine steady_of_same ?_
    show (t.manager.remove x).slots.holds id = t.manager.slots.holds id
    rw [hslots, Bool.eq_iff_iff, Slots.holds_remove]
    exact and_iff_right hne
  | restart x =>
    exact steady_of_slots (t.manager.slots_act x Table.empty Container.beginRestart)
  | rest x snapshot =>
    have hslots : (t.manager.endRestart x snapshot).2.slots = t.manager.slots :=
      (Manager.slots_afterRestart ..).trans (t.manager.slots_act ..)
    exact steady_of_slots hslots
  | fetch x name key =>
    have hfetched := slots_fetchAndCompile t.manager name
    simp only [proceed]
    generalize t.manager.fetchAndCompile name = fetched at hfetched ⊢
    obtain ⟨e | module, m⟩ := fetched
    · exact steady_of_slots hfetched
    · exact steady_of_slots hfetched
  | reload x key module =>
    exact steady_of_slots (slots_putIn t.manager x key module)
  | sweep x =>
    exact steady_of_slots (t.manager.slots_act x () fun c => ((), c.stop))
  | gather parts cleans =>
    cases cleans with
    | false => exact steady_of_same rfl
    | true => exact steady_of_same rfl

theorem grants_iff : grants id t x = true ↔ ∃ ticket, t.goesOn x = some (ticket, .stop id) := by
  unfold grants
  split
  · rename_i ticket id' hgoes
    rw [beq_iff_eq]
    constructor
    · rintro rfl
      exact ⟨ticket, hgoes⟩
    · rintro ⟨ticket', hgoes'⟩
      rw [hgoes] at hgoes'
      cases hgoes'
      rfl
  · rename_i hother
    constructor
    · intro h
      cases h
    · rintro ⟨ticket, hgoes⟩
      exact absurd hgoes (hother ticket id)

/-- Nobody else takes a container out of the registry than a stop of it and a cleanup. -/
theorem steady_move (h : t.Sane) (hstop : grants id t x = false) (hclean : x ≠ .ask .cleanup) :
    Steady t.manager id (t.move x).manager.slots := by
  obtain ⟨slots, st, hagrees⟩ := h
  have hshows : t.manager.Shows t.manager.slots st := ⟨rfl, hagrees.shows.pool⟩
  cases x with
  | ask q => exact steady_ask hshows id fun heq => hclean (heq ▸ rfl)
  | go i =>
    cases hgoes : t.goesOn (.go i) with
    | none =>
      rw [move, go_of_goesOn_none hgoes]
      exact steady_of_same rfl
    | some e =>
      obtain ⟨ticket, task⟩ := e
      rw [move, (go_of_goesOn hgoes).2.2]
      refine steady_proceed (t := { t with tasks := t.tasks.eraseIdx i }) hshows id ticket ?_
      rintro rfl
      have hgrants := grants_iff.mpr ⟨ticket, hgoes⟩
      rw [hstop] at hgrants
      cases hgrants
  | abandon i =>
    simp only [move, abandon]
    split
    · exact steady_of_same rfl
    · exact steady_of_same (Slots.holds_drop ..)
  | interact y z =>
    exact steady_of_slots (t.manager.slots_act y () fun c =>
      ((), c.interact t.manager.pool.clock.wall z))
  | observe event who => exact steady_of_same rfl
  | sleep d => exact steady_of_slots (t.manager.slots_sleep d)
  | pass d => exact steady_of_same rfl
  | surround source network outside => exact steady_of_same rfl

/-- A stop of the container and a cleanup leave it unregistered. -/
theorem holds_move_of_removal (h : grants id t x = true ∨ x = .ask .cleanup) :
    (t.move x).manager.slots.holds id = false := by
  rcases h with h | rfl
  · obtain ⟨ticket, hgoes⟩ := grants_iff.mp h
    cases x with
    | go i =>
      have hslots : (t.manager.remove id).slots = t.manager.slots.remove id :=
        congrArg (Slots.remove · id) (t.manager.slots_act id () fun c => ((), c.stop))
      rw [move, (go_of_goesOn hgoes).2.2]
      show (t.manager.remove id).slots.holds id = false
      rw [hslots, ← Bool.not_eq_true, Slots.holds_remove]
      exact fun hin => hin.1 rfl
    | _ => cases hgoes
  · rfl

/-- Each stop that ends and each cleanup that takes the container out is the one that it leaves by,
or a stop that is late. -/
theorem balance (h : t.Sane) (id : String) (x : Move) :
    (grants id t x).toNat + (clears id t x).toNat =
      (leaves id t x).toNat + (late id t x).toNat := by
  cases hgrants : grants id t x with
  | true =>
    -- a stop ends, which is no cleanup
    have hclears : clears id t x = false := by
      cases x with
      | go i => rfl
      | _ => cases hgrants
    rw [hclears, leaves, late, hgrants, holds_move_of_removal (.inl hgrants)]
    cases t.manager.slots.holds id <;> rfl
  | false =>
    by_cases hclean : x = .ask .cleanup
    · subst hclean
      rw [leaves, late, hgrants, holds_move_of_removal (.inr rfl), clears]
      cases t.manager.slots.holds id <;> rfl
    · have hsteady := steady_move h hgrants hclean
      have hclears : clears id t x = false := by
        unfold clears
        split
        · exact absurd rfl hclean
        · rfl
      have hleaves : leaves id t x = false := by
        unfold leaves
        cases hin : t.manager.slots.holds id with
        | false => rfl
        | true => rw [hsteady.stays hin]; rfl
      rw [hclears, hleaves, late, hgrants]
      rfl

/-! ## Whole runs -/

theorem present_of_holds (h : t.Sane) (hin : t.manager.slots.holds id = true) :
    (t.manager.pool.get? id).isSome := by
  obtain ⟨slots, st, hagrees⟩ := h
  have hpresent := (hagrees.filed.registered id (hagrees.shows.slots ▸ hin)).1
  rwa [← hagrees.shows.pool.status, Pool.statusOf, Option.isSome_map] at hpresent

theorem present_move (h : (t.manager.pool.get? id).isSome) (x : Move) :
    ((t.move x).manager.pool.get? id).isSome :=
  (Pool.endures_present (· = id)).move (t := t) (fun _ hx => hx ▸ h) x id rfl

/-- A container that is there but not registered is not registered again. -/
theorem gone_move (h : t.Sane) (hpresent : (t.manager.pool.get? id).isSome)
    (hout : t.manager.slots.holds id = false) (x : Move) :
    (t.move x).manager.slots.holds id = false := by
  cases hgrants : grants id t x with
  | true => exact holds_move_of_removal (.inl hgrants)
  | false =>
    by_cases hclean : x = .ask .cleanup
    · exact holds_move_of_removal (.inr hclean)
    · have hsteady := steady_move h hgrants hclean
      cases hin : (t.move x).manager.slots.holds id with
      | false => rfl
      | true => exact hout.symm.trans (hsteady.known hin hpresent) |>.symm

theorem count_mono {p q : ConcurrentManager → Move → Bool} (hpq : ∀ t x, p t x = true → q t x = true)
    (t : ConcurrentManager) (xs : List Move) : count p t xs ≤ count q t xs := by
  induction xs generalizing t with
  | nil => exact Nat.le_refl 0
  | cons x xs ih => exact Nat.add_le_add (Bool.toNat_le_toNat (hpq t x)) (ih _)

theorem count_balance (h : t.Sane) (id : String) (xs : List Move) :
    count (grants id) t xs + count (clears id) t xs =
      count (leaves id) t xs + count (late id) t xs := by
  induction xs generalizing t with
  | nil => rfl
  | cons x xs ih =>
    have hone := balance h id x
    have hrest := ih (sane_move h x)
    simp only [count]
    omega

theorem count_leaves_eq_zero (h : t.Sane) (hpresent : (t.manager.pool.get? id).isSome)
    (hout : t.manager.slots.holds id = false) (xs : List Move) :
    count (leaves id) t xs = 0 := by
  induction xs generalizing t with
  | nil => rfl
  | cons x xs ih =>
    have hfirst : leaves id t x = false := by
      rw [leaves, hout]
      rfl
    rw [count, hfirst, ih (sane_move h x) (present_move hpresent x) (gone_move h hpresent hout x)]
    rfl

/-- A container leaves the registry at most once. -/
theorem count_leaves_le_one (h : t.Sane) (id : String) (xs : List Move) :
    count (leaves id) t xs ≤ 1 := by
  induction xs generalizing t with
  | nil => exact Nat.zero_le 1
  | cons x xs ih =>
    rw [count]
    cases hleaves : leaves id t x with
    | false =>
      rw [Bool.toNat_false, Nat.zero_add]
      exact ih (sane_move h x)
    | true =>
      obtain ⟨hin, hout⟩ := Bool.and_eq_true_iff.mp hleaves
      rw [count_leaves_eq_zero (sane_move h x) (present_move (present_of_holds h hin) x)
        (Bool.not_eq_true' _ ▸ hout)]
      exact Nat.le_refl 1

/-- A stop of the container waits, and the container has left. -/
def Overtaken (t : ConcurrentManager) (id : String) : Prop :=
  (∃ ticket, (ticket, .stop id) ∈ t.tasks) ∧ t.manager.slots.holds id = false

theorem overtaken_of_late (h : late id t x = true) : t.Overtaken id := by
  obtain ⟨hgrants, hout⟩ := Bool.and_eq_true_iff.mp h
  obtain ⟨ticket, hgoes⟩ := grants_iff.mp hgrants
  refine ⟨⟨ticket, ?_⟩, Bool.not_eq_true' _ ▸ hout⟩
  cases x with
  | go i => exact List.mem_of_getElem? (go_of_goesOn hgoes).1
  | _ => cases hgoes

theorem stop_mem_of_append {ticket : Nat} {tasks : List (Nat × Task)} {new : Nat × Task}
    (h : (ticket, .stop id) ∈ tasks ++ [new]) (hnew : new.2 ≠ .stop id) :
    (ticket, .stop id) ∈ tasks := by
  rcases List.mem_append.mp h with h | h
  · exact h
  · rw [← List.mem_singleton.mp h] at hnew
    exact absurd rfl hnew

theorem stop_mem_of_scatter {ticket k : Nat} {ids : List String} {part : String → Task}
    {cleans : Bool} (hpart : ∀ y, part y ≠ .stop id)
    (h : (ticket, .stop id) ∈ (t.scatter k ids part cleans).tasks) : (ticket, .stop id) ∈ t.tasks := by
  rw [Agrees.tasks_scatter] at h
  rcases List.mem_append.mp h with h | h
  · exact h
  · rcases Agrees.of_mem_scattered h with ⟨y, -, heq⟩ | ⟨parts, heq⟩
    · exact absurd heq.symm (hpart y)
    · cases heq

/-- A stop of a container that is not registered is not begun. -/
theorem stop_mem_ask {ticket : Nat} {q : Request}
    (h : (ticket, .stop id) ∈ (t.ask q).tasks) :
    (ticket, .stop id) ∈ t.tasks ∨
      (t.manager.slots.holds id = true ∧ (t.ask q).manager = t.manager) := by
  cases q with
  | run name config =>
    simp only [ask] at h
    generalize t.manager.beginRun name config = begun at h
    obtain ⟨result | ⟨r, name, config, bytes⟩, m⟩ := begun
    · exact .inl h
    · exact .inl (stop_mem_of_append h (by simp))
  | scale y n =>
    simp only [ask] at h
    generalize t.manager.beginScale y n = begun at h
    obtain ⟨e | r, m⟩ := begun
    · exact .inl h
    · exact .inl (stop_mem_of_append h (by simp))
  | stop y =>
    simp only [ask, find] at h ⊢
    cases hlookup : t.manager.lookup y with
    | error e =>
      rw [hlookup] at h
      exact .inl h
    | ok c =>
      rw [hlookup] at h
      by_cases hy : y = id
      · subst hy
        exact .inr ⟨(Manager.holds_of_get? (Manager.get?_of_lookup hlookup)).1, rfl⟩
      · exact .inl (stop_mem_of_append h fun heq => hy (Task.stop.inj heq))
  | restart y =>
    simp only [ask, find] at h
    split at h
    · exact .inl h
    · exact .inl (stop_mem_of_append h (by simp))
  | hotReload y =>
    simp only [ask, find] at h
    split at h
    · exact .inl h
    · exact .inl (stop_mem_of_append h (by simp))
  | restartAll =>
    have hpart (y : String) : Task.restart y ≠ .stop id := by simp
    exact .inl (stop_mem_of_scatter (t := { t with tickets := t.tickets + 1 }) hpart h)
  | cleanup =>
    have hpart (y : String) : Task.sweep y ≠ .stop id := by simp
    exact .inl (stop_mem_of_scatter (t := { t with
      tickets := t.tickets + 1
      manager := { t.manager with slots := t.manager.slots.drain.2 } }) hpart h)

theorem stop_mem_proceed {ticket k : Nat} {task : Task}
    (h : (ticket, .stop id) ∈ (t.proceed k task).tasks) : (ticket, .stop id) ∈ t.tasks := by
  cases task with
  | scale r y n =>
    rw [proceed, tasks_scaled] at h
    exact h
  | restart y => exact stop_mem_of_append h (by simp)
  | fetch y name key =>
    simp only [proceed] at h
    generalize t.manager.fetchAndCompile name = fetched at h
    obtain ⟨e | module, m⟩ := fetched
    · exact h
    · exact stop_mem_of_append h (by simp)
  | _ => exact h

theorem stop_mem_move {ticket : Nat} (h : (ticket, .stop id) ∈ (t.move x).tasks) :
    (ticket, .stop id) ∈ t.tasks ∨
      (t.manager.slots.holds id = true ∧ (t.move x).manager = t.manager) := by
  cases x with
  | ask q => exact stop_mem_ask h
  | go i =>
    cases hgoes : t.goesOn (.go i) with
    | none =>
      rw [move, go_of_goesOn_none hgoes] at h
      exact .inl h
    | some e =>
      rw [move, (go_of_goesOn hgoes).2.2] at h
      exact .inl (List.mem_of_mem_eraseIdx (stop_mem_proceed h))
  | abandon i =>
    simp only [move, abandon] at h
    split at h
    · exact .inl h
    · exact .inl (List.mem_of_mem_eraseIdx h)
  | _ => exact .inl h

theorem not_overtaken_move (h : ¬ t.Overtaken id) (hleaves : leaves id t x = false) :
    ¬ (t.move x).Overtaken id := by
  rintro ⟨⟨ticket, hmem⟩, hout⟩
  have hin : t.manager.slots.holds id = true := by
    rcases stop_mem_move hmem with hold | ⟨hin, -⟩
    · cases hin : t.manager.slots.holds id with
      | true => rfl
      | false => exact absurd ⟨⟨ticket, hold⟩, hin⟩ h
    · exact hin
  rw [leaves, hin, hout] at hleaves
  cases hleaves

/-- No stop is late for a container that does not leave. -/
theorem count_late_eq_zero (h : ¬ t.Overtaken id) {xs : List Move}
    (hleaves : count (leaves id) t xs = 0) : count (late id) t xs = 0 := by
  induction xs generalizing t with
  | nil => rfl
  | cons x xs ih =>
    simp only [count, Nat.add_eq_zero_iff, Bool.toNat_eq_zero] at hleaves ⊢
    refine ⟨?_, ih (not_overtaken_move h hleaves.1) hleaves.2⟩
    cases hlate : late id t x with
    | false => rfl
    | true => exact absurd (overtaken_of_late hlate) h

/-! ## What stops are told, and what is heard of them -/

theorem isOwn_containerRemoved : Topic.containerRemoved ∈ Topic.ofManagers := by decide

/-- Nothing that a manager announces but the removal of a container is under its topic. -/
theorem kind_ne_containerRemoved {t : Topic} (ht : t ≠ .containerRemoved) (id : String)
    (more : List (String × Json.Value)) :
    (Manager.eventFor t id more).kind ≠ Topic.containerRemoved.name :=
  fun heq => ht (Topic.name_injective heq)

theorem heardOf_proceed (h : t.manager.Quiet) (ticket : Nat) {task : Task}
    (htask : ∀ id, task ≠ .stop id) :
    (t.proceed ticket task).manager.heardOf .containerRemoved =
      t.manager.heardOf .containerRemoved := by
  have hlevel {m : Manager} (hm : t.manager.Level m) :
      m.heardOf .containerRemoved = t.manager.heardOf .containerRemoved :=
    hm.heardOf isOwn_containerRemoved
  cases task with
  | run r name config bytes => exact hlevel (h.level_endRun (.waiting r name config bytes))
  | scale r y n =>
    -- scalings, restarts and reloads are announced under topics of their own
    rw [proceed, manager_scaled]
    refine (h.announces_endScale r y n).heardOf_other isOwn_containerRemoved ?_
    intro e he
    split at he
    · rcases List.mem_append.mp he with he | he
      · obtain ⟨z, -, rfl⟩ := List.mem_map.mp he
        exact kind_ne_containerRemoved (by decide) _ _
      · rw [List.mem_singleton.mp he]
        exact kind_ne_containerRemoved (by decide) _ _
    · cases he
  | stop y => exact absurd rfl (htask y)
  | restart y =>
    have hbegun : t.manager.Level (t.manager.beginRestart y).2 :=
      h.level_act y Table.empty fun c => .stopped c
    exact hlevel hbegun
  | rest y snapshot =>
    refine (h.announces_endRestart y snapshot).heardOf_other isOwn_containerRemoved ?_
    intro e he
    split at he
    · rw [List.mem_singleton.mp he]
      exact kind_ne_containerRemoved (by decide) _ _
    · cases he
  | fetch y name key =>
    have hfetched : t.manager.Level (t.manager.fetchAndCompile name).2 := by
      simp only [Manager.fetchAndCompile, Manager.fetch]
      split <;> exact Manager.level_of_same rfl rfl
    simp only [proceed]
    generalize t.manager.fetchAndCompile name = fetched at hfetched ⊢
    obtain ⟨e | module, m⟩ := fetched
    · exact hlevel hfetched
    · exact hlevel hfetched
  | reload y key module =>
    refine (h.announces_putIn y key module).heardOf_other isOwn_containerRemoved ?_
    intro e he
    split at he
    · rw [List.mem_singleton.mp he]
      exact kind_ne_containerRemoved (by decide) _ _
    · cases he
  | sweep y => exact hlevel (h.level_act y () fun c => .stopped c)
  | gather parts cleans =>
    have hother {s : Topic} (hs : s ≠ .containerRemoved) : s.name ≠ Topic.containerRemoved.name :=
      fun heq => hs (Topic.name_injective heq)
    cases cleans with
    | false =>
      refine (Manager.heardOf_emit ..).trans ?_
      rw [if_neg (hother (by decide)), List.append_nil]
    | true =>
      refine (Manager.heardOf_emit { t.manager with cache := t.manager.cache.clear } _ _).trans ?_
      rw [if_neg (hother (by decide)), List.append_nil]
      rfl

theorem level_ask (h : t.manager.Quiet) (q : Request) : t.manager.Level (t.ask q).manager := by
  have hfind (t : ConcurrentManager) (ticket : Nat) (y : String) (task : Container → Task) :
      t.manager.Level (t.find ticket y task).manager := by
    unfold ConcurrentManager.find
    split <;> exact Manager.Level.refl _
  cases q with
  | run name config =>
    have hbegun := h.level_beginRun name config
    simp only [ask]
    generalize t.manager.beginRun name config = begun at hbegun ⊢
    obtain ⟨result | ⟨r, name, config, bytes⟩, m⟩ := begun
    · exact hbegun
    · exact hbegun
  | scale y n =>
    have hbegun := t.manager.level_beginScale y n
    simp only [ask]
    generalize t.manager.beginScale y n = begun at hbegun ⊢
    obtain ⟨e | r, m⟩ := begun
    · exact hbegun
    · exact hbegun
  | stop y => exact hfind { t with tickets := t.tickets + 1 } ..
  | restart y => exact hfind { t with tickets := t.tickets + 1 } ..
  | hotReload y => exact hfind { t with tickets := t.tickets + 1 } ..
  | restartAll => exact Manager.level_of_same rfl rfl
  | cleanup => exact Manager.level_of_same rfl rfl

/-- Only a stop that ends is heard under the topic of removals, and it is heard once. -/
theorem heardOf_move (h : t.manager.Quiet) (x : Move) :
    (t.move x).manager.heardOf .containerRemoved = t.manager.heardOf .containerRemoved ++
      match t.goesOn x with
      | some (_, .stop id) => t.manager.hearing (Manager.eventFor .containerRemoved id [])
      | _ => [] := by
  have hlevel {m : Manager} (hm : t.manager.Level m) :
      m.heardOf .containerRemoved = t.manager.heardOf .containerRemoved ++ [] := by
    rw [List.append_nil]
    exact hm.heardOf isOwn_containerRemoved
  cases x with
  | ask q => exact hlevel (level_ask h q)
  | go i =>
    cases hgoes : t.goesOn (.go i) with
    | none =>
      rw [move, go_of_goesOn_none hgoes]
      exact (List.append_nil _).symm
    | some e =>
      obtain ⟨ticket, task⟩ := e
      rw [move, (go_of_goesOn hgoes).2.2]
      by_cases hstop : ∃ id, task = .stop id
      · obtain ⟨id, rfl⟩ := hstop
        -- what is announced of it is the removal alone
        have hremoved := (h.announces_remove id).heardOf isOwn_containerRemoved
        refine hremoved.trans ?_
        have hkind : (Manager.eventFor .containerRemoved id []).kind =
          Topic.containerRemoved.name := rfl
        rw [List.foldl_cons, List.foldl_nil, Manager.heardOf_emit, if_pos hkind]
      · have hother (id : String) : task ≠ .stop id := fun heq => hstop ⟨id, heq⟩
        refine (heardOf_proceed (t := { t with tasks := t.tasks.eraseIdx i }) h ticket
          hother).trans ?_
        cases task with
        | stop id => exact absurd rfl (hother id)
        | _ => exact (List.append_nil _).symm
  | abandon i =>
    refine hlevel ?_
    simp only [move, abandon]
    split
    · exact Manager.Level.refl _
    · exact Manager.level_of_same rfl rfl
  | interact y z => exact hlevel (h.level_act y () fun c => .interacted c _ z)
  | observe event who =>
    -- whoever begins to listen has heard nothing yet
    exact (List.append_nil _).symm
  | sleep d => exact hlevel (h.level_sleep d)
  | pass d => exact hlevel (Manager.level_of_same rfl rfl)
  | surround source network outside => exact hlevel (Manager.level_of_same rfl rfl)

/-- How stops go: one of a container that is not registered is refused without an effect, one of a
container that is registered waits without an effect, one that ends is granted; and of removals
nothing is heard but, once, that of a stop that ends. -/
structure StopsWell (t : ConcurrentManager) (x : Move) : Prop where
  refused : ∀ id, x = .ask (.stop id) → t.manager.slots.holds id = false →
    t.move x = { t with
      tickets := t.tickets + 1
      answers := t.answers ++ [(t.tickets, .done (.error (.containerNotFound id)))] }
  admitted : ∀ id, x = .ask (.stop id) → t.manager.slots.holds id = true →
    t.move x = { t with tickets := t.tickets + 1, tasks := t.tasks ++ [(t.tickets, .stop id)] }
  granted : ∀ ticket id, t.goesOn x = some (ticket, .stop id) →
    (t.move x).answers = t.answers ++ [(ticket, .done (.ok ()))]
  heard : (t.move x).manager.heardOf .containerRemoved = t.manager.heardOf .containerRemoved ++
    match t.goesOn x with
    | some (_, .stop id) => t.manager.hearing (Manager.eventFor .containerRemoved id [])
    | _ => []

theorem stopsWell (h : t.manager.Settled) (x : Move) : t.StopsWell x where
  refused := by
    rintro id rfl hout
    have hlookup : t.manager.lookup id = .error (.containerNotFound id) := by
      unfold Manager.lookup Manager.get?
      rw [hout]
      rfl
    simp only [move, ask, find, hlookup]
    rfl
  admitted := by
    rintro id rfl hin
    obtain ⟨c, hc⟩ := Option.isSome_iff_exists.mp (h.registered id hin)
    have hlookup := Manager.lookup_of_get? (Manager.get?_of_holds hin hc)
    simp only [move, ask, find, hlookup]
    rfl
  granted := by
    intro ticket id hgoes
    cases x with
    | go i =>
      rw [move, (go_of_goesOn hgoes).2.2]
      rfl
    | _ => cases hgoes
  heard := heardOf_move h.quiet x

/-- One stop of the container is granted at most, and none if a cleanup took it out. -/
def RemovedOnce (id : String) (t : ConcurrentManager) (moves : List Move) : Prop :=
  count (grants id) t moves ≤ 1 ∧
    (0 < count (clears id) t moves → count (grants id) t moves = 0)

/-- In every course of operations on a manager each container leaves the registry at most once, and
each stop is refused without an effect or granted and announced. But a stop that has waited is
granted whether its container is still registered or not: one stop at most is granted for each
container, and none besides a cleanup, if and only if none ends after the container has left. -/
theorem removedOnce_iff_punctual {config : ManagerConfig} {host : Guest.Host} {source : Source}
    {deployer : Deployer} {network : Http.Network} {outside : Outside} {m : Manager}
    (hm : Manager.opened config host source deployer network outside = .ok m) (moves : List Move)
    (id : String) :
    count (leaves id) (opened m) moves ≤ 1 ∧
    count (grants id) (opened m) moves + count (clears id) (opened m) moves =
      count (leaves id) (opened m) moves + count (late id) (opened m) moves ∧
    (RemovedOnce id (opened m) moves ↔ count (late id) (opened m) moves = 0) ∧
    ∀ before x after, moves = before ++ x :: after → ((opened m).run before).StopsWell x := by
  have hshows := shows_of_opened hm
  have hsane : (opened m).Sane := by
    obtain ⟨slots, st, hagrees⟩ := sane_of_opened rfl hshows []
    exact ⟨slots, st, hagrees⟩
  have hbalance := count_balance hsane id moves
  have hleaves := count_leaves_le_one hsane id moves
  have hnone : ¬ (opened m).Overtaken id := by
    rintro ⟨⟨ticket, hmem⟩, -⟩
    cases hmem
  refine ⟨hleaves, hbalance, ⟨?_, ?_⟩, ?_⟩
  · rintro ⟨hgrants, hclears⟩
    by_contra hlate
    -- whoever is late comes after the one by which the container has left
    have hleft : count (leaves id) (opened m) moves ≠ 0 :=
      fun hzero => hlate (count_late_eq_zero hnone hzero)
    have hgranted : count (late id) (opened m) moves ≤ count (grants id) (opened m) moves :=
      count_mono (fun _ _ h => (Bool.and_eq_true_iff.mp h).1) _ moves
    rcases Nat.eq_zero_or_pos (count (clears id) (opened m) moves) with hzero | hpositive
    · omega
    · have hungranted := hclears hpositive
      omega
  · intro hlate
    exact ⟨by omega, fun hpositive => by omega⟩
  · rintro before x after -
    have hreached : ((opened m).run before).Reached config :=
      ⟨host, source, deployer, network, outside, m, before, hm, rfl⟩
    exact stopsWell hreached.settled x

/-- A container is stopped, and stopped again when it has left. -/
def repeated : List Move :=
  [.ask (.run "a" .standard), .go 0, .ask (.stop firstId), .go 0, .ask (.stop firstId)]

/-- The second stop is refused. -/
theorem removedOnce_repeated :
    Manager.opened narrow solo.host solo.source solo.deployer .silent (.ofDirs []) = .ok solo ∧
    RemovedOnce firstId (opened solo) repeated := by
  obtain ⟨-, -, hiff, -⟩ := removedOnce_iff_punctual opened_solo repeated firstId
  exact ⟨opened_solo, hiff.mpr (by decide +kernel)⟩

/-- While a restart rests, the container is stopped twice. Someone listens for removals. -/
def doubled : List Move :=
  [.ask (.run "a" .standard), .go 0, .observe "manager:container_removed" .recorder,
    .ask (.restart firstId), .go 0, .ask (.stop firstId), .ask (.stop firstId),
    .sleep Limits.restartGrace, .go 0, .go 0, .go 0]

/-- Both stops are granted, and the removal is announced twice. -/
theorem not_removedOnce_doubled :
    Manager.opened narrow solo.host solo.source solo.deployer .silent (.ofDirs []) = .ok solo ∧
    count (grants firstId) (opened solo) doubled = 2 ∧
    count (leaves firstId) (opened solo) doubled = 1 ∧
    (((opened solo).run doubled).manager.heardOf .containerRemoved).length = 2 ∧
    ¬ RemovedOnce firstId (opened solo) doubled := by
  have hcounts : count (grants firstId) (opened solo) doubled = 2 ∧
      count (leaves firstId) (opened solo) doubled = 1 ∧
      (((opened solo).run doubled).manager.heardOf .containerRemoved).length = 2 := by
    decide +kernel
  obtain ⟨hgrants, hleaves, hheard⟩ := hcounts
  refine ⟨opened_solo, hgrants, hleaves, hheard, ?_⟩
  rintro ⟨hle, -⟩
  omega

end ConcurrentManager
end ContainerHost
