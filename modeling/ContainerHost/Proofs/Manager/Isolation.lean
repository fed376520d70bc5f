import ContainerHost.Proofs.Manager.RestartAll
import ContainerHost.Proofs.Manager.Scaling
/-!
# Restarts at the same time

When all containers of a manager are restarted, and no other operation is under way, what there is
of each restart, in the tasks, the answers, the marks and the pool, is what its phase says (`At`).
Whatever happens moves one restart to its next phase and spares the others (`Advances`, `Spares`),
or lets time pass, so that the invariant `Restarting` holds for every interleaving.

What is proved: `restarts_isolated`.
-/

namespace ContainerHost

/-- What a restart that ends is for its container. -/
def Mark.ofRestart : Except Error Unit → Mark
  | .ok () => .revived
  | .error _ => .broken

namespace RestartPhase

def tasks (c : Container) : RestartPhase → List Task
  | .waiting => [.restart c.id]
  | .resting => [.rest c.id c.state]
  | .ended _ => []

/-- What happened to the container, the latest first. -/
def marks (c : Container) : RestartPhase → List Mark
  | .waiting => []
  | .resting => [.rested]
  | .ended env => [.ofRestart (c.restartIn env), .rested]

end RestartPhase

/-- How often a task goes on until it has ended, if it is one of a restart. -/
def Task.steps : Task → Nat
  | .restart _ => 2
  | _ => 1

theorem Task.steps_pos (task : Task) : 0 < task.steps := by
  unfold steps
  split <;> decide

namespace ConcurrentManager

variable {t t' : ConcurrentManager} {m : Manager} {ticket : Nat} {c : Container}
  {s : RestartPhase} {id : String}

/-- The restart of a container, which has a ticket, is in a phase. -/
structure At (t : ConcurrentManager) (ticket : Nat) (c : Container) (s : RestartPhase) : Prop where
  tasks : t.tasks.filter (·.1 == ticket) = (s.tasks c).map (ticket, ·)
  answers : t.answers.find? (·.1 == ticket) = (s.answer? c).map fun r => (ticket, .done r)
  marks : t.marksOf c.id = s.marks c
  holds : ∃ d, t.manager.pool.get? c.id = some d ∧ s.Holds c d

/-- What happens has nothing to do with an operation and a container, but that time passes. -/
structure Spares (t : ConcurrentManager) (ticket : Nat) (id : String) (t' : ConcurrentManager) :
    Prop where
  tasks : t'.tasks.filter (·.1 == ticket) = t.tasks.filter (·.1 == ticket)
  answers : t'.answers.find? (·.1 == ticket) = t.answers.find? (·.1 == ticket)
  marks : t'.marksOf id = t.marksOf id
  pool : ∀ d, t.manager.pool.get? id = some d →
    ∃ e, t'.manager.pool.get? id = some e ∧ d.Aged e

theorem At.spared (h : t.At ticket c s) (k : t.Spares ticket c.id t') : t'.At ticket c s := by
  obtain ⟨d, hd, hholds⟩ := h.holds
  obtain ⟨e, he, haged⟩ := k.pool d hd
  exact ⟨k.tasks.trans h.tasks, k.answers.trans h.answers, k.marks.trans h.marks, e, he,
    hholds.aged haged⟩

theorem At.mem_tasks (h : t.At ticket c s) {task : Task} (htask : task ∈ s.tasks c) :
    (ticket, task) ∈ t.tasks := by
  have hmem : (ticket, task) ∈ t.tasks.filter (·.1 == ticket) := by
    rw [h.tasks]
    exact List.mem_map_of_mem htask
  exact List.mem_of_mem_filter hmem

/-! ## Bookkeeping -/

theorem marksOf_mark (t : ConcurrentManager) (id x : String) (what : Mark) :
    (t.mark [id] what).marksOf x = if id = x then what :: t.marksOf x else t.marksOf x := by
  unfold marksOf mark
  by_cases hx : id = x
  · simp [hx]
  · simp [hx]

theorem eraseIdx_split {α : Type} {l : List α} {i : Nat} {e : α} (h : l[i]? = some e) :
    ∃ before after, l = before ++ e :: after ∧ l.eraseIdx i = before ++ after := by
  obtain ⟨hlt, rfl⟩ := List.getElem?_eq_some_iff.mp h
  exact ⟨l.take i, l.drop (i + 1), by simp, List.eraseIdx_eq_take_drop_succ ..⟩

/-- A task that goes on is no longer among the others. -/
theorem filter_eraseIdx {l : List (Nat × Task)} {i j : Nat} {e : Nat × Task}
    (h : l[i]? = some e) (hj : j ≠ e.1) :
    (l.eraseIdx i).filter (·.1 == j) = l.filter (·.1 == j) := by
  obtain ⟨before, after, rfl, herase⟩ := eraseIdx_split h
  have hother : (e.1 == j) = false := beq_eq_false_iff_ne.mpr hj.symm
  rw [herase, List.filter_append, List.filter_append, List.filter_cons, hother]
  rfl

/-- If it is the only one of its operation, none is left. -/
theorem filter_eraseIdx_self {l : List (Nat × Task)} {i : Nat} {e e' : Nat × Task}
    (h : l[i]? = some e) (honly : l.filter (·.1 == e.1) = [e']) :
    e' = e ∧ (l.eraseIdx i).filter (·.1 == e.1) = [] := by
  obtain ⟨before, after, rfl, herase⟩ := eraseIdx_split h
  rw [List.filter_append, List.filter_cons, if_pos (beq_self_eq_true e.1)] at honly
  rw [herase, List.filter_append]
  cases hbefore : before.filter (·.1 == e.1) with
  | nil =>
    rw [hbefore, List.nil_append] at honly
    obtain ⟨rfl, hafter⟩ := List.cons.inj honly
    exact ⟨rfl, hafter⟩
  | cons e₀ before' =>
    rw [hbefore] at honly
    have hlength := congrArg List.length honly
    simp at hlength

/-! ## Steps -/

/-- The operation with a ticket goes on, and does something with a container. -/
structure Advances (t : ConcurrentManager) (ticket : Nat) (id : String) (t' : ConcurrentManager) :
    Prop where
  aside : t.manager.Aside id t'.manager
  tasks : ∀ j, j ≠ ticket → t'.tasks.filter (·.1 == j) = t.tasks.filter (·.1 == j)
  answers : ∀ j, j ≠ ticket → t'.answers.find? (·.1 == j) = t.answers.find? (·.1 == j)
  marks : ∀ x, x ≠ id → t'.marksOf x = t.marksOf x

section

variable {i j : Nat} {x : String} {task : Task} {what : Mark}

theorem Advances.spares (h : t.Advances ticket id t') (hj : j ≠ ticket) (hx : x ≠ id) :
    t.Spares j x t' :=
  ⟨h.tasks j hj, h.answers j hj, h.marks x hx,
    fun d hd => ⟨d, (h.aside.pool.others x hx).trans hd, Container.Aged.refl d⟩⟩

theorem Advances.mem_tasks (h : t.Advances ticket id t') {e : Nat × Task} (he : e ∈ t'.tasks) :
    e.1 = ticket ∨ e ∈ t.tasks := by
  by_cases hj : e.1 = ticket
  · exact .inl hj
  · have hmem : e ∈ t'.tasks.filter (·.1 == e.1) :=
      List.mem_filter.mpr ⟨he, beq_self_eq_true e.1⟩
    rw [h.tasks e.1 hj] at hmem
    exact .inr (List.mem_of_mem_filter hmem)

theorem Advances.enlist (h : t.Advances ticket id t') (task : Task) :
    t.Advances ticket id (t'.enlist ticket task) := by
  refine ⟨h.aside, ?_, h.answers, h.marks⟩
  intro j hj
  have hother : (ticket == j) = false := beq_eq_false_iff_ne.mpr hj.symm
  show (t'.tasks ++ [(ticket, task)]).filter (·.1 == j) = _
  rw [List.filter_append, h.tasks j hj, List.filter_cons, hother]
  exact List.append_nil _

theorem find?_answers_answer (t : ConcurrentManager) (ticket j : Nat) (r : Reply) :
    (t.answer ticket r).answers.find? (·.1 == j) =
      (t.answers.find? (·.1 == j)).or (if ticket = j then some (ticket, r) else none) := by
  show (t.answers ++ [(ticket, r)]).find? (·.1 == j) = _
  rw [List.find?_append, List.find?_cons]
  by_cases hj : ticket = j
  · rw [if_pos hj, beq_iff_eq.mpr hj]
  · rw [if_neg hj, beq_eq_false_iff_ne.mpr hj]
    rfl

theorem Advances.answer (h : t.Advances ticket id t') (r : Reply) :
    t.Advances ticket id (t'.answer ticket r) := by
  refine ⟨h.aside, h.tasks, ?_, h.marks⟩
  intro j hj
  rw [find?_answers_answer, if_neg hj.symm, Option.or_none]
  exact h.answers j hj

/-- The task at a place goes on, and something has happened to a container. -/
def taken (t : ConcurrentManager) (i : Nat) (m : Manager) (id : String) (what : Mark) :
    ConcurrentManager :=
  ({ t with tasks := t.tasks.eraseIdx i }.withManager m).mark [id] what

theorem advances_taken (he : t.tasks[i]? = some (ticket, task)) (h : t.manager.Aside id m)
    (what : Mark) : t.Advances ticket id (t.taken i m id what) :=
  ⟨h, fun _ hj => filter_eraseIdx he hj, fun _ _ => rfl,
    fun x hx => (marksOf_mark _ id x what).trans (if_neg hx.symm)⟩

/-- The containers that came up from a restart, in the order in which they did. -/
def revivals (t : ConcurrentManager) : List String :=
  ((t.marks.filter (·.2 == .revived)).map (·.1)).reverse

/-- What has been announced since is that some more containers came up. -/
def Announced (t t' : ConcurrentManager) : Prop :=
  ∃ more, t'.revivals = t.revivals ++ more ∧
    t.manager.Announces (Manager.restartedEvents more) t'.manager

theorem revivals_taken (t : ConcurrentManager) (i : Nat) (m : Manager) (id : String) (what : Mark) :
    (t.taken i m id what).revivals = t.revivals ++ if what = .revived then [id] else [] := by
  unfold revivals taken mark
  cases what <;> simp [withManager]

/-- How often tasks go on until they have ended. -/
def work (t : ConcurrentManager) : Nat := (t.tasks.map fun e => e.2.steps).sum

theorem work_eraseIdx (he : t.tasks[i]? = some (ticket, task)) :
    ((t.tasks.eraseIdx i).map fun e => e.2.steps).sum + task.steps = t.work := by
  obtain ⟨before, after, hsplit, herase⟩ := eraseIdx_split he
  unfold work
  rw [herase, hsplit, List.map_append, List.map_append, List.map_cons, List.sum_append,
    List.sum_append, List.sum_cons]
  dsimp only
  omega

/-- A restart goes on, to a phase, by one step. -/
structure Onward (t : ConcurrentManager) (ticket : Nat) (c : Container) (s : RestartPhase)
    (t' : ConcurrentManager) :
    Prop where
  advances : t.Advances ticket c.id t'
  phase : t'.At ticket c s
  announced : t.Announced t'
  work : t'.work + 1 = t.work

/-- The task that a restart has left is the one that its phase says, and no other. -/
theorem At.tasks_eq (h : t.At ticket c s) (he : t.tasks[i]? = some (ticket, task)) :
    s.tasks c = [task] ∧ (t.tasks.eraseIdx i).filter (·.1 == ticket) = [] := by
  have hmem : (ticket, task) ∈ t.tasks.filter (·.1 == ticket) :=
    List.mem_filter.mpr ⟨List.mem_of_getElem? he, beq_self_eq_true ticket⟩
  have hone : ∃ task', s.tasks c = [task'] := by
    cases s with
    | waiting => exact ⟨_, rfl⟩
    | resting => exact ⟨_, rfl⟩
    | ended env =>
      rw [h.tasks] at hmem
      cases hmem
  obtain ⟨task', htask⟩ := hone
  have honly : t.tasks.filter (·.1 == ticket) = [(ticket, task')] := by
    rw [h.tasks, htask]
    rfl
  obtain ⟨heq, herased⟩ := filter_eraseIdx_self he honly
  cases heq
  exact ⟨htask, herased⟩

theorem At.restart (h : t.At ticket c .waiting) (hl : t.manager.pool.Labelled)
    (hq : t.manager.Quiet) (he : t.tasks[i]? = some (ticket, task)) :
    t.Onward ticket c .resting ({ t with tasks := t.tasks.eraseIdx i }.proceed ticket task) := by
  obtain ⟨htask, herased⟩ := h.tasks_eq he
  obtain ⟨d, hd, haged⟩ := h.holds
  obtain ⟨hsnapshot, haside, hstopped⟩ := Manager.beginRestart_spec hl hd
  have hstate : d.state = c.state := by
    obtain ⟨_, _, _, _, rfl⟩ := haged
    rfl
  obtain rfl : Task.restart c.id = task := (List.cons.inj htask).1
  have hproceed : { t with tasks := t.tasks.eraseIdx i }.proceed ticket (.restart c.id) =
      (t.taken i (t.manager.beginRestart c.id).2 c.id .rested).enlist ticket
        (.rest c.id (t.manager.beginRestart c.id).1) := rfl
  -- what was remembered is the state that the container had when all began
  rw [hproceed, hsnapshot, hstate]
  refine ⟨(advances_taken he haside .rested).enlist _, ⟨?_, h.answers, ?_, _, hstopped, ?_⟩, ?_, ?_⟩
  · show (t.tasks.eraseIdx i ++ [(ticket, Task.rest c.id c.state)]).filter (·.1 == ticket) = _
    rw [List.filter_append, herased, List.nil_append]
    exact List.filter_cons_of_pos (beq_self_eq_true ticket)
  · have hmarks := h.marks
    show (t.taken i _ c.id .rested).marksOf c.id = _
    rw [taken, marksOf_mark, if_pos rfl]
    exact congrArg (List.cons _) hmarks
  · exact Container.Aged.trans haged.stop d.stop.aged_cleared
  · exact ⟨[], revivals_taken t i _ c.id .rested, hq.level_act c.id (Table.empty : State)
      (f := Container.beginRestart) fun c => .stopped c⟩
  · have hwork := work_eraseIdx he
    show ((t.tasks.eraseIdx i ++ [(ticket, Task.rest c.id _)]).map fun e => e.2.steps).sum + 1 = _
    rw [List.map_append, List.sum_append, ← hwork]
    rfl

theorem At.rest (h : t.At ticket c .resting) (hl : t.manager.pool.Labelled)
    (hq : t.manager.Quiet) (ho : c.state.Ordered) (he : t.tasks[i]? = some (ticket, task)) :
    t.Onward ticket c (.ended t.manager.pool.surroundings)
      ({ t with tasks := t.tasks.eraseIdx i }.proceed ticket task) := by
  obtain ⟨htask, herased⟩ := h.tasks_eq he
  obtain ⟨d, hd, haged⟩ := h.holds
  obtain ⟨hresult, haside, e, hended, hlater⟩ := Manager.endRestart_ends hl hd c.state
  obtain ⟨hsame, hrestarted⟩ := Container.endRestart_stopped ho haged t.manager.pool.surroundings
  have hresult := hresult.trans hsame
  have hannounces := hq.announces_endRestart c.id c.state
  obtain rfl : Task.rest c.id c.state = task := (List.cons.inj htask).1
  have hproceed : { t with tasks := t.tasks.eraseIdx i }.proceed ticket (.rest c.id c.state) =
      (t.taken i (t.manager.endRestart c.id c.state).2 c.id
        (.ofRestart (t.manager.endRestart c.id c.state).1)).answer ticket
          (.done (t.manager.endRestart c.id c.state).1) := by
    simp only [proceed]
    cases (t.manager.endRestart c.id c.state).1 <;> rfl
  rw [hproceed]
  refine ⟨(advances_taken he haside _).answer _, ⟨herased, ?_, ?_, e, hended, ?_⟩, ?_,
    work_eraseIdx he⟩
  · rw [find?_answers_answer, if_pos rfl, hresult]
    show (t.answers.find? (·.1 == ticket)).or _ = _
    rw [h.answers]
    rfl
  · have hmarks := h.marks
    show (t.taken i _ c.id _).marksOf c.id = _
    rw [taken, marksOf_mark, if_pos rfl, hresult]
    exact congrArg (List.cons _) hmarks
  · exact hrestarted.aged hlater
  · generalize t.manager.endRestart c.id c.state = ended at hannounces
    obtain ⟨_ | u, m'⟩ := ended
    · exact ⟨[], revivals_taken t i m' c.id .broken, hannounces⟩
    · exact ⟨[c.id], revivals_taken t i m' c.id .revived, hannounces⟩

/-- A restart that has a task goes on to its next phase. -/
theorem At.onward (h : t.At ticket c s) (hl : t.manager.pool.Labelled) (hq : t.manager.Quiet)
    (ho : c.state.Ordered) (he : t.tasks[i]? = some (ticket, task)) :
    ∃ s', (s' = .resting ∨ s' = .ended t.manager.pool.surroundings) ∧
      t.Onward ticket c s' ({ t with tasks := t.tasks.eraseIdx i }.proceed ticket task) := by
  cases s with
  | waiting => exact ⟨_, .inl rfl, h.restart hl hq he⟩
  | resting => exact ⟨_, .inr rfl, h.rest hl hq ho he⟩
  | ended env => cases (h.tasks_eq he).1

end

end ConcurrentManager

/-! ## All restarts -/

/-- Nobody asks for an operation, gives one up, does anything else with a container or begins to
listen: operations go on, time passes, and what surrounds the manager may change. -/
def Move.isApart : Move → Bool
  | .go _ | .sleep _ | .pass _ | .surround .. => true
  | .ask _ | .abandon _ | .interact .. | .observe .. => false

def Move.outside? : Move → Option Outside
  | .surround _ _ outside => some outside
  | _ => none

namespace ConcurrentManager

variable {t t' : ConcurrentManager} {m : Manager} {seen : Outside → Prop} {x : Move}

/-- The restarts of all containers of `m` are under way, each by itself, and nothing else is. -/
structure Underway (m : Manager) (seen : Outside → Prop) (t : ConcurrentManager) : Prop where
  slots : t.manager.slots = m.slots
  quiet : t.manager.Quiet
  labelled : t.manager.pool.Labelled
  outside : seen t.manager.pool.outside
  parts : ∀ p ∈ m.parts 1, ∃ s : RestartPhase, s.Within seen ∧ t.At p.1 p.2 s
  tickets : ∀ e ∈ t.tasks, e.1 = 0 ∨ ∃ p ∈ m.parts 1, p.1 = e.1
  others : ∀ id, m.slots.holds id = false → t.marksOf id = []

/-- The operation as a whole waits for the restarts. -/
structure Gathering (m : Manager) (t : ConcurrentManager) : Prop where
  tasks : t.tasks.filter (·.1 == 0) = [(0, .gather (m.partTickets 1) false)]
  answers : t.answers.find? (·.1 == 0) = none
  announced : m.Announces (Manager.restartedEvents t.revivals) t.manager

/-- The operation as a whole has ended, and the restarts before it. -/
structure Gathered (m : Manager) (t : ConcurrentManager) : Prop where
  tasks : t.tasks = []
  answers : t.answers.find? (·.1 == 0) =
    some (0, .summed (.ofResults ((m.partTickets 1).filterMap t.resultOf?)))
  announced : m.Announces (Manager.restartedEvents t.revivals ++
    [Manager.restartAllEvent (.ofResults ((m.partTickets 1).filterMap t.resultOf?))]) t.manager

/-! ### One restart goes on -/

/-- The restarts are still under way when one of them has gone on to another phase. -/
theorem Underway.advance (hm : m.Restartable) (h : Underway m seen t) {p : Nat × Container}
    (hp : p ∈ m.parts 1) (ha : t.Advances p.1 p.2.id t') (hquiet : t'.manager.Quiet) {s : RestartPhase}
    (hs : s.Within seen) (hat : t'.At p.1 p.2 s) : Underway m seen t' := by
  refine ⟨ha.aside.slots.trans h.slots, hquiet, ha.aside.pool.labelled,
    ha.aside.pool.outside ▸ h.outside, ?_, ?_, ?_⟩
  · intro q hq
    by_cases heq : q = p
    · subst heq
      exact ⟨s, hs, hat⟩
    · obtain ⟨s', hs', hat'⟩ := h.parts q hq
      have hticket : q.1 ≠ p.1 := fun hsame => heq (Manager.part_eq_of_ticket hq hp hsame)
      have hid : q.2.id ≠ p.2.id := fun hsame =>
        heq (Manager.part_eq_of_id hm.settled hm.distinct hq hp hsame)
      exact ⟨s', hs', hat'.spared (ha.spares hticket hid)⟩
  · intro e he
    rcases ha.mem_tasks he with he | he
    · exact .inr ⟨p, hp, he.symm⟩
    · exact h.tickets e he
  · intro id hout
    have hne : id ≠ p.2.id := by
      rintro rfl
      have hin := (Manager.holds_of_get? ((Manager.mem_containers hm.settled).mp
        (Manager.mem_containers_of_part hp))).1
      rw [hout] at hin
      cases hin
    exact (ha.marks id hne).trans (h.others id hout)

/-- What the whole operation knows of a restart is what its phase says. -/
theorem At.resultOf? {ticket : Nat} {c : Container} {s : RestartPhase} (h : t.At ticket c s) :
    t.resultOf? ticket = s.answer? c := by
  unfold ConcurrentManager.resultOf?
  rw [h.answers]
  cases s.answer? c <;> rfl

theorem results_eq (h : ∀ p ∈ m.parts 1, ∃ s, t.At p.1 p.2 s ∧ t'.At p.1 p.2 s) :
    (m.partTickets 1).filterMap t'.resultOf? = (m.partTickets 1).filterMap t.resultOf? := by
  refine List.filterMap_congr ?_
  intro ticket hticket
  rw [← m.fst_parts] at hticket
  obtain ⟨p, hp, rfl⟩ := List.mem_map.mp hticket
  obtain ⟨s, hat, hat'⟩ := h p hp
  rw [hat.resultOf?, hat'.resultOf?]

/-- What is true while all containers of `m` are restarted. -/
def Restarting (m : Manager) (seen : Outside → Prop) (t : ConcurrentManager) : Prop :=
  Underway m seen t ∧ (Gathering m t ∨ Gathered m t)

theorem ticket_pos {p : Nat × Container} (hp : p ∈ m.parts 1) : 0 ≠ p.1 := by
  have hmem := List.mem_range'_1.mp (Manager.mem_partTickets hp)
  omega

theorem Gathering.advance (h : Gathering m t) {p : Nat × Container} (hp : p ∈ m.parts 1)
    (ha : t.Advances p.1 p.2.id t') (hn : t.Announced t') : Gathering m t' := by
  obtain ⟨more, hrevivals, hannounced⟩ := hn
  have hzero := ticket_pos hp
  refine ⟨(ha.tasks 0 hzero).trans h.tasks, (ha.answers 0 hzero).trans h.answers, ?_⟩
  rw [hrevivals, Manager.restartedEvents, List.map_append]
  exact h.announced.trans hannounced

/-- When the operation as a whole may go on, all restarts have ended. -/
theorem Underway.all_ended (hu : Underway m seen t)
    (hready : t.ready (.gather (m.partTickets 1) false) = true) :
    ∀ p ∈ m.parts 1, t.tasks.filter (·.1 == p.1) = [] := by
  intro p hp
  obtain ⟨s, -, hat⟩ := hu.parts p hp
  have hsome := List.all_eq_true.mp hready p.1 (Manager.mem_partTickets hp)
  rw [hat.resultOf?] at hsome
  rw [hat.tasks]
  cases s with
  | ended env => rfl
  | waiting => cases hsome
  | resting => cases hsome

/-- Besides the operation as a whole nothing is left when all restarts have ended. -/
theorem Underway.eraseIdx_eq_nil {i : Nat} (hu : Underway m seen t)
    (hended : ∀ p ∈ m.parts 1, t.tasks.filter (·.1 == p.1) = [])
    (herased : (t.tasks.eraseIdx i).filter (·.1 == 0) = []) : t.tasks.eraseIdx i = [] := by
  refine List.eq_nil_iff_forall_not_mem.mpr ?_
  intro e hmem
  rcases hu.tickets e (List.mem_of_mem_eraseIdx hmem) with hzero | ⟨p, hp, hticket⟩
  · have hin : e ∈ (t.tasks.eraseIdx i).filter (·.1 == 0) :=
      List.mem_filter.mpr ⟨hmem, beq_iff_eq.mpr hzero⟩
    rw [herased] at hin
    cases hin
  · have hin : e ∈ t.tasks.filter (·.1 == p.1) :=
      List.mem_filter.mpr ⟨List.mem_of_mem_eraseIdx hmem, beq_iff_eq.mpr hticket.symm⟩
    rw [hended p hp] at hin
    cases hin

/-- The operation as a whole goes on when all restarts have ended, and says so. -/
theorem Gathering.gather {i : Nat} {task : Task} (hu : Underway m seen t) (h : Gathering m t)
    (he : t.tasks[i]? = some (0, task)) (hready : t.ready task = true) :
    Restarting m seen ({ t with tasks := t.tasks.eraseIdx i }.proceed 0 task) ∧
      ({ t with tasks := t.tasks.eraseIdx i }.proceed 0 task).work + 1 = t.work := by
  obtain ⟨heq, herased⟩ := filter_eraseIdx_self he h.tasks
  cases heq
  have hended := hu.all_ended hready
  have hnone := hu.eraseIdx_eq_nil hended herased
  generalize hsummary : BulkSummary.ofResults ((m.partTickets 1).filterMap t.resultOf?) = summary
  have hproceed : { t with tasks := t.tasks.eraseIdx i }.proceed 0
      (.gather (m.partTickets 1) false) = ({ t with tasks := [] }.withManager
        (t.manager.endRestartAll summary)).answer 0 (.summed summary) := by
    rw [← hnone, ← hsummary]
    rfl
  have hwork := work_eraseIdx he
  rw [hnone] at hwork
  rw [hproceed]
  generalize hafter : ({ t with tasks := [] }.withManager
    (t.manager.endRestartAll summary)).answer 0 (.summed summary) = after
  -- the restarts have no tasks left that could be lost, and their answers are kept
  have hspares : ∀ p ∈ m.parts 1, t.Spares p.1 p.2.id after := by
    intro p hp
    subst hafter
    refine ⟨(hended p hp).symm, ?_, rfl, fun d hd => ⟨d, hd, Container.Aged.refl d⟩⟩
    rw [find?_answers_answer, if_neg (ticket_pos hp), Option.or_none]
    rfl
  have hparts : ∀ p ∈ m.parts 1,
      ∃ s : RestartPhase, s.Within seen ∧ t.At p.1 p.2 s ∧ after.At p.1 p.2 s := by
    intro p hp
    obtain ⟨s, hs, hat⟩ := hu.parts p hp
    exact ⟨s, hs, hat, hat.spared (hspares p hp)⟩
  have hresults := results_eq fun p hp => (hparts p hp).imp fun _ hs => hs.2
  subst hafter
  refine ⟨⟨⟨hu.slots, hu.quiet.of_pool rfl, hu.labelled, hu.outside, ?_, by simp [answer, withManager],
    hu.others⟩, .inr ⟨rfl, ?_, ?_⟩⟩, hwork⟩
  · intro p hp
    obtain ⟨s, hs, -, hat⟩ := hparts p hp
    exact ⟨s, hs, hat⟩
  · rw [hresults, hsummary, find?_answers_answer, if_pos rfl]
    show (t.answers.find? (·.1 == 0)).or _ = _
    rw [h.answers]
    rfl
  · rw [hresults, hsummary]
    exact h.announced.trans (Manager.announces_emit _ _)

/-- One task fewer is left of the operation when one goes on. -/
theorem Restarting.go (hm : m.Restartable) (h : Restarting m seen t) {i ticket : Nat} {task : Task}
    (hgoes : t.goesOn (.go i) = some (ticket, task)) :
    Restarting m seen (t.go i) ∧ (t.go i).work + 1 = t.work := by
  obtain ⟨he, hready, hgo⟩ := go_of_goesOn hgoes
  obtain ⟨hu, hg | hg⟩ := h
  · rw [hgo]
    rcases hu.tickets _ (List.mem_of_getElem? he) with hzero | ⟨p, hp, hticket⟩
    · obtain rfl : ticket = 0 := hzero
      exact hg.gather hu he hready
    · obtain rfl : p.1 = ticket := hticket
      have hc := Manager.mem_containers_of_part hp
      obtain ⟨s, -, hat⟩ := hu.parts p hp
      obtain ⟨s', hs', hon⟩ :=
        hat.onward hu.labelled hu.quiet (hm.ordered _ hc) he
      have hwithin : s'.Within seen := by
        rcases hs' with rfl | rfl
        · trivial
        · exact hu.outside
      have hquiet := quiet_proceed (t := { t with tasks := t.tasks.eraseIdx i }) hu.quiet p.1 task
      exact ⟨⟨hu.advance hm hp hon.advances hquiet hwithin hon.phase,
        .inl (hg.advance hp hon.advances hon.announced)⟩, hon.work⟩
  · rw [hg.tasks] at he
    cases he

/-! ### Time passes -/

theorem Restarting.elapse (h : Restarting m seen t) {m' : Manager}
    (hslots : m'.slots = t.manager.slots) (hquiet : m'.Quiet) (hlabelled : m'.pool.Labelled)
    (houtside : seen m'.pool.outside) (hlevel : t.manager.Level m')
    (haged : ∀ id d, t.manager.pool.get? id = some d →
      ∃ e, m'.pool.get? id = some e ∧ d.Aged e) : Restarting m seen (t.withManager m') := by
  obtain ⟨hu, hg⟩ := h
  refine ⟨⟨hslots.trans hu.slots, hquiet, hlabelled, houtside, ?_, hu.tickets, hu.others⟩, ?_⟩
  · intro p hp
    obtain ⟨s, hs, hat⟩ := hu.parts p hp
    exact ⟨s, hs, hat.spared ⟨rfl, rfl, rfl, haged p.2.id⟩⟩
  · rcases hg with hg | hg
    · exact .inl ⟨hg.tasks, hg.answers, hg.announced.level hlevel⟩
    · exact .inr ⟨hg.tasks, hg.answers, hg.announced.level hlevel⟩

/-- Whatever happens, the restarts go on by themselves. A task that goes on is a step of the work. -/
theorem Restarting.move (hm : m.Restartable) (h : Restarting m seen t) (hx : x.isApart = true)
    (hseen : ∀ outside, x.outside? = some outside → seen outside) :
    Restarting m seen (t.move x) ∧
      (t.goesOn x).isSome.toNat + (t.move x).work = t.work := by
  cases x with
  | go i =>
    cases hgoes : t.goesOn (.go i) with
    | none =>
      rw [ConcurrentManager.move, go_of_goesOn_none hgoes]
      exact ⟨h, Nat.zero_add _⟩
    | some e =>
      obtain ⟨hrestarting, hwork⟩ := h.go hm hgoes
      exact ⟨hrestarting, (Nat.add_comm 1 _).trans hwork⟩
  | sleep d =>
    have htracks := (Pool.keeps_aged t.manager.pool).slept
      (h.1.labelled.tracks Container.Aged.refl) d
    exact ⟨h.elapse (t.manager.slots_sleep d) (h.1.quiet.sleep d) htracks.labelled
      (htracks.outside ▸ h.1.outside) (h.1.quiet.level_sleep d) htracks.became, Nat.zero_add _⟩
  | pass d =>
    exact ⟨h.elapse rfl ⟨h.1.quiet.heard, h.1.quiet.outboxes⟩ h.1.labelled h.1.outside
      (Manager.level_of_same rfl rfl) fun _ d hd => ⟨d, hd, .refl d⟩, Nat.zero_add _⟩
  | surround source network outside =>
    exact ⟨h.elapse rfl ⟨h.1.quiet.heard, h.1.quiet.outboxes⟩ h.1.labelled (hseen outside rfl)
      (Manager.level_of_same rfl rfl) fun _ d hd => ⟨d, hd, .refl d⟩, Nat.zero_add _⟩
  | _ => cases hx

/-- As long as the operation as a whole has not ended, something is ready: a container that rests may
come up, or else one that nobody has may begin to be restarted, or else all restarts have ended. -/
theorem Underway.exists_ready (hu : Underway m seen t) (hg : Gathering m t) :
    ∃ e ∈ t.tasks, t.ready e.2 = true := by
  by_cases hrest : ∃ e ∈ t.tasks, ∃ id, e.2.hasLock id = true
  · obtain ⟨⟨ticket, task⟩, he, id, hlock⟩ := hrest
    refine ⟨_, he, ?_⟩
    cases task with
    | rest => rfl
    | _ => cases hlock
  · have hfree (id : String) : t.locked id = false := by
      unfold locked
      rw [List.any_eq_false]
      exact fun e he hlock => hrest ⟨e, he, id, hlock⟩
    by_cases hwaiting : ∃ p ∈ m.parts 1, t.At p.1 p.2 .waiting
    · obtain ⟨p, hp, hat⟩ := hwaiting
      exact ⟨_, hat.mem_tasks List.mem_cons_self, by simp [ready, hfree]⟩
    · have hmem : (0, Task.gather (m.partTickets 1) false) ∈ t.tasks.filter (·.1 == 0) := by
        rw [hg.tasks]
        exact List.mem_cons_self
      refine ⟨_, List.mem_of_mem_filter hmem, List.all_eq_true.mpr ?_⟩
      intro k hk
      rw [← m.fst_parts] at hk
      obtain ⟨p, hp, rfl⟩ := List.mem_map.mp hk
      obtain ⟨s, -, hat⟩ := hu.parts p hp
      rw [hat.resultOf?]
      cases s with
      | ended env => rfl
      | waiting => exact absurd ⟨p, hp, hat⟩ hwaiting
      | resting =>
        exact absurd ⟨_, hat.mem_tasks List.mem_cons_self, p.2.id, beq_self_eq_true _⟩ hrest

theorem Restarting.exists_goesOn (h : Restarting m seen t) (htasks : t.tasks ≠ []) :
    ∃ i, (t.goesOn (.go i)).isSome = true := by
  obtain ⟨hu, hg | hg⟩ := h
  · obtain ⟨e, he, hready⟩ := hu.exists_ready hg
    obtain ⟨i, hi⟩ := List.getElem?_of_mem he
    have hgoes : t.goesOn (.go i) = some e := Option.filter_eq_some_iff.mpr ⟨hi, hready⟩
    exact ⟨i, by rw [hgoes]; rfl⟩
  · exact absurd hg.tasks htasks

/-! ### The beginning -/

theorem filter_of_nodup {α : Type} {l : List α} {f : α → Nat} (hd : (l.map f).Nodup) {a : α}
    (ha : a ∈ l) : l.filter (f · == f a) = [a] := by
  induction l with
  | nil => cases ha
  | cons b l ih =>
    obtain ⟨hb, hl⟩ := List.nodup_cons.mp hd
    rcases List.mem_cons.mp ha with rfl | ha
    · have hnone : l.filter (f · == f a) = [] := by
        refine List.filter_eq_nil_iff.mpr ?_
        intro x hx heq
        exact hb (List.mem_map.mpr ⟨x, hx, eq_of_beq heq⟩)
      rw [List.filter_cons, if_pos (beq_self_eq_true _), hnone]
    · have hne : (f b == f a) = false :=
        beq_eq_false_iff_ne.mpr fun heq => hb (heq ▸ List.mem_map_of_mem ha)
      rw [List.filter_cons, hne]
      exact ih hl ha

theorem ask_restartAll (hm : m.Restartable) : (opened m).ask .restartAll =
    { manager := m
      tasks := (m.parts 1).map (fun p => (p.1, .restart p.2.id)) ++
        [(0, .gather (m.partTickets 1) false)]
      tickets := 1 + m.containers.length
      answers := []
      marks := [] } := by
  have hids := Manager.ids_containers hm.settled
  have hlength : m.slots.ids.length = m.containers.length := by rw [← hids, List.length_map]
  have htasks : (List.range' 1 m.slots.ids.length).zip (m.slots.ids.map Task.restart) =
      (m.parts 1).map fun p => (p.1, Task.restart p.2.id) := by
    rw [hlength, ← hids, List.map_map, List.zip_map_right]
    rfl
  simp only [ask, opened, scatter, Nat.zero_add, List.nil_append]
  rw [htasks, hlength]
  rfl

theorem restarting_ask (hm : m.Restartable) (houtside : seen m.pool.outside) :
    Restarting m seen ((opened m).ask .restartAll) := by
  rw [ask_restartAll hm]
  refine ⟨⟨rfl, hm.settled.quiet, hm.settled.labelled, houtside, ?_, ?_, fun _ _ => rfl⟩,
    .inl ⟨?_, rfl, Manager.Level.refl m⟩⟩
  · intro p hp
    have hthere := (Manager.mem_containers hm.settled).mp (Manager.mem_containers_of_part hp)
    refine ⟨.waiting, trivial, ⟨?_, rfl, rfl, p.2, (Manager.holds_of_get? hthere).2,
      Container.Aged.refl _⟩⟩
    have hother : ((0 : Nat) == p.1) = false := beq_eq_false_iff_ne.mpr (ticket_pos hp)
    rw [List.filter_append, List.filter_map, List.filter_cons, hother]
    show ((m.parts 1).filter (·.1 == p.1)).map _ ++ [] = _
    rw [filter_of_nodup (m.nodup_partTickets 1) hp]
    rfl
  · intro e he
    rcases List.mem_append.mp he with he | he
    · obtain ⟨p, hp, rfl⟩ := List.mem_map.mp he
      exact .inr ⟨p, hp, rfl⟩
    · rw [List.mem_singleton.mp he]
      exact .inl rfl
  · rw [List.filter_append, List.filter_map]
    have hnone : (m.parts 1).filter ((fun e : Nat × Task => e.1 == 0) ∘ fun p =>
        (p.1, .restart p.2.id)) = [] := by
      refine List.filter_eq_nil_iff.mpr ?_
      intro p hp heq
      exact ticket_pos hp (eq_of_beq heq).symm
    rw [hnone]
    rfl

theorem work_ask (hm : m.Restartable) :
    ((opened m).ask .restartAll).work = 2 * m.slots.ids.length + 1 := by
  have hparts (l : List (Nat × Container)) :
      ((l.map fun p => (p.1, Task.restart p.2.id)).map fun e => e.2.steps).sum = 2 * l.length := by
    induction l with
    | nil => rfl
    | cons p l ih =>
      rw [List.map_cons, List.map_cons, List.sum_cons, ih, List.length_cons]
      show 2 + _ = _
      omega
  have hlength : (m.parts 1).length = m.slots.ids.length := by
    rw [← Manager.ids_containers hm.settled, List.length_map, ← m.snd_parts, List.length_map]
  rw [ask_restartAll hm, work, List.map_append, List.sum_append, hparts, hlength]
  rfl

/-! ### The end -/

theorem count_revivals (t : ConcurrentManager) (id : String) :
    t.revivals.count id = (t.marksOf id).count .revived := by
  unfold revivals marksOf
  rw [List.count_reverse, List.count, List.count, List.countP_map, List.countP_map,
    List.countP_filter, List.countP_filter]
  refine List.countP_congr ?_
  intro e _
  simp [and_comm]

/-- How an operation that restarts all containers of `m` has ended, if they came up in these
surroundings: it was answered, and each registered container was attempted once. -/
structure Ended (m : Manager) (env : String → Surroundings) (t : ConcurrentManager) : Prop where
  restarted : ∃ summary, t.answers.find? (·.1 == 0) = some (0, .summed summary) ∧
    m.AllRestarted env (summary, t.manager)
  attempts : ∀ id, t.marksOf id = match m.get? id with
    | some c => [.ofRestart (c.restartIn (env id)), .rested]
    | none => []

theorem Restarting.phases (hm : m.Restartable) (h : Restarting m seen t) (htasks : t.tasks = []) :
    ∃ env : String → Surroundings, (∀ id, seen (env id).outside) ∧
      ∀ p ∈ m.parts 1, t.At p.1 p.2 (.ended (env p.2.id)) := by
  refine Manager.choose_parts hm.settled hm.distinct ⟨_, h.1.outside⟩
    (P := fun p env => t.At p.1 p.2 (.ended env)) ?_
  intro p hp
  obtain ⟨s, hs, hat⟩ := h.1.parts p hp
  have hnone := hat.tasks
  rw [htasks] at hnone
  cases s with
  | ended env => exact ⟨env, hs, hat⟩
  | waiting => cases hnone
  | resting => cases hnone

theorem ofResults_ended (hm : m.Settled) {env : String → Surroundings}
    (h : ∀ p ∈ m.parts 1, t.At p.1 p.2 (.ended (env p.2.id))) :
    BulkSummary.ofResults ((m.partTickets 1).filterMap t.resultOf?) = m.restartSummary env := by
  have hresults : (m.partTickets 1).filterMap t.resultOf? =
      m.containers.map fun c => c.restartIn (env c.id) := by
    rw [← m.fst_parts, ← m.snd_parts 1, List.filterMap_map, List.map_map, ← List.filterMap_eq_map]
    refine List.filterMap_congr ?_
    intro p hp
    exact (h p hp).resultOf?
  rw [hresults, Manager.ofResults_restarts hm]

theorem Underway.attempts (hu : Underway m seen t) (hm : m.Settled) {env : String → Surroundings}
    (h : ∀ p ∈ m.parts 1, t.At p.1 p.2 (.ended (env p.2.id))) (id : String) :
    t.marksOf id = match m.get? id with
      | some c => [.ofRestart (c.restartIn (env id)), .rested]
      | none => [] := by
  cases hc : m.get? id with
  | some c =>
    obtain ⟨rfl, k, hp⟩ : c.id = id ∧ ∃ k, (k, c) ∈ m.parts 1 := Manager.part_of_get? hm hc
    exact (h _ hp).marks
  | none => exact hu.others id (Manager.holds_of_get?_none hm hc)

/-- Those that came up from a restart are those whose restart succeeds, each of them once. -/
theorem perm_revivals (hm : m.Restartable) {env : String → Surroundings}
    (h : ∀ id, t.marksOf id = match m.get? id with
      | some c => [.ofRestart (c.restartIn (env id)), .rested]
      | none => []) : t.revivals.Perm ((m.succeeding env).map (·.id)) := by
  refine List.perm_iff_count.mpr ?_
  intro id
  rw [count_revivals, h, (Manager.nodup_succeeding hm env).count,
    if_congr (Manager.mem_succeeding hm.settled) rfl rfl]
  cases m.get? id with
  | none => simp
  | some c =>
    cases hrestart : c.restartIn (env id) with
    | error e => simp [hrestart, Mark.ofRestart, Except.isOk, Except.toBool]
    | ok u => simp [hrestart, Mark.ofRestart, Except.isOk, Except.toBool]

theorem Restarting.ended (hm : m.Restartable) (h : Restarting m seen t) (htasks : t.tasks = []) :
    ∃ env : String → Surroundings, (∀ id, seen (env id).outside) ∧ Ended m env t := by
  obtain ⟨env, hseen, hended⟩ := h.phases hm htasks
  obtain ⟨hu, hg | hg⟩ := h
  · have hgather := hg.tasks
    rw [htasks] at hgather
    cases hgather
  · have hattempts := hu.attempts hm.settled hended
    refine ⟨env, hseen, ⟨⟨_, hg.answers, ofResults_ended hm.settled hended, hu.slots, ?_,
      t.revivals, perm_revivals hm hattempts, hg.announced⟩, hattempts⟩⟩
    intro id c hc
    obtain ⟨rfl, k, hp⟩ : c.id = id ∧ ∃ k, (k, c) ∈ m.parts 1 :=
      Manager.part_of_get? hm.settled hc
    obtain ⟨d, hd, hrestarted⟩ := (hended _ hp).holds
    refine ⟨d, Manager.get?_of_holds ?_ hd, hrestarted, hrestarted.state_eq⟩
    rw [hu.slots]
    exact (Manager.holds_of_get? hc).1

/-! ### Ends that agree -/

/-- Two ends of the operation agree: the registry is the same, a container whose own restart ended in
the same way has the same status and state, and if all of them did, so is the summary. -/
structure Agree (t u : ConcurrentManager) : Prop where
  slots : t.manager.slots = u.manager.slots
  containers : ∀ id, t.marksOf id = u.marksOf id →
    (t.manager.get? id).map (fun c => (c.status, c.state)) =
      (u.manager.get? id).map fun c => (c.status, c.state)
  summary : (∀ id, t.marksOf id = u.marksOf id) →
    t.answers.find? (·.1 == 0) = u.answers.find? (·.1 == 0)

theorem Ended.isOk_eq {u : ConcurrentManager} {env env' : String → Surroundings} (h : Ended m env t)
    (k : Ended m env' u) {id : String} {c : Container} (hc : m.get? id = some c)
    (hsame : t.marksOf id = u.marksOf id) :
    (c.restartIn (env id)).isOk = (c.restartIn (env' id)).isOk := by
  rw [h.attempts, k.attempts, hc] at hsame
  have hmark : Mark.ofRestart (c.restartIn (env id)) = .ofRestart (c.restartIn (env' id)) :=
    (List.cons.inj hsame).1
  cases hr : c.restartIn (env id) <;> cases hr' : c.restartIn (env' id) <;>
    simp_all [Mark.ofRestart, Except.isOk, Except.toBool]

/-- However the restarts interleave, and whatever comes of the others, a container is left as its own
restart leaves it. -/
theorem Ended.agree (hm : m.Settled) {u : ConcurrentManager} {env env' : String → Surroundings}
    (h : Ended m env t) (k : Ended m env' u) : Agree t u := by
  obtain ⟨summary, hanswer, hsummary, hslots, hcontainers, -⟩ := h.restarted
  obtain ⟨summary', hanswer', hsummary', hslots', hcontainers', -⟩ := k.restarted
  refine ⟨hslots.trans hslots'.symm, ?_, ?_⟩
  · intro id hsame
    cases hc : m.get? id with
    | none =>
      have hout : m.slots.holds id = false := Manager.holds_of_get?_none hm hc
      have hnone {m' : Manager} (hs : m'.slots = m.slots) : m'.get? id = none := by
        rw [Manager.get?, hs, hout, if_neg Bool.false_ne_true]
      rw [hnone hslots, hnone hslots']
    | some c =>
      have hok := h.isOk_eq k hc hsame
      obtain ⟨d, hd, hrestarted, -⟩ := hcontainers id c hc
      obtain ⟨d', hd', hrestarted', -⟩ := hcontainers' id c hc
      have hstatus : d.status = d'.status := by rw [hrestarted.status, hrestarted'.status, hok]
      have hstate : d.state = d'.state := by
        rw [hrestarted.state, hrestarted'.state, Container.restartEchoes, Container.restartEchoes,
          hok]
      rw [hd, hd', Option.map_some, Option.map_some, hstatus, hstate]
  · intro hsame
    have hsucceeding : m.succeeding env = m.succeeding env' := by
      refine List.filter_congr ?_
      intro c hc
      exact h.isOk_eq k ((Manager.mem_containers hm).mp hc) (hsame c.id)
    rw [hanswer, hanswer', hsummary, hsummary', Manager.restartSummary, Manager.restartSummary,
      hsucceeding]

/-! ### Whole runs -/

def proceeds (t : ConcurrentManager) (x : Move) : Bool := (t.goesOn x).isSome

theorem Restarting.run (hm : m.Restartable) (h : Restarting m seen t) {moves : List Move}
    (hmoves : ∀ x ∈ moves, x.isApart = true)
    (hseen : ∀ x ∈ moves, ∀ outside, x.outside? = some outside → seen outside) :
    Restarting m seen (t.run moves) ∧ count proceeds t moves + (t.run moves).work = t.work := by
  induction moves generalizing t with
  | nil => exact ⟨h, Nat.zero_add _⟩
  | cons x moves ih =>
    obtain ⟨hstep, hwork⟩ :=
      h.move hm (hmoves x List.mem_cons_self) (hseen x List.mem_cons_self)
    obtain ⟨hrest, hworks⟩ := ih hstep (fun y hy => hmoves y (List.mem_cons_of_mem _ hy))
      fun y hy => hseen y (List.mem_cons_of_mem _ hy)
    refine ⟨hrest, ?_⟩
    rw [count, run_cons]
    unfold proceeds at hworks ⊢
    omega

theorem work_eq_zero (t : ConcurrentManager) : t.work = 0 ↔ t.tasks = [] := by
  unfold work
  cases t.tasks with
  | nil => simp
  | cons e l =>
    simp [e.2.steps_pos.ne']

/-- Failures of restarts are isolated. When all containers of a manager are restarted, and no other
operation is under way, then, however the restarts interleave with each other, with time, and with
changes of the world outside, some task may go on as long as there is one, and the operation ends with
as many steps as there are to take. It has then attempted each registered container once, and has
ended as it should (`AllRestarted`): what comes of a restart depends on the container and on what
surrounds it when it comes up, and on no other restart. Any two ends agree on every container whose
own restart ended in the same way. A manager that does it by itself ends in the same way. -/
theorem restarts_isolated {config : ManagerConfig} (h : t.Reachable config) (moves : List Move)
    (hmoves : ∀ x ∈ moves, x.isApart = true) :
    let m := t.manager
    let begun := (opened m).ask .restartAll
    let steps := 2 * m.slots.ids.length + 1
    ((begun.run moves).tasks ≠ [] → ∃ i, proceeds (begun.run moves) (.go i) = true) ∧
    count proceeds begun moves ≤ steps ∧
    ((begun.run moves).tasks = [] ↔ count proceeds begun moves = steps) ∧
    ((begun.run moves).tasks = [] →
      (∃ env : String → Surroundings,
        (∀ id, (env id).outside ∈ m.pool.outside :: moves.filterMap Move.outside?) ∧
        Ended m env (begun.run moves)) ∧
      ∀ others : List Move, (∀ x ∈ others, x.isApart = true) → (begun.run others).tasks = [] →
        Agree (begun.run moves) (begun.run others)) ∧
    ∃ env : String → Surroundings, (∀ id, (env id).outside = m.pool.outside) ∧
      m.AllRestarted env m.restartAll := by
  intro m begun steps
  have hm : m.Restartable := h.restartable
  have hrun (moves : List Move) (hmoves : ∀ x ∈ moves, x.isApart = true) :
      Restarting m (· ∈ m.pool.outside :: moves.filterMap Move.outside?) (begun.run moves) ∧
        count proceeds begun moves + (begun.run moves).work = begun.work := by
    refine (restarting_ask hm List.mem_cons_self).run hm hmoves ?_
    intro x hx outside hout
    exact List.mem_cons_of_mem _ (List.mem_filterMap.mpr ⟨x, hx, hout⟩)
  obtain ⟨hrestarting, hwork⟩ := hrun moves hmoves
  have hall : begun.work = steps := work_ask hm
  refine ⟨hrestarting.exists_goesOn, ?_, ?_, ?_, Manager.allRestarted_restartAll hm⟩
  · omega
  · rw [← work_eq_zero]
    omega
  · intro hdone
    obtain ⟨env, henv, hended⟩ := hrestarting.ended hm hdone
    refine ⟨⟨env, henv, hended⟩, ?_⟩
    intro others hothers hdone'
    obtain ⟨env', -, hended'⟩ := (hrun others hothers).1.ended hm hdone'
    exact hended.agree hm.settled hended'

def secondId : String := "a-1700000000001-00000001"

/-- A directory that is there at first. -/
def furnished : Outside := .ofDirs ["/data"]

/-- A container of this configuration is given that directory. -/
def granted : ContainerConfig :=
  { ContainerConfig.standard with isolation := some ⟨true, false, false, some "/data"⟩ }

/-- Two containers. The second was stopped by someone who has it, and is still registered. -/
def hosted : ConcurrentManager :=
  ((opened lodge).run
    [.surround lodge.source .silent furnished, .ask (.run "a" granted), .go 0,
      .ask (.run "a" .standard), .go 0]).handle secondId .stop

theorem reachable_hosted : hosted.Reachable roomy :=
  .handle (Reached.reachable
    ⟨lodge.host, lodge.source, lodge.deployer, .silent, .ofDirs [], lodge, _, rfl, rfl⟩) _ _

/-- The second of them is stopped first and comes up first. Then the directory is gone, and the first
does not come up. -/
def reshuffle : List Move :=
  [.go 1, .go 0, .sleep Limits.restartGrace, .go 1, .surround lodge.source .silent (.ofDirs []), .go 1,
    .go 0]

/-- The statuses of the two containers. -/
def bothStatuses (m : Manager) : List (Option Status) :=
  [firstId, secondId].map fun id => (m.get? id).map (·.status)

theorem outcome_hosted :
    let done := ((opened hosted.manager).ask .restartAll).run reshuffle
    bothStatuses hosted.manager = [some .running, some .stopped] ∧
    hosted.manager.slots.ids.length = 2 ∧ done.tasks.isEmpty = true ∧
    bothStatuses done.manager = [some .error, some .running] ∧
    done.answers.map (·.1) = [2, 1, 0] := by
  decide +kernel

/-- Two containers are restarted. One was stopped and comes up, and one ran and does not. -/
theorem restarted_hosted :
    let begun := (opened hosted.manager).ask .restartAll
    hosted.Reachable roomy ∧ bothStatuses hosted.manager = [some .running, some .stopped] ∧
    (∀ x ∈ reshuffle, x.isApart = true) ∧ count proceeds begun reshuffle = 5 ∧
    bothStatuses (begun.run reshuffle).manager = [some .error, some .running] ∧
    ∃ env, Ended hosted.manager env (begun.run reshuffle) := by
  intro begun
  obtain ⟨hbefore, htwo, hdone, hafter, -⟩ := outcome_hosted
  have hapart : ∀ x ∈ reshuffle, x.isApart = true := by decide
  obtain ⟨-, -, hsteps, hended, -⟩ := restarts_isolated reachable_hosted reshuffle hapart
  have hdone : (begun.run reshuffle).tasks = [] := List.isEmpty_iff.mp hdone
  obtain ⟨⟨env, -, hended⟩, -⟩ := hended hdone
  refine ⟨reachable_hosted, hbefore, hapart, ?_, hafter, env, hended⟩
  rw [hsteps.mp hdone, htwo]

end ConcurrentManager
end ContainerHost
