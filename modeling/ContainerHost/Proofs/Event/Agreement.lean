import ContainerHost.Proofs.Event.Deliveries
import Mathlib.Data.List.Basic
import Mathlib.Data.List.MinMax
/-!
# Emitting with and without waiting

An emission that starts its listeners and one that waits for them go through the same listeners in
two different ways. If the listeners leave the bus alone, both call the same listeners, each once,
and leave the same bus; all that can differ is the order in which those that run later go on.

The emissions of a scripted bus are deliveries in which the listeners that run later get their turns
round by round (`exists_rounds`): those that give way equally often end in the same round, in the
order in which they were started, and this is the order in which a scripted bus settles its tasks
(`settle_eq`).

What is proved: `emissions_agree`.
-/

namespace ContainerHost.Event

/-! ## Rounds -/

def Job.after (e : Entry Listener) : Nat → Job
  | 0 => ⟨e, .fresh⟩
  | r + 1 => if e.listener.turns ≤ r then ⟨e, .ended⟩ else ⟨e, .giving (e.listener.turns - r - 1)⟩

theorem Job.after_ended {e : Entry Listener} {r : Nat} (h : e.listener.turns ≤ r) :
    after e (r + 1) = ⟨e, .ended⟩ := by
  simp only [after, h, if_true]

theorem Job.after_giving {e : Entry Listener} {r n : Nat} (h : e.listener.turns = r + 1 + n) :
    after e (r + 1) = ⟨e, .giving n⟩ := by
  have hless : ¬ e.listener.turns ≤ r := by omega
  have hn : e.listener.turns - r - 1 = n := by omega
  simp only [after, hless, hn, if_false]

/-- With each turn a listener comes one turn further, and it notes what it heard in the turn that
follows those in which it gives way. -/
theorem Job.turn_after (e : Entry Listener) (r : Nat) (content : Event) :
    (after e r).turn.2 = after e (r + 1) ∧
      (after e r).turn.1.filterMap (Milestone.note? content) =
        if e.listener.turns = r then (e.listener.endNote? content).toList else [] := by
  have hnote : [Milestone.settled e].filterMap (Milestone.note? content) =
      (e.listener.endNote? content).toList := by
    cases hn : e.listener.endNote? content <;> simp [Milestone.note?, hn]
  cases r with
  | zero =>
    have hbegun (ms : List Milestone) : (.begun e :: ms).filterMap (Milestone.note? content) =
        ms.filterMap (Milestone.note? content) := rfl
    cases hturns : e.listener.turns with
    | zero =>
      rw [after_ended (Nat.le_of_eq hturns), after]
      simp [turn, proceed, hturns, hbegun, hnote]
    | succ n =>
      rw [after_giving (n := n) (by omega), after]
      simp [turn, proceed, hturns, hbegun]
  | succ r =>
    -- it has ended before, it ends, or it gives way once more
    rcases Nat.lt_trichotomy e.listener.turns (r + 1) with hended | hends | hgives
    · rw [after_ended (Nat.le_of_lt_succ hended), after_ended (Nat.le_of_lt hended),
        if_neg (Nat.ne_of_lt hended)]
      exact ⟨rfl, rfl⟩
    · rw [after_giving (n := 0) (by omega), after_ended (Nat.le_of_eq hends), if_pos hends]
      exact ⟨rfl, hnote⟩
    · obtain ⟨n, hn⟩ := Nat.exists_eq_add_of_lt hgives
      rw [after_giving (n := n + 1) (by omega), after_giving (n := n) (by omega),
        if_neg (Nat.ne_of_gt hgives)]
      exact ⟨rfl, rfl⟩

namespace Delivery

variable {there : List (Entry Listener)} {d : Delivery} {m : Manner}

/-- An emission goes through the listeners ahead of it. -/
theorem run_goOn (hm : d.manner ≠ .bare) :
    let t := d.run (List.replicate d.ahead.length .goOn)
    t.ahead = [] ∧
      t.jobs = d.jobs ++ (d.ahead.filter (·.listener.later)).map (Job.after · 0) ∧
      t.course = d.course ++ (d.ahead.filter (!·.listener.later)).map .called := by
  induction hahead : d.ahead generalizing d with
  | nil => simp [hahead]
  | cons e ahead ih =>
    have hnext := ih (d := d.goOn) ((manner_act d .goOn).symm ▸ hm)
    rw [List.length_cons, List.replicate_succ, run_cons]
    cases hlater : e.listener.later with
    | false =>
      have hgo : d.goOn = { d with ahead := ahead, course := d.course ++ [.called e] } := by
        simp only [Delivery.goOn, hahead, hlater]
      rw [hgo] at hnext
      obtain ⟨hnil, hjobs, hcourse⟩ := hnext rfl
      simp only [Delivery.act, hgo]
      exact ⟨hnil, by simpa [hlater] using hjobs, by simpa [hlater] using hcourse⟩
    | true =>
      have hgo : d.goOn.ahead = ahead ∧ d.goOn.jobs = d.jobs ++ [Job.after e 0] ∧
          d.goOn.course = d.course := by
        simp only [Delivery.goOn, hahead, hlater]
        split
        · contradiction
        · rename_i hbare
          exact absurd hbare hm
        · exact ⟨rfl, rfl, rfl⟩
        · exact ⟨rfl, rfl, rfl⟩
      obtain ⟨hnil, hjobs, hcourse⟩ := hnext hgo.1
      rw [hgo.2.1] at hjobs
      rw [hgo.2.2] at hcourse
      simp only [Delivery.act]
      exact ⟨hnil, by simpa [hlater] using hjobs, by simpa [hlater] using hcourse⟩

/-- Whoever gives the turns, a listener that gets one goes on: one whose end was seen has nothing
left to do. -/
theorem Tracks.turn_goes (h : d.Tracks there) (hahead : d.ahead = []) {i : Nat} {j : Job}
    (hj : d.jobs[i]? = some j) :
    (d.turn i).ahead = [] ∧ (d.turn i).jobs = d.jobs.set i j.turn.2 ∧
      (d.turn i).course = d.course ++ j.turn.1 := by
  cases hmay : d.mayTurn i with
  | true =>
    rw [turn_eq hj hmay]
    exact ⟨hahead, rfl, rfl⟩
  | false =>
    have hsame : d.turn i = d := by simp [Delivery.turn, hj, hmay]
    have hm : d.manner = .awaiting := by
      cases hm : d.manner <;> simp_all [mayTurn]
    have hended : j.progress = .ended := by
      have hnot : ¬ i ∈ d.awaited := fun hi => by
        rw [(mayTurn_of_awaiting hm).mpr ⟨hahead, hi⟩] at hmay
        cases hmay
      rw [h.awaits] at hnot
      cases hended : j.hasEnded with
      | true => exact beq_iff_eq.mp hended
      | false => exact absurd ⟨hm, j, hj, hended⟩ hnot
    have hturn : j.turn = ([], j) := by simp only [Job.turn, hended]
    obtain ⟨hlt, hget⟩ := List.getElem?_eq_some_iff.mp hj
    rw [hsame, hturn]
    refine ⟨hahead, ?_, (List.append_nil _).symm⟩
    rw [← hget]
    exact (List.set_getElem_self hlt).symm

/-- The listeners from a number on get a turn each. -/
theorem Tracks.run_turns {todo : List Job} (done : List Job) (h : d.Tracks there)
    (hahead : d.ahead = []) (hjobs : d.jobs = done ++ todo) :
    let t := d.run ((List.range' done.length todo.length).map .turn)
    t.ahead = [] ∧ t.jobs = done ++ todo.map (·.turn.2) ∧
      t.course = d.course ++ todo.flatMap (·.turn.1) := by
  induction todo generalizing d done with
  | nil => exact ⟨hahead, by simpa using hjobs, by simp⟩
  | cons j todo ih =>
    have hj : d.jobs[done.length]? = some j := by simp [hjobs]
    obtain ⟨hnil, hset, hcourse⟩ := h.turn_goes hahead hj
    have hjobs' : (d.turn done.length).jobs = (done ++ [j.turn.2]) ++ todo := by
      rw [hset, hjobs]
      simp
    obtain ⟨hnil', hend, hcourse'⟩ := ih _ (h.turn done.length) hnil hjobs'
    rw [List.length_append, List.length_singleton] at hnil' hend hcourse'
    simp only [List.length_cons, List.range'_succ, List.map_cons, run_cons, Delivery.act]
    refine ⟨hnil', ?_, ?_⟩
    · rw [hend]
      simp
    · rw [hcourse', hcourse]
      simp

def rounds (n : Nat) : Nat → List Move
  | 0 => []
  | r + 1 => rounds n r ++ (List.range' 0 n).map .turn

theorem Tracks.run_rounds (h : d.Tracks there) (hahead : d.ahead = []) {es : List (Entry Listener)}
    (hjobs : d.jobs = es.map (Job.after · 0)) (r : Nat) (content : Event) :
    let t := d.run (rounds es.length r)
    t.ahead = [] ∧ t.jobs = es.map (Job.after · r) ∧
      t.notes content = d.notes content ++ (List.range r).flatMap fun k =>
        (es.filter (·.listener.turns == k)).filterMap (·.listener.endNote? content) := by
  induction r with
  | zero => exact ⟨hahead, hjobs, by simp [rounds]⟩
  | succ r ih =>
    obtain ⟨hnil, hthen, hnotes⟩ := ih
    have hturns := (tracks_run h (rounds es.length r)).run_turns [] hnil hthen
    simp only [List.length_nil, List.length_map, List.nil_append] at hturns
    obtain ⟨hnil', hend, hcourse⟩ := hturns
    have hround : (es.map (Job.after · r)).flatMap (fun j =>
        j.turn.1.filterMap (Milestone.note? content)) =
        (es.filter (·.listener.turns == r)).filterMap (·.listener.endNote? content) := by
      clear hthen hend hcourse hnotes hjobs hnil hnil'
      induction es with
      | nil => rfl
      | cons e es ih =>
        rw [List.map_cons, List.flatMap_cons, ih, (Job.turn_after e r content).2, List.filter_cons]
        by_cases hr : e.listener.turns = r
        · cases hn : e.listener.endNote? content <;> simp [hr, hn]
        · simp [hr]
    simp only [rounds, run_append]
    refine ⟨hnil', ?_, ?_⟩
    · rw [hend, List.map_map]
      exact List.map_congr_left fun e _ => (Job.turn_after e r content).1
    · simp only [notes] at hnotes ⊢
      rw [hcourse, List.filterMap_append, hnotes, List.filterMap_flatMap, hround, List.range_succ,
        List.flatMap_append, List.append_assoc]
      simp


/-- After as many rounds as a listener needs at most, all have ended. -/
theorem finished_of_jobs {es : List (Entry Listener)} {r : Nat} (hahead : d.ahead = [])
    (hjobs : d.jobs = es.map (Job.after · (r + 1))) (hr : ∀ e ∈ es, e.listener.turns ≤ r) :
    d.Finished := by
  refine ⟨hahead, fun j hj => ?_⟩
  rw [hjobs] at hj
  obtain ⟨e, he, rfl⟩ := List.mem_map.mp hj
  rw [Job.after_ended (hr e he)]
  rfl

/-- An emission can go through its listeners and let those that run later have their turns round by
round. -/
theorem exists_rounds (hm : m ≠ .bare) (there : List (Entry Listener)) (content : Event) {r : Nat}
    (hr : ∀ e ∈ there, e.listener.turns ≤ r) :
    ∃ moves, let d := (opened m there).run moves
      d.Finished ∧ d.returned = true ∧
        d.notes content = there.filterMap (·.listener.note? content) ++
          (List.range (r + 1)).flatMap fun k =>
            (there.filter (·.listener.turns == k)).filterMap (·.listener.endNote? content) := by
  have hdirect : ((there.filter (!·.listener.later)).map Milestone.called).filterMap
      (Milestone.note? content) = there.filterMap (·.listener.note? content) := by
    rw [List.filterMap_map, List.filterMap_filter]
    refine List.filterMap_congr fun e _ => ?_
    cases hl : e.listener <;> simp [Listener.later, Milestone.note?, Listener.note?, hl]
  have hlate (k : Nat) : ((there.filter (·.listener.later)).filter
      (·.listener.turns == k)).filterMap (·.listener.endNote? content) =
        (there.filter (·.listener.turns == k)).filterMap (·.listener.endNote? content) := by
    simp only [List.filterMap_filter]
    refine List.filterMap_congr fun e _ => ?_
    cases e.listener <;> simp [Listener.later, Listener.endNote?, Listener.task?]
  obtain ⟨hnil, hjobs, hcourse⟩ := run_goOn (d := opened m there) hm
  simp only [opened, List.nil_append] at hnil hjobs hcourse
  let starts := List.replicate there.length Move.goOn
  let late := there.filter (·.listener.later)
  have htracks := tracks_run (tracks_opened m there) starts
  obtain ⟨hnil', hend, hnotes⟩ := htracks.run_rounds hnil hjobs (r + 1) content
  rw [← run_append] at hnil' hend hnotes
  have hfinished := finished_of_jobs hnil' hend fun e he => hr e (List.mem_of_mem_filter he)
  have htracks' := tracks_run (tracks_opened m there) (starts ++ rounds late.length (r + 1))
  -- it waits for none, so that it returns as soon as it goes on
  have hawaited : ((opened m there).run (starts ++ rounds late.length (r + 1))).awaited = [] := by
    refine List.eq_nil_iff_forall_not_mem.mpr fun i hi => ?_
    obtain ⟨-, j, hj, hgoing⟩ := (htracks'.awaits i).mp hi
    rw [hfinished.2 j (List.mem_of_getElem? hj)] at hgoing
    cases hgoing
  refine ⟨starts ++ rounds late.length (r + 1) ++ [.goOn], ?_⟩
  rw [run_append _ _ [.goOn], run_cons, run_nil, Delivery.act, goOn_nil hnil', hawaited]
  refine ⟨⟨hnil', hfinished.2⟩, rfl, ?_⟩
  refine .trans hnotes ?_
  simp only [hlate]
  congr 1
  exact (congrArg _ hcourse).trans hdirect

end Delivery

/-! ## The turns of a scripted bus -/

namespace ScriptedBus

/-- Of the tasks in order, those that give way less often come first. -/
theorem filter_lt_succ {l : List Task} (h : l.Pairwise (·.yields ≤ ·.yields)) (r : Nat) :
    l.filter (·.yields < r + 1) = l.filter (·.yields < r) ++ l.filter (·.yields == r) := by
  induction h with
  | nil => rfl
  | @cons t l hle _ ih =>
    rcases Nat.lt_trichotomy t.yields r with hlt | heq | hgt
    · have hlt' : t.yields < r + 1 := Nat.lt_succ_of_lt hlt
      have hne : ¬ t.yields = r := Nat.ne_of_lt hlt
      simp only [List.filter_cons, decide_eq_true_eq, beq_iff_eq, hlt, hlt', hne, if_true, if_false,
        ih, List.cons_append]
    · have hnone : l.filter (·.yields < r) = [] := by
        refine List.filter_eq_nil_iff.mpr fun u hu => ?_
        have := hle u hu
        rw [decide_eq_true_eq]
        omega
      rw [hnone] at ih
      simpa [heq, hnone] using ih
    · have hge : ¬ t.yields < r := Nat.lt_asymm hgt
      have hgt' : ¬ t.yields < r + 1 := by omega
      have hne : ¬ t.yields = r := Nat.ne_of_gt hgt
      simp only [List.filter_cons, decide_eq_true_eq, beq_iff_eq, hge, hgt', hne, if_false, ih]

/-- Tasks in turn: for each number of turns, those that give way so often, as they were started. -/
theorem inTurn_eq {tasks : List Task} {R : Nat} (h : ∀ t ∈ tasks, t.yields < R) :
    inTurn tasks = (List.range R).flatMap fun r => tasks.filter (·.yields == r) := by
  have hperm : (inTurn tasks).Perm tasks := List.mergeSort_perm _ _
  have hsorted : (inTurn tasks).Pairwise (·.yields ≤ ·.yields) := by
    refine (List.pairwise_mergeSort (fun a b c => ?_) (fun a b => ?_) tasks).imp fun hle => ?_
    · simp only [decide_eq_true_eq]
      omega
    · simp only [Bool.or_eq_true, decide_eq_true_eq]
      omega
    · exact of_decide_eq_true hle
  -- those that give way equally often keep their order
  have hstable (r : Nat) :
      (inTurn tasks).filter (·.yields == r) = tasks.filter (·.yields == r) := by
    have hequal : (tasks.filter (·.yields == r)).Pairwise fun a b =>
        decide (a.yields ≤ b.yields) := by
      refine List.pairwise_of_forall_mem_list fun a ha b hb => ?_
      have hra := beq_iff_eq.mp (List.mem_filter.mp ha).2
      have hrb := beq_iff_eq.mp (List.mem_filter.mp hb).2
      simp [hra, hrb]
    have hsub := (List.sublist_mergeSort (fun a b c => by
      simp only [decide_eq_true_eq]; omega) (fun a b => by
      simp only [Bool.or_eq_true, decide_eq_true_eq]; omega) hequal List.filter_sublist).filter
        (·.yields == r)
    rw [List.filter_filter] at hsub
    simp only [Bool.and_self] at hsub
    exact (hsub.eq_of_length (hperm.filter _).length_eq.symm).symm
  have hparts (r : Nat) : (inTurn tasks).filter (·.yields < r) =
      (List.range r).flatMap fun r => tasks.filter (·.yields == r) := by
    induction r with
    | zero => simp
    | succ r ih => rw [filter_lt_succ hsorted, ih, hstable, List.range_succ]; simp
  rw [← hparts R, List.filter_eq_self.mpr]
  intro t ht
  exact decide_eq_true (h t (hperm.mem_iff.mp ht))

theorem settle_eq {tasks : List Task} {R : Nat} (h : ∀ t ∈ tasks, t.yields < R) :
    settle tasks = (List.range R).flatMap fun r =>
      (tasks.filter (Task.turns · == r)).filterMap Task.note? := by
  have hturns (r : Nat) : (tasks.filter (·.yields == r)).filterMap Task.note? =
      (tasks.filter (Task.turns · == r)).filterMap Task.note? := by
    simp only [List.filterMap_filter]
    refine List.filterMap_congr fun t _ => ?_
    -- one that crashes at once notes nothing in whichever turn it is put
    unfold Task.note? Task.turns
    cases t.ending <;> simp
  rw [settle, inTurn_eq h, List.filterMap_flatMap]
  simp only [hturns]

theorem settle_perm (tasks : List Task) : (settle tasks).Perm (tasks.filterMap Task.note?) :=
  (List.mergeSort_perm _ _).filterMap _

theorem filterMap_tasks (content : Event) (r : Nat) (there : List (Entry Listener)) :
    ((there.filterMap (·.listener.task? content)).filter (Task.turns · == r)).filterMap
        Task.note? =
      (there.filter (·.listener.turns == r)).filterMap (·.listener.endNote? content) := by
  simp only [List.filterMap_filter, List.filterMap_filterMap]
  refine List.filterMap_congr fun e _ => ?_
  cases e.listener with
  | direct tag actions => simp [Listener.task?, Listener.endNote?]
  | deferred tag yields ending =>
    have hturns : Task.turns ⟨tag, yields, ending, content⟩ =
        (Listener.deferred tag yields ending).turns := by cases ending <;> rfl
    simp [Listener.task?, Listener.endNote?, hturns]

/-! ## Emissions of a scripted bus -/

end ScriptedBus

/-- A listener that leaves the bus alone: it does no more than note what it hears, or it fails. -/
def Listener.idle : Listener → Bool
  | .direct _ [] => true
  | .direct _ (.fail :: _) => true
  | .direct .. => false
  | .deferred .. => true

namespace ScriptedBus

theorem perform_idle {tag : String} {actions : List Action}
    (h : (Listener.direct tag actions).idle = true) (emit : Emitter) (s : ScriptedBus) :
    perform emit actions s = some s := by
  cases actions with
  | nil => rfl
  | cons a rest =>
    cases a with
    | fail => rfl
    | _ => cases h

/-- Calling and starting listeners that leave the bus alone. -/
theorem deliver_idle (emit : Emitter) {e : Emission} (hthreaded : e.threaded = false)
    {there : List (Entry Listener)} (hidle : ∀ x ∈ there, x.listener.idle = true) (s : ScriptedBus) :
    deliver emit e there s = some (there.length, { s with
      notes := s.notes ++ there.filterMap (·.listener.note? e.content)
      tasks := s.tasks ++ there.filterMap (·.listener.task? e.content) }) := by
  induction there generalizing s with
  | nil => simp [deliver]
  | cons x there ih =>
    obtain ⟨id, listener⟩ := x
    have hrest := ih fun y hy => hidle y (List.mem_cons_of_mem _ hy)
    cases listener with
    | direct tag actions =>
      have hdone := perform_idle (hidle _ List.mem_cons_self) emit
      simp [deliver, hdone, hrest, note, Listener.note?, Listener.task?]
    | deferred tag yields ending =>
      simp [deliver, hthreaded, hrest, Listener.note?, Listener.task?]

theorem emit_idle {e : Emission} (hthreaded : e.threaded = false) {s : ScriptedBus}
    (hidle : ∀ x ∈ s.bus.listeners e.event, x.listener.idle = true) (fuel : Nat) :
    emit (fuel + 1) e s = some ((s.bus.listeners e.event).length, { s with
      bus := (s.bus.take e.event).2
      notes := s.notes ++ (s.bus.listeners e.event).filterMap (·.listener.note? e.content)
      tasks := s.tasks ++ (s.bus.listeners e.event).filterMap (·.listener.task? e.content) }) :=
  deliver_idle _ hthreaded hidle _

/-- An emission of a scripted bus that waits: it calls the listeners that act at once, and then runs
those that run later. -/
theorem emitAndWait_eq (fuel : Nat) (e : Emission) (s : ScriptedBus) :
    emitAndWait fuel e s =
      (deliver (emit fuel) e ((s.bus.listeners e.event).filter (!·.listener.later))
        { s with bus := (s.bus.take e.event).2 }).bind fun r =>
          let own := (s.bus.listeners e.event).filterMap (·.listener.task? e.content)
          let others := r.2.tasks.partition fun t => t.yields < (own.map Task.turns).foldl max 0
          some { r.2 with notes := r.2.notes ++ settle (own ++ others.1), tasks := others.2 } := by
  unfold emitAndWait
  dsimp only
  conv_lhs =>
    rw [List.filter_congr (q := fun x => !x.listener.later),
      List.filterMap_congr (g := fun x => x.listener.task? e.content)]
    · rfl
    · tactic =>
        intro x _
        cases x.listener <;> rfl
    · tactic =>
        intro x _
        cases x.listener <;> rfl
  rfl

theorem emitAndWait_idle {e : Emission} (hthreaded : e.threaded = false) {s : ScriptedBus}
    (hidle : ∀ x ∈ s.bus.listeners e.event, x.listener.idle = true) (fuel : Nat) :
    let there := s.bus.listeners e.event
    let own := there.filterMap (·.listener.task? e.content)
    let others := s.tasks.partition fun t => t.yields < (own.map Task.turns).foldl max 0
    emitAndWait fuel e s = some { s with
      bus := (s.bus.take e.event).2
      notes := s.notes ++ there.filterMap (·.listener.note? e.content) ++ settle (own ++ others.1)
      tasks := others.2 } := by
  intro there own others
  have hnotes : (there.filter (!·.listener.later)).filterMap (·.listener.note? e.content) =
      there.filterMap (·.listener.note? e.content) := by
    rw [List.filterMap_filter]
    refine List.filterMap_congr fun x _ => ?_
    cases x.listener <;> simp [Listener.later, Listener.note?]
  have htasks : (there.filter (!·.listener.later)).filterMap (·.listener.task? e.content) = [] := by
    rw [List.filterMap_filter, List.filterMap_eq_nil_iff]
    intro x _
    cases x.listener <;> simp [Listener.later, Listener.task?]
  rw [emitAndWait_eq, deliver_idle (emit fuel) hthreaded fun x hx =>
    hidle x (List.mem_of_mem_filter hx), Option.bind_some, hnotes, htasks]
  simp only [List.append_nil]
  rfl

end ScriptedBus

/-! ## Agreement -/

open Delivery in
/-- An emission that waits for its listeners, at every time: the listeners that act at once are
called first, in their order, none of the others before all of them, and it has returned only when
all others have ended. -/
theorem Delivery.awaiting_run (there : List (Entry Listener)) (moves : List Move) :
    let d := (opened .awaiting there).run moves
    (∃ calls rest, d.course = calls.map .called ++ rest ∧ (∀ m ∈ rest, m.called? = none) ∧
      calls <+: there.filter (!·.listener.later) ∧
      (rest ≠ [] → calls = there.filter (!·.listener.later))) ∧
    (d.returned = true → d.Finished ∧ d.settled.Perm (there.filter (·.listener.later))) := by
  intro d
  have htracks : d.Tracks there := tracks_run (tracks_opened .awaiting there) moves
  have hm : d.manner = .awaiting := manner_run _ moves
  refine ⟨?_, fun hreturned => ?_⟩
  · obtain ⟨calls, rest, hcourse, hrest, hnone⟩ := htracks.waits hm
    have hcalls : calls ++ d.ahead.filter (!·.listener.later) =
        there.filter (!·.listener.later) := by
      have hall := htracks.calls
      have hfirst : (calls.map Milestone.called).filterMap Milestone.called? = calls := by
        rw [List.filterMap_map]
        exact List.filterMap_some
      rw [hcourse, List.filterMap_append, List.filterMap_eq_nil_iff.mpr hrest, List.append_nil,
        hfirst] at hall
      exact hall
    refine ⟨calls, rest, hcourse, hrest, ⟨_, hcalls⟩, fun hne => ?_⟩
    have hahead : d.ahead = [] := Decidable.not_not.mp fun hahead => hne (hnone hahead)
    rw [hahead, List.filter_nil, List.append_nil] at hcalls
    exact hcalls
  · have hfinished := htracks.finished_of_returned hm hreturned
    exact ⟨hfinished, (htracks.finished (by rw [hm]; decide) hfinished).2.1⟩

open ScriptedBus Delivery in
/-- Emitting and emitting with waiting agree if the listeners leave the bus alone. On a scripted bus
both come to their ends, count the listeners there, leave the same bus and note the same, and both
are deliveries whose listeners got their turns round by round. In whatever order the turns come,
each of the listeners there is called once, and the notes are the same; a delivery that waits calls
those that act at once first, in their order, and returns only when the others have ended; and every
delivery comes to its end, however its listeners end. -/
theorem emissions_agree (s : ScriptedBus) (e : Emission) (fuel : Nat) (hthreaded : e.threaded = false)
    (hidle : ∀ x ∈ s.bus.listeners e.event, x.listener.idle = true) :
    let there := s.bus.listeners e.event
    (∃ t u, ScriptedBus.emit (fuel + 1) e s = some (there.length, t) ∧
      ScriptedBus.emitAndWait fuel e s = some u ∧ t.bus = u.bus ∧ t.subs = u.subs ∧
      (t.notes ++ settle t.tasks).Perm (u.notes ++ settle u.tasks) ∧
      (s.tasks = [] → t.notes ++ settle t.tasks = u.notes ∧ u.tasks = [] ∧
        ∀ m ≠ .bare, ∃ moves, let d := (opened m there).run moves
          d.Finished ∧ d.returned = true ∧ s.notes ++ d.notes e.content = u.notes)) ∧
    (∀ m ≠ .bare, ∀ moves, let d := (opened m there).run moves
      d.Finished → d.reached.Perm there ∧ d.settled.Perm (there.filter (·.listener.later)) ∧
        (d.notes e.content).Perm (heardBy e.content there)) ∧
    (∀ moves, let d := (opened .awaiting there).run moves
      (∃ calls rest, d.course = calls.map .called ++ rest ∧ (∀ m ∈ rest, m.called? = none) ∧
        calls <+: there.filter (!·.listener.later) ∧
        (rest ≠ [] → calls = there.filter (!·.listener.later))) ∧
      (d.returned = true → d.Finished ∧ d.settled.Perm (there.filter (·.listener.later)))) ∧
    (∀ m moves, ∃ more, let d := (opened m there).run (moves ++ more)
      d.Finished ∧ d.returned = true) := by
  intro there
  refine ⟨⟨_, _, emit_idle hthreaded hidle fuel, emitAndWait_idle hthreaded hidle fuel, rfl, rfl,
    ?_, fun hnone => ?_⟩, fun m hm moves => ?_, awaiting_run there, fun m moves => ?_⟩
  · -- whoever runs the tasks, each of them notes the same
    let own := there.filterMap (·.listener.task? e.content)
    let others := s.tasks.partition fun t => t.yields < (own.map Task.turns).foldl max 0
    have htasks : (s.tasks ++ own).Perm ((own ++ others.1) ++ others.2) := by
      rw [List.append_assoc]
      refine .trans List.perm_append_comm (.append_left own ?_)
      simp only [others, List.partition_eq_filter_filter]
      exact (List.filter_append_perm _ s.tasks).symm
    have hsettled := (settle_perm _).trans ((htasks.filterMap Task.note?).trans
      (.trans (.of_eq List.filterMap_append) ((settle_perm _).symm.append (settle_perm _).symm)))
    simp only [List.append_assoc]
    exact (hsettled.append_left _).append_left _
  · -- with so many rounds each listener has all its turns, and each task too
    let own := there.filterMap (·.listener.task? e.content)
    let most := max ((there.map (·.listener.turns)).foldr max 0) ((own.map (·.yields)).foldr max 0)
    have hturns : ∀ x ∈ there, x.listener.turns ≤ most := fun x hx =>
      le_max_of_le_left (List.le_max_of_le' 0 (List.mem_map_of_mem hx) le_rfl)
    have hyields : ∀ t ∈ own, t.yields < most + 1 := fun t ht =>
      Nat.lt_succ_of_le (le_max_of_le_right (List.le_max_of_le' 0 (List.mem_map_of_mem ht) le_rfl))
    rw [hnone]
    refine ⟨by simp, rfl, fun m hm => ?_⟩
    obtain ⟨moves, hfinished, hreturned, hnotes⟩ := exists_rounds hm there e.content hturns
    refine ⟨moves, hfinished, hreturned, ?_⟩
    have hsettled := settle_eq hyields
    simp only [own, filterMap_tasks] at hsettled
    rw [hnotes, ← hsettled, List.append_assoc]
    simp [there]
  · intro d hfinished
    have htracks : d.Tracks there := tracks_run (tracks_opened m there) moves
    have hmanner : d.manner = m := manner_run _ moves
    obtain ⟨hreached, hsettled, hnotes⟩ := htracks.finished (hmanner ▸ hm) hfinished
    exact ⟨hreached, hsettled, hnotes e.content⟩
  · obtain ⟨more, hend⟩ := (tracks_run (tracks_opened m there) moves).ends
    exact ⟨more, by rwa [run_append]⟩

def crowd : ScriptedBus :=
  [(false, Listener.direct "first" []), (false, .deferred "slow" 2 .fails),
    (false, .direct "faulty" [.fail]), (false, .deferred "gone" 1 .crashesAtOnce),
    (true, .direct "once" []), (false, .deferred "quick" 1 .crashes),
    (false, .deferred "calm" 1 .completes)].foldl
      (fun s x => (s.register "a" x.1 x.2).2) ScriptedBus.fresh

open ScriptedBus in
/-- All seven are called or started either way, and six come to note what they heard. -/
theorem crowd_agrees :
    (∀ x ∈ crowd.bus.listeners "a", x.listener.idle = true) ∧
    ∃ t u, ScriptedBus.emit 1 ⟨"a", ⟨"tick", none, .null⟩, false⟩ crowd = some (7, t) ∧
      ScriptedBus.emitAndWait 0 ⟨"a", ⟨"tick", none, .null⟩, false⟩ crowd = some u ∧
      t.bus = u.bus ∧ t.notes ++ settle t.tasks = u.notes ∧ u.notes.length = 6 := by
  have hidle : ∀ x ∈ crowd.bus.listeners "a", x.listener.idle = true := by decide
  obtain ⟨⟨t, u, ht, hu, hbus, -, -, hsame⟩, -⟩ :=
    emissions_agree crowd ⟨"a", ⟨"tick", none, .null⟩, false⟩ 0 rfl hidle
  have hcounts : (ScriptedBus.emit 1 ⟨"a", ⟨"tick", none, .null⟩, false⟩ crowd).map (fun p =>
      p.2.notes.length + (p.2.tasks.filterMap Task.note?).length) = some 6 := by decide
  rw [ht, Option.map_some, Option.some.injEq] at hcounts
  refine ⟨hidle, t, u, ht, hu, hbus, (hsame rfl).1, ?_⟩
  rw [← (hsame rfl).1, List.length_append, (settle_perm t.tasks).length_eq]
  exact hcounts

end ContainerHost.Event
