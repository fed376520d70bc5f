import ContainerHost.Proofs.Event.ConcurrentBus
/-!
# Emissions with the turns of those that run later

An emission that starts a listener which runs later does not run it: the listener goes on in turns,
which it gets when whoever runs it sees fit. `Delivery` is an emission together with the listeners
that it has started, and `act` is the next thing that happens: the emission goes on, or a listener
gets a turn. With its first turn such a listener is called; it gives way as often as it likes, notes
what it heard and ends, and one that fails or crashes ends as well.

An emission that only starts its listeners has returned when it has come to all of them, and their
turns may come at any time. One that waits for them gives them no turn before it has come to all,
and looks after those whose end it has not seen.

What is proved: `Tracks` says at every time how far all listeners have come, whatever the order of
the turns (`tracks_run`); `Tracks.finished` says what has happened in the end, and `Tracks.ends`
that every emission comes to it.

Correspondence: the tasks that `EventBus::emit` spawns and the futures that `emit_async` polls ↔
`Job`.
-/

namespace ContainerHost.Event

/-! ## Listeners that run later -/

/-- How often a listener gives way before it ends. One that crashes at once does not come to it. -/
def Listener.turns : Listener → Nat
  | .deferred _ _ .crashesAtOnce => 0
  | .deferred _ yields _ => yields
  | .direct .. => 0

def Listener.task? (content : Event) : Listener → Option Task
  | .deferred tag yields ending => some ⟨tag, yields, ending, content⟩
  | .direct .. => none

/-- What a listener notes when it is called at once. -/
def Listener.note? (content : Event) : Listener → Option Note
  | .direct tag _ => some (.heard tag content)
  | .deferred .. => none

/-- What a listener that runs later notes before it ends. -/
def Listener.endNote? (content : Event) (l : Listener) : Option Note :=
  (l.task? content).bind ScriptedBus.Task.note?

/-- How far a listener has come that was started. -/
inductive Progress where
  | fresh
  | giving (turns : Nat)
  | ended
  deriving DecidableEq

/-- A listener that was started. -/
structure Job where
  entry : Entry Listener
  progress : Progress

/-- What happens to listeners: one that acts at once is called, one that runs later is called with
its first turn, and one that runs later has ended. -/
inductive Milestone where
  | called (e : Entry Listener)
  | begun (e : Entry Listener)
  | settled (e : Entry Listener)

namespace Milestone

def called? : Milestone → Option (Entry Listener)
  | called e => some e
  | _ => none

/-- The listener that was called with its first turn. -/
def begun? : Milestone → Option (Entry Listener)
  | begun e => some e
  | _ => none

def settled? : Milestone → Option (Entry Listener)
  | settled e => some e
  | _ => none

def reached? : Milestone → Option (Entry Listener)
  | called e => some e
  | begun e => some e
  | settled _ => none

/-- What is noted then. -/
def note? (content : Event) : Milestone → Option Note
  | called e => e.listener.note? content
  | begun _ => none
  | settled e => e.listener.endNote? content

end Milestone

namespace Job

def hasBegun (j : Job) : Bool := j.progress != .fresh

def hasEnded (j : Job) : Bool := j.progress == .ended

/-- The listener goes on: it gives way, or it comes to its end, by itself or by a crash. -/
def proceed (j : Job) : Nat → List Milestone × Job
  | 0 => ([.settled j.entry], { j with progress := .ended })
  | n + 1 => ([], { j with progress := .giving n })

def turn (j : Job) : List Milestone × Job :=
  match j.progress with
  | .fresh =>
    let (ms, j') := j.proceed j.entry.listener.turns
    (.begun j.entry :: ms, j')
  | .giving n => j.proceed n
  | .ended => ([], j)

def left (j : Job) : Nat :=
  match j.progress with
  | .fresh => j.entry.listener.turns + 1
  | .giving n => n + 1
  | .ended => 0

structure Turned (j : Job) (ms : List Milestone) (j' : Job) : Prop where
  entry : j'.entry = j.entry
  begun : j'.hasBegun = true
  called : ms.filterMap Milestone.called? = []
  begins : ms.filterMap Milestone.begun? = if !j.hasBegun then [j.entry] else []
  settles : ms.filterMap Milestone.settled? = if j'.hasEnded && !j.hasEnded then [j.entry] else []
  left : j'.left = j.left - 1

theorem turn_spec (j : Job) : j.Turned j.turn.1 j.turn.2 := by
  obtain ⟨entry, progress⟩ := j
  cases progress with
  | fresh =>
    cases hturns : entry.listener.turns with
    | zero =>
      simp only [turn, hturns, proceed]
      exact ⟨rfl, rfl, rfl, rfl, rfl, by simp [left, hturns]⟩
    | succ n =>
      simp only [turn, hturns, proceed]
      exact ⟨rfl, rfl, rfl, rfl, rfl, by simp [left, hturns]⟩
  | giving n => cases n <;> exact ⟨rfl, rfl, rfl, rfl, rfl, rfl⟩
  | ended => exact ⟨rfl, rfl, rfl, rfl, rfl, rfl⟩

theorem left_eq_zero {j : Job} : j.left = 0 ↔ j.hasEnded = true := by
  obtain ⟨entry, progress⟩ := j
  cases progress <;> simp [left, hasEnded]

/-- What has ended stays so. -/
theorem Turned.ended {j j' : Job} {ms : List Milestone} (h : j.Turned ms j')
    (hended : j.hasEnded = true) : j'.hasEnded = true := by
  have hzero : j.left = 0 := left_eq_zero.mpr hended
  exact left_eq_zero.mp (by rw [h.left, hzero])

theorem Turned.entries {j j' : Job} {ms : List Milestone} (h : j.Turned ms j') {jobs : List Job}
    {i : Nat} (hj : jobs[i]? = some j) :
    (jobs.set i j').map (·.entry) = jobs.map (·.entry) := by
  have hget : (jobs.map (·.entry))[i]? = some j.entry := by
    rw [List.getElem?_map, hj]
    rfl
  obtain ⟨hlt, hentry⟩ := List.getElem?_eq_some_iff.mp hget
  rw [List.map_set, h.entry, ← hentry]
  exact List.set_getElem_self hlt

theorem hasBegun_of_hasEnded {j : Job} (h : j.hasEnded = true) : j.hasBegun = true := by
  unfold hasEnded at h
  unfold hasBegun
  rw [beq_iff_eq.mp h]
  rfl

end Job

/-! ## Deliveries -/

/-- An emission: the listeners that it has not come to, those that it has started, the numbers of
those whose end it waits for, whether it has returned, and what has happened to listeners. -/
structure Delivery where
  manner : Manner
  ahead : List (Entry Listener)
  jobs : List Job
  awaited : List Nat
  returned : Bool
  course : List Milestone

namespace Delivery

/-- What happens next: the emission goes on, or a listener gets a turn. -/
inductive Move where
  | goOn
  | turn (i : Nat)

/-- An emission that has just taken the listeners there. -/
def opened (m : Manner) (there : List (Entry Listener)) : Delivery := ⟨m, there, [], [], false, []⟩

/-- The emission comes to its next listener, or returns if it has none left and waits for none. -/
def goOn (d : Delivery) : Delivery :=
  match d.ahead with
  | [] => { d with returned := d.awaited.isEmpty }
  | e :: ahead =>
    match e.listener.later, d.manner with
    | false, _ => { d with ahead := ahead, course := d.course ++ [.called e] }
    | true, .bare => { d with ahead := ahead }
    | true, .starting => { d with ahead := ahead, jobs := d.jobs ++ [⟨e, .fresh⟩] }
    | true, .awaiting =>
      { d with
        ahead := ahead
        jobs := d.jobs ++ [⟨e, .fresh⟩]
        awaited := d.awaited ++ [d.jobs.length] }

/-- A listener may get a turn. An emission that waits gives the turns itself: when it has come to
all listeners, to those whose end it has not seen. -/
def mayTurn (d : Delivery) (i : Nat) : Bool :=
  match d.manner with
  | .awaiting => d.ahead.isEmpty && d.awaited.contains i
  | .starting | .bare => true

theorem mayTurn_of_awaiting {d : Delivery} (h : d.manner = .awaiting) {i : Nat} :
    d.mayTurn i = true ↔ d.ahead = [] ∧ i ∈ d.awaited := by
  simp only [mayTurn, h, Bool.and_eq_true, List.isEmpty_iff, List.contains_iff_mem]

/-- A listener gets a turn. -/
def turn (d : Delivery) (i : Nat) : Delivery :=
  match d.jobs[i]? with
  | none => d
  | some j =>
    if d.mayTurn i then
      { d with
        jobs := d.jobs.set i j.turn.2
        awaited := if j.turn.2.hasEnded then d.awaited.filter (· != i) else d.awaited
        course := d.course ++ j.turn.1 }
    else d

def act (d : Delivery) : Move → Delivery
  | .goOn => d.goOn
  | .turn i => d.turn i

/-- Things happen one after the other. -/
def run (d : Delivery) (moves : List Move) : Delivery := moves.foldl act d

@[simp] theorem run_nil (d : Delivery) : d.run [] = d := rfl

@[simp] theorem run_cons (d : Delivery) (m : Move) (ms : List Move) :
    d.run (m :: ms) = (d.act m).run ms := rfl

theorem run_append (d : Delivery) (ms ns : List Move) : d.run (ms ++ ns) = (d.run ms).run ns :=
  List.foldl_append

/-- The emission has come to all listeners, and those that it has started have ended. -/
def Finished (d : Delivery) : Prop := d.ahead = [] ∧ ∀ j ∈ d.jobs, j.hasEnded = true

/-- The listeners that were called, in order. -/
def reached (d : Delivery) : List (Entry Listener) := d.course.filterMap Milestone.reached?

/-- The listeners that have ended, in order. -/
def settled (d : Delivery) : List (Entry Listener) := d.course.filterMap Milestone.settled?

def notes (d : Delivery) (content : Event) : List Note :=
  d.course.filterMap (Milestone.note? content)

theorem goOn_nil {d : Delivery} (h : d.ahead = []) :
    d.goOn = { d with returned := d.awaited.isEmpty } := by
  simp only [goOn, h]

theorem turn_eq {d : Delivery} {i : Nat} {j : Job} (hj : d.jobs[i]? = some j)
    (hmay : d.mayTurn i = true) :
    d.turn i = { d with
      jobs := d.jobs.set i j.turn.2
      awaited := if j.turn.2.hasEnded then d.awaited.filter (· != i) else d.awaited
      course := d.course ++ j.turn.1 } := by
  simp only [turn, hj, hmay, if_true]

/-- Either a listener gets a turn, or nothing happens. -/
theorem turn_cases (d : Delivery) (i : Nat) :
    d.turn i = d ∨ ∃ j, d.jobs[i]? = some j ∧ d.mayTurn i = true := by
  cases hj : d.jobs[i]? with
  | none =>
    left
    simp only [turn, hj]
  | some j =>
    cases hmay : d.mayTurn i with
    | false =>
      left
      simp [turn, hj, hmay]
    | true => exact .inr ⟨j, rfl, rfl⟩

/-! ## What is so at every time -/

/-- How far an emission of the listeners there has come. -/
structure Tracks (there : List (Entry Listener)) (d : Delivery) : Prop where
  calls : d.course.filterMap Milestone.called? ++ d.ahead.filter (!·.listener.later) =
    there.filter (!·.listener.later)
  jobs : d.manner ≠ .bare → d.jobs.map (·.entry) ++ d.ahead.filter (·.listener.later) =
    there.filter (·.listener.later)
  begun : (d.course.filterMap Milestone.begun?).Perm ((d.jobs.filter Job.hasBegun).map (·.entry))
  settled : d.settled.Perm ((d.jobs.filter Job.hasEnded).map (·.entry))
  awaits : ∀ i, i ∈ d.awaited ↔
    d.manner = .awaiting ∧ ∃ j, d.jobs[i]? = some j ∧ j.hasEnded = false
  waits : d.manner = .awaiting → ∃ (calls : List (Entry Listener)) (rest : List Milestone),
    d.course = calls.map .called ++ rest ∧
    (∀ m ∈ rest, m.called? = none) ∧ (d.ahead ≠ [] → rest = [])
  returns : d.returned = true → d.ahead = [] ∧ d.awaited = []

variable {there : List (Entry Listener)} {d : Delivery} {m : Manner}

theorem tracks_opened (m : Manner) (there : List (Entry Listener)) :
    (opened m there).Tracks there :=
  ⟨rfl, fun _ => rfl, .nil, .nil, fun i => by simp [opened],
    fun _ => ⟨[], [], rfl, by simp, fun _ => rfl⟩, fun h => by cases h⟩

theorem Tracks.not_returned (h : d.Tracks there) {e : Entry Listener}
    {ahead : List (Entry Listener)} (hahead : d.ahead = e :: ahead) : d.returned ≠ true := by
  intro hr
  have hnil := (h.returns hr).1
  rw [hahead] at hnil
  cases hnil

/-- An emission comes to a listener that acts at once. -/
theorem Tracks.call (h : d.Tracks there) {e : Entry Listener} {ahead : List (Entry Listener)}
    (hahead : d.ahead = e :: ahead) (hlater : e.listener.later = false) :
    Tracks there { d with ahead := ahead, course := d.course ++ [.called e] } := by
  have hreturned : d.returned ≠ true := h.not_returned hahead
  refine ⟨?_, ?_, ?_, ?_, h.awaits, ?_, fun hr => absurd hr hreturned⟩
  · have hcalls := h.calls
    rw [hahead, List.filter_cons_of_pos (by simp [hlater])] at hcalls
    rw [List.filterMap_append, List.append_assoc]
    exact hcalls
  · intro hm
    have hjobs := h.jobs hm
    rw [hahead, List.filter_cons_of_neg (by simp [hlater])] at hjobs
    exact hjobs
  · rw [List.filterMap_append]
    exact (List.append_nil _).symm ▸ h.begun
  · show (List.filterMap _ _).Perm _
    rw [List.filterMap_append]
    exact (List.append_nil _).symm ▸ h.settled
  · intro hm
    obtain ⟨calls, rest, hcourse, -, hnone⟩ := h.waits hm
    have hrest : rest = [] := hnone (by simp [hahead])
    refine ⟨calls ++ [e], [], ?_, by simp, fun _ => rfl⟩
    simp [hcourse, hrest]

/-- An emission comes to a listener that runs later, and starts it. -/
theorem Tracks.start (h : d.Tracks there) {e : Entry Listener} {ahead : List (Entry Listener)}
    (hahead : d.ahead = e :: ahead) (hlater : e.listener.later = true) {awaited : List Nat}
    (hawaited : ∀ i, i ∈ awaited ↔ i ∈ d.awaited ∨ d.manner = .awaiting ∧ i = d.jobs.length) :
    Tracks there
      { d with ahead := ahead, jobs := d.jobs ++ [⟨e, .fresh⟩], awaited := awaited } := by
  have hreturned : d.returned ≠ true := h.not_returned hahead
  have hfresh (p : Job → Bool) (hp : p ⟨e, .fresh⟩ = false) :
      (d.jobs ++ [(⟨e, .fresh⟩ : Job)]).filter p = d.jobs.filter p := by
    rw [List.filter_append, List.filter_cons_of_neg (by simp [hp])]
    exact List.append_nil _
  refine ⟨?_, ?_, ?_, ?_, ?_, ?_, fun hr => absurd hr hreturned⟩
  · have hcalls := h.calls
    rw [hahead, List.filter_cons_of_neg (by simp [hlater])] at hcalls
    exact hcalls
  · intro hm
    have hjobs := h.jobs hm
    rw [hahead, List.filter_cons_of_pos (by exact hlater)] at hjobs
    rw [List.map_append, List.append_assoc]
    exact hjobs
  · rw [hfresh Job.hasBegun rfl]
    exact h.begun
  · rw [hfresh Job.hasEnded rfl]
    exact h.settled
  · intro i
    rw [hawaited, h.awaits]
    rcases Nat.lt_trichotomy i d.jobs.length with hlt | heq | hgt
    · rw [List.getElem?_append_left hlt]
      exact or_iff_left fun hnew => by omega
    · rw [heq, List.getElem?_concat_length, List.getElem?_eq_none (Nat.le_refl _)]
      simp [Job.hasEnded]
    · rw [List.getElem?_eq_none (Nat.le_of_lt hgt), List.getElem?_eq_none (by simp; omega)]
      simp [Nat.ne_of_gt hgt]
  · intro hm
    obtain ⟨calls, rest, hcourse, hrest, hnone⟩ := h.waits hm
    exact ⟨calls, rest, hcourse, hrest, fun _ => hnone (by simp [hahead])⟩

/-- An emission passes over a listener that runs later. -/
theorem Tracks.pass (h : d.Tracks there) {e : Entry Listener} {ahead : List (Entry Listener)}
    (hahead : d.ahead = e :: ahead) (hlater : e.listener.later = true) (hm : d.manner = .bare) :
    Tracks there { d with ahead := ahead } := by
  refine ⟨?_, fun hne => absurd hm hne, h.begun, h.settled, h.awaits, ?_,
    fun hr => absurd hr (h.not_returned hahead)⟩
  · have hcalls := h.calls
    rw [hahead, List.filter_cons_of_neg (by simp [hlater])] at hcalls
    exact hcalls
  · intro hawaiting
    rw [hm] at hawaiting
    cases hawaiting

theorem Tracks.goOn (h : d.Tracks there) : d.goOn.Tracks there := by
  cases hahead : d.ahead with
  | nil =>
    rw [goOn_nil hahead]
    exact ⟨h.calls, h.jobs, h.begun, h.settled, h.awaits, h.waits,
      fun hr => ⟨hahead, List.isEmpty_iff.mp hr⟩⟩
  | cons e ahead =>
    unfold Delivery.goOn
    simp only [hahead]
    split
    · rename_i hlater
      exact h.call hahead hlater
    · rename_i hlater hm
      exact h.pass hahead hlater hm
    · rename_i hlater hm
      exact h.start hahead hlater fun i => by simp [hm]
    · rename_i hlater hm
      exact h.start hahead hlater fun i => by simp [hm]

/-- A listener that comes to be of some kind is added to those of that kind. -/
theorem perm_filter_set (p : Job → Bool) {l : List Job} {i : Nat} {j j' : Job}
    (hj : l[i]? = some j) (hentry : j'.entry = j.entry) (hp : p j = true → p j' = true) :
    (((l.set i j').filter p).map (·.entry)).Perm
      ((l.filter p).map (·.entry) ++ if p j' && !p j then [j.entry] else []) := by
  induction l generalizing i with
  | nil => cases hj
  | cons x l ih =>
    cases i with
    | zero =>
      cases hj
      rw [List.set_cons_zero, List.filter_cons, List.filter_cons]
      cases hold : p j with
      | true => simp [hp hold, hentry]
      | false =>
        cases hnew : p j' with
        | false => simp
        | true => simpa [hentry] using (List.perm_append_singleton j.entry _).symm
    | succ i =>
      have hrest := ih hj
      rw [List.set_cons_succ, List.filter_cons, List.filter_cons]
      cases p x with
      | false => exact hrest
      | true => exact hrest.cons x.entry

/-- The jobs that are waited for after a turn: one that has ended is no longer among them. -/
theorem Tracks.turn_awaits (h : d.Tracks there) {i : Nat} {j : Job} (hj : d.jobs[i]? = some j)
    (k : Nat) :
    k ∈ (if j.turn.2.hasEnded then d.awaited.filter (· != i) else d.awaited) ↔
      d.manner = .awaiting ∧
        ∃ j', (d.jobs.set i j.turn.2)[k]? = some j' ∧ j'.hasEnded = false := by
  have hi : i < d.jobs.length := (List.getElem?_eq_some_iff.mp hj).1
  by_cases hk : k = i
  · subst hk
    rw [List.getElem?_set_self hi]
    cases hended : j.turn.2.hasEnded with
    | true => simp [hended]
    | false =>
      have hold : j.hasEnded = false := by
        rw [← Bool.not_eq_true] at hended ⊢
        exact fun hold => hended (j.turn_spec.ended hold)
      simp [hended, hold, hj, h.awaits]
  · rw [List.getElem?_set_ne (Ne.symm hk), ← h.awaits]
    split
    · simp [hk]
    · rfl

theorem Tracks.turn (h : d.Tracks there) (i : Nat) : (d.turn i).Tracks there := by
  rcases d.turn_cases i with hsame | ⟨j, hj, hmay⟩
  · rw [hsame]
    exact h
  · have hturned := j.turn_spec
    rw [turn_eq hj hmay]
    refine ⟨?_, ?_, ?_, ?_, h.turn_awaits hj, ?_, ?_⟩
    · rw [List.filterMap_append, hturned.called, List.append_nil]
      exact h.calls
    · intro hm
      rw [hturned.entries hj]
      exact h.jobs hm
    · have hset := perm_filter_set Job.hasBegun hj hturned.entry fun _ => hturned.begun
      rw [List.filterMap_append, hturned.begins]
      refine .trans (h.begun.append_right _) (.trans (.of_eq ?_) hset.symm)
      rw [hturned.begun, Bool.true_and]
    · have hset := perm_filter_set Job.hasEnded hj hturned.entry hturned.ended
      show (List.filterMap _ _).Perm _
      rw [List.filterMap_append, hturned.settles]
      exact (h.settled.append_right _).trans hset.symm
    · intro hm
      obtain ⟨calls, rest, hcourse, hrest, -⟩ := h.waits hm
      have hnil : d.ahead = [] := ((mayTurn_of_awaiting (d := d) hm).mp hmay).1
      refine ⟨calls, rest ++ j.turn.1, ?_, ?_, fun hne => absurd hnil hne⟩
      · rw [hcourse, List.append_assoc]
      · intro x hx
        rcases List.mem_append.mp hx with hx | hx
        · exact hrest x hx
        · exact List.filterMap_eq_nil_iff.mp hturned.called x hx
    · intro hr
      obtain ⟨hahead, hawaited⟩ := h.returns hr
      refine ⟨hahead, ?_⟩
      split
      · rw [hawaited]
        rfl
      · exact hawaited

theorem Tracks.act (h : d.Tracks there) (move : Move) : (d.act move).Tracks there := by
  cases move with
  | goOn => exact h.goOn
  | turn i => exact h.turn i

theorem tracks_run (h : d.Tracks there) (moves : List Move) : (d.run moves).Tracks there := by
  induction moves generalizing d with
  | nil => exact h
  | cons move moves ih => exact ih (h.act move)

/-! ## The end -/

/-- An emission that has returned and waits for its listeners has seen them all end. -/
theorem Tracks.finished_of_returned (h : d.Tracks there) (hm : d.manner = .awaiting)
    (hreturned : d.returned = true) : d.Finished := by
  obtain ⟨hahead, hawaited⟩ := h.returns hreturned
  refine ⟨hahead, fun j hj => ?_⟩
  obtain ⟨i, hi⟩ := List.getElem?_of_mem hj
  cases hended : j.hasEnded with
  | true => rfl
  | false =>
    have hmem := (h.awaits i).mpr ⟨hm, j, hi, hended⟩
    rw [hawaited] at hmem
    cases hmem

/-- Those that were called are those that were called at once and those that had a first turn. -/
theorem perm_reached (course : List Milestone) :
    (course.filterMap Milestone.reached?).Perm
      (course.filterMap Milestone.called? ++ course.filterMap Milestone.begun?) := by
  induction course with
  | nil => exact .nil
  | cons m course ih =>
    cases m with
    | called e => exact ih.cons e
    | begun e => exact (ih.cons e).trans List.perm_middle.symm
    | settled e => exact ih

/-- What is noted is noted by those that were called at once and by those that have ended. -/
theorem perm_notes (content : Event) (course : List Milestone) :
    (course.filterMap (Milestone.note? content)).Perm
      ((course.filterMap Milestone.called?).filterMap (·.listener.note? content) ++
        (course.filterMap Milestone.settled?).filterMap (·.listener.endNote? content)) := by
  induction course with
  | nil => exact .nil
  | cons m course ih =>
    cases m with
    | called e =>
      simp only [List.filterMap_cons, Milestone.note?, Milestone.called?, Milestone.settled?]
      cases e.listener.note? content with
      | none => exact ih
      | some n => exact ih.cons n
    | begun e => exact ih
    | settled e =>
      simp only [List.filterMap_cons, Milestone.note?, Milestone.called?, Milestone.settled?]
      cases e.listener.endNote? content with
      | none => exact ih
      | some n => exact (ih.cons n).trans List.perm_middle.symm

/-- What the listeners there note when they hear something: those that act at once, and those that
run later. -/
def heardBy (content : Event) (there : List (Entry Listener)) : List Note :=
  (there.filter (!·.listener.later)).filterMap (·.listener.note? content) ++
    (there.filter (·.listener.later)).filterMap (·.listener.endNote? content)

/-- In the end each of the listeners there was called once, those that run later have ended, and all
have noted what they note. -/
theorem Tracks.finished (h : d.Tracks there) (hm : d.manner ≠ .bare) (hfinished : d.Finished) :
    d.reached.Perm there ∧ d.settled.Perm (there.filter (·.listener.later)) ∧
      ∀ content, (d.notes content).Perm (heardBy content there) := by
  obtain ⟨hahead, hended⟩ := hfinished
  have hcalls := h.calls
  have hjobs := h.jobs hm
  have hbegun := h.begun
  have hsettled := h.settled
  rw [hahead, List.filter_nil, List.append_nil] at hcalls hjobs
  rw [List.filter_eq_self.mpr fun j hj => Job.hasBegun_of_hasEnded (hended j hj), hjobs] at hbegun
  rw [List.filter_eq_self.mpr hended, hjobs] at hsettled
  refine ⟨?_, hsettled, fun content => ?_⟩
  · have hsplit := List.filter_append_perm (fun x : Entry Listener => !x.listener.later) there
    simp only [Bool.not_not] at hsplit
    refine .trans (perm_reached d.course) (.trans ?_ hsplit)
    rw [hcalls]
    exact hbegun.append_left _
  · refine .trans (perm_notes content d.course) ?_
    rw [hcalls]
    exact (hsettled.filterMap _).append_left _

/-- How much an emission has left to do at most. -/
def left (d : Delivery) : Nat :=
  (d.ahead.map fun e => e.listener.turns + 2).sum + (d.jobs.map Job.left).sum +
    if d.returned then 0 else 1

theorem sum_left_set {l : List Job} {i : Nat} {j : Job} (hj : l[i]? = some j) (j' : Job) :
    ((l.set i j').map Job.left).sum + j.left = (l.map Job.left).sum + j'.left := by
  induction l generalizing i with
  | nil => cases hj
  | cons x l ih =>
    cases i with
    | zero =>
      cases hj
      simp only [List.set_cons_zero, List.map_cons, List.sum_cons]
      omega
    | succ i =>
      have hrest := ih hj
      simp only [List.set_cons_succ, List.map_cons, List.sum_cons]
      omega

/-- As long as an emission has not returned or has listeners that go on, something can happen that
brings it nearer to its end. -/
theorem Tracks.goes_on (h : d.Tracks there) :
    (d.Finished ∧ d.returned = true) ∨ ∃ move, (d.act move).left < d.left := by
  cases hahead : d.ahead with
  | cons e ahead =>
    refine .inr ⟨.goOn, ?_⟩
    simp only [Delivery.act, Delivery.goOn, hahead]
    split <;> simp only [left, hahead, List.map_cons, List.sum_cons, List.map_append,
      List.sum_append, List.map_nil, List.sum_nil, Job.left] <;> omega
  | nil =>
    by_cases hended : ∀ j ∈ d.jobs, j.hasEnded = true
    · cases hreturned : d.returned with
      | true => exact .inl ⟨⟨hahead, hended⟩, rfl⟩
      | false =>
        -- nobody is waited for who has ended
        have hawaited : d.awaited = [] := by
          refine List.eq_nil_iff_forall_not_mem.mpr fun i hi => ?_
          obtain ⟨-, j, hj, hgoing⟩ := (h.awaits i).mp hi
          rw [hended j (List.mem_of_getElem? hj)] at hgoing
          cases hgoing
        refine .inr ⟨.goOn, ?_⟩
        simp [Delivery.act, goOn_nil hahead, left, hawaited, hreturned]
    · simp only [not_forall] at hended
      obtain ⟨j, hj, hgoing⟩ := hended
      obtain ⟨i, hi⟩ := List.getElem?_of_mem hj
      rw [Bool.not_eq_true] at hgoing
      have hmay : d.mayTurn i = true := by
        cases hm : d.manner with
        | awaiting =>
          exact (mayTurn_of_awaiting hm).mpr ⟨hahead, (h.awaits i).mpr ⟨hm, j, hi, hgoing⟩⟩
        | starting => simp only [mayTurn, hm]
        | bare => simp only [mayTurn, hm]
      refine .inr ⟨.turn i, ?_⟩
      have hpos : j.left ≠ 0 := fun hzero => by
        rw [Job.left_eq_zero, hgoing] at hzero
        cases hzero
      have hsum := sum_left_set hi j.turn.2
      have hleft := j.turn_spec.left
      simp only [Delivery.act, turn_eq hi hmay, left]
      omega

/-- Every emission comes to its end. -/
theorem Tracks.ends (h : d.Tracks there) :
    ∃ moves, (d.run moves).Finished ∧ (d.run moves).returned = true := by
  induction hn : d.left using Nat.strongRecOn generalizing d with
  | ind n ih =>
    rcases h.goes_on with hdone | ⟨move, hless⟩
    · exact ⟨[], hdone⟩
    · obtain ⟨moves, hend⟩ := ih _ (hn ▸ hless) (h.act move) rfl
      exact ⟨move :: moves, hend⟩

theorem manner_act (d : Delivery) (move : Move) : (d.act move).manner = d.manner := by
  cases move with
  | goOn =>
    simp only [act, goOn]
    split
    · rfl
    · split <;> rfl
  | turn i =>
    rcases d.turn_cases i with hsame | ⟨j, hj, hmay⟩
    · simp only [act, hsame]
    · simp only [act, turn_eq hj hmay]

theorem manner_run (d : Delivery) (moves : List Move) : (d.run moves).manner = d.manner := by
  induction moves generalizing d with
  | nil => rfl
  | cons move moves ih => exact (ih (d.act move)).trans (d.manner_act move)

end Delivery
end ContainerHost.Event
