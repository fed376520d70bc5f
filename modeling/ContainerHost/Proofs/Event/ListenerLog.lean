import ContainerHost.Proofs.Event.ConcurrentBus
import Mathlib.Data.List.Nodup
/-!
# Who listens

The log says who is registered, in the order of registration, by what was done with the bus and
without a look at it (`ListenerLog.after`). The bus has exactly those that the log has (`Agrees`). A
listener that is called once is taken off the log by the first emission of its event, so that it
is nowhere twice: on the log, ahead of an emission, or among the calls (`Single`).
-/

namespace ContainerHost.Event

/-! ## The listeners of the bus -/

namespace Bus

variable {α : Type}

/-- The listeners of an event that stay, or those that are called once. -/
def listed (b : Bus α) (once : Bool) (event : String) : List (Entry α) :=
  entriesOf (if once then b.once else b.persistent) event

theorem listeners_eq (b : Bus α) (event : String) :
    b.listeners event = b.listed false event ++ b.listed true event := rfl

theorem entriesOf_append (t : Table (List (Entry α))) (event event' : String) (e : Entry α) :
    entriesOf (append t event e) event' =
      entriesOf t event' ++ if event = event' then [e] else [] := by
  unfold append entriesOf
  rw [Table.get?_insert]
  by_cases h : event = event'
  · subst h
    simp
  · simp [h]

theorem entriesOf_erase (t : Table (List (Entry α))) (event event' : String) :
    entriesOf (t.erase event) event' = if event = event' then [] else entriesOf t event' := by
  unfold entriesOf
  rw [Table.get?_erase]
  by_cases h : event = event' <;> simp [h]

theorem entriesOf_setEntries (t : Table (List (Entry α))) (event event' : String)
    (l : List (Entry α)) :
    entriesOf (setEntries t event l) event' = if event = event' then l else entriesOf t event' := by
  unfold setEntries
  split
  · rename_i hempty
    rw [entriesOf_erase, List.isEmpty_iff.mp hempty]
  · unfold entriesOf
    rw [Table.get?_insert]
    by_cases h : event = event' <;> simp [h]

theorem listed_register (b : Bus α) (event event' : String) (once once' : Bool) (l : α) :
    (b.register event once l).2.listed once' event' =
      b.listed once' event' ++ if event = event' ∧ once = once' then [⟨b.nextId, l⟩] else [] := by
  cases once <;> cases once' <;> simp [register, listed, entriesOf_append]

/-- A filter that looks at no entry keeps all or none of them. -/
theorem filter_const (c : Bool) (l : List α) : l.filter (fun _ => c) = if c then l else [] := by
  cases c
  · exact List.filter_false l
  · exact List.filter_true l

theorem listed_off (b : Bus α) (event event' : String) (id : Nat) (once : Bool) :
    (b.off event id).2.listed once event' =
      (b.listed once event').filter fun e => !(event' == event && e.id == id) := by
  by_cases h : event' = event
  · subst h
    simp only [beq_self_eq_true, Bool.true_and]
    unfold off
    split
    · cases once <;> simp [listed, entriesOf_setEntries, bne]
    · rename_i hany
      -- nobody there has the id
      symm
      rw [List.filter_eq_self]
      intro e he
      simp only [List.any_eq_true, not_exists, not_and] at hany
      have hmem : e ∈ b.listeners event' := by
        rw [listeners_eq, List.mem_append]
        cases once
        · exact .inl he
        · exact .inr he
      rw [Bool.not_eq_true']
      exact Bool.eq_false_iff.mpr (hany e hmem)
  · have hne : (event' == event) = false := beq_eq_false_iff_ne.mpr h
    simp only [hne, Bool.false_and, Bool.not_false, List.filter_true]
    unfold off
    split
    · cases once <;> simp [listed, entriesOf_setEntries, Ne.symm h]
    · rfl

theorem listed_take (b : Bus α) (event event' : String) (once : Bool) :
    (b.take event).2.listed once event' =
      (b.listed once event').filter fun _ => !(event' == event && once) := by
  rw [filter_const]
  by_cases h : event' = event
  · cases once <;> simp [take, listed, entriesOf_erase, h]
  · cases once <;> simp [take, listed, entriesOf_erase, h, Ne.symm h]

theorem listed_removeAll (b : Bus α) (event : Option String) (event' : String) (once : Bool) :
    (b.removeAll event).listed once event' =
      (b.listed once event').filter fun _ => !event.all (· == event') := by
  rw [filter_const]
  cases event with
  | none => cases once <;> rfl
  | some event =>
    by_cases h : event = event' <;> cases once <;> simp [removeAll, listed, entriesOf_erase, h]

end Bus

/-! ## The log -/

/-- A registration: for which event, whether for one call only, and of whom. -/
structure Registration where
  event : String
  once : Bool
  entry : Entry Listener

/-- All registrations that there were, and those that hold, in the order in which they were made. -/
structure ListenerLog where
  enrolled : List Registration
  here : List Registration

namespace ListenerLog

def opened : ListenerLog := ⟨[], []⟩

def enroll (log : ListenerLog) (p : Registration) : ListenerLog :=
  ⟨log.enrolled ++ [p], log.here ++ [p]⟩

/-- Only some registrations hold any longer. -/
def keep (log : ListenerLog) (kept : Registration → Bool) : ListenerLog :=
  { log with here := log.here.filter kept }

/-- What is done with the bus changes the log; an emission of an event ends the registrations that
are for one call. -/
def act (log : ListenerLog) : BusStep → ListenerLog
  | .listen a once l => log.enroll ⟨a.name, once, ⟨log.enrolled.length + 1, l⟩⟩
  | .off a id => log.keep fun p => !(p.event == a.name && p.entry.id == id)
  | .removeAll event => log.keep fun p => !event.all (· == p.event)
  | .emit a _ _ => log.keep fun p => !(p.event == a.name && p.once)
  | .goOn _ => log

def after (steps : List BusStep) : ListenerLog := steps.foldl act opened

def listed (log : ListenerLog) (once : Bool) (event : String) : List (Entry Listener) :=
  (log.here.filter fun p => p.event == event && p.once == once).map (·.entry)

/-- The listeners of an event: those that stay, and then those that are called once. -/
def listeners (log : ListenerLog) (event : String) : List (Entry Listener) :=
  log.listed false event ++ log.listed true event

variable {log : ListenerLog}

theorem listed_enroll (log : ListenerLog) (p : Registration) (once : Bool) (event : String) :
    (log.enroll p).listed once event =
      log.listed once event ++ if p.event = event ∧ p.once = once then [p.entry] else [] := by
  unfold enroll listed
  rw [List.filter_append, List.map_append]
  by_cases h : p.event = event ∧ p.once = once <;> simp [h]

theorem mem_listed {e : Entry Listener} {once : Bool} {event : String} :
    e ∈ log.listed once event ↔
      ∃ p ∈ log.here, p.event = event ∧ p.once = once ∧ p.entry = e := by
  simp only [listed, List.mem_map, List.mem_filter, Bool.and_eq_true, beq_iff_eq]
  constructor
  · rintro ⟨p, ⟨hp, hevent, honce⟩, rfl⟩
    exact ⟨p, hp, hevent, honce, rfl⟩
  · rintro ⟨p, hp, hevent, honce, rfl⟩
    exact ⟨p, ⟨hp, hevent, honce⟩, rfl⟩

theorem mem_listeners {e : Entry Listener} {event : String} :
    e ∈ log.listeners event ↔ ∃ p ∈ log.here, p.event = event ∧ p.entry = e := by
  rw [listeners, List.mem_append, mem_listed, mem_listed]
  constructor
  · rintro (⟨p, hp, hevent, -, rfl⟩ | ⟨p, hp, hevent, -, rfl⟩)
    · exact ⟨p, hp, hevent, rfl⟩
    · exact ⟨p, hp, hevent, rfl⟩
  · rintro ⟨p, hp, hevent, rfl⟩
    cases honce : p.once with
    | false => exact .inl ⟨p, hp, hevent, honce, rfl⟩
    | true => exact .inr ⟨p, hp, hevent, honce, rfl⟩

structure Agrees (log : ListenerLog) (b : Bus Listener) : Prop where
  listed : ∀ once event, b.listed once event = log.listed once event
  nextId : b.nextId = log.enrolled.length + 1

theorem agrees_opened : opened.Agrees .empty := ⟨fun once event => by cases once <;> rfl, rfl⟩

theorem Agrees.listeners {b : Bus Listener} (h : log.Agrees b) (event : String) :
    b.listeners event = log.listeners event := by
  rw [Bus.listeners_eq, h.listed, h.listed]
  rfl

/-- When registrations end, those listeners leave the bus. -/
theorem Agrees.keep {b b' : Bus Listener} (h : log.Agrees b) (hnext : b'.nextId = b.nextId)
    {stays : Bool → String → Entry Listener → Bool}
    (hposted : ∀ once event,
      b'.listed once event = (b.listed once event).filter (stays once event)) :
    (log.keep fun p => stays p.once p.event p.entry).Agrees b' := by
  refine ⟨?_, hnext.trans h.nextId⟩
  intro once event
  rw [hposted, h.listed]
  unfold ListenerLog.keep ListenerLog.listed
  rw [List.filter_comm, List.filter_map]
  congr 1
  refine List.filter_congr fun p hp => ?_
  have hpost := (List.mem_filter.mp hp).2
  rw [Bool.and_eq_true, beq_iff_eq, beq_iff_eq] at hpost
  obtain ⟨rfl, rfl⟩ := hpost
  rfl

theorem Agrees.act {f : ConcurrentBus} (h : log.Agrees f.bus) (d : BusStep) :
    (log.act d).Agrees (f.act d).bus := by
  cases d with
  | listen a once l =>
    refine ⟨?_, ?_⟩
    · intro once' event
      show ((f.bus.register a.name once l).2).listed once' event = _
      rw [Bus.listed_register, h.listed, h.nextId]
      exact (listed_enroll log ⟨a.name, once, _⟩ once' event).symm
    · have hnext : (f.bus.register a.name once l).2.nextId = f.bus.nextId + 1 := by
        cases once <;> rfl
      show _ = (log.enrolled ++ [_]).length + 1
      rw [List.length_append, List.length_singleton, ← h.nextId]
      exact hnext
  | off a id =>
    have hnext : (f.bus.off a.name id).2.nextId = f.bus.nextId := by
      unfold Bus.off
      split <;> rfl
    exact h.keep hnext fun once event => Bus.listed_off f.bus a.name event id once
  | removeAll event =>
    have hnext : (f.bus.removeAll event).nextId = f.bus.nextId := by cases event <;> rfl
    exact h.keep hnext fun once event' => Bus.listed_removeAll f.bus event event' once
  | emit a content m =>
    have hnext : (f.bus.take a.name).2.nextId = f.bus.nextId := rfl
    exact h.keep hnext fun once event => Bus.listed_take f.bus a.name event once
  | goOn i =>
    have hbus : (f.goOn i).bus = f.bus := by
      unfold ConcurrentBus.goOn
      split <;> rfl
    exact hbus ▸ h

/-! ## Ids -/

/-- Registrations are numbered in their order, and those that hold are still in it. -/
structure Orderly (log : ListenerLog) : Prop where
  ids : log.enrolled.map (·.entry.id) = List.range' 1 log.enrolled.length
  here : log.here.Sublist log.enrolled

theorem Orderly.act (h : log.Orderly) (d : BusStep) : (log.act d).Orderly := by
  have hkeep (kept : Registration → Bool) : (log.keep kept).Orderly :=
    ⟨h.ids, List.filter_sublist.trans h.here⟩
  cases d with
  | listen a once l =>
    refine ⟨?_, h.here.append (.refl _)⟩
    show (log.enrolled ++ [_]).map _ = List.range' 1 (log.enrolled ++ [_]).length
    rw [List.map_append, h.ids, List.length_append, List.length_singleton, List.range'_concat,
      Nat.one_mul, Nat.add_comm 1]
    rfl
  | off a id => exact hkeep _
  | removeAll event => exact hkeep _
  | emit a content m => exact hkeep _
  | goOn i => exact h

/-- What every step keeps holds after any number of them. -/
theorem after_induction {P : ListenerLog → ConcurrentBus → Prop}
    (step : ∀ log f d, P log f → P (log.act d) (f.act d)) (h : P opened .opened)
    (steps : List BusStep) : P (after steps) (ConcurrentBus.opened.run steps) := by
  suffices hrun : ∀ log f, P log f → P (steps.foldl ListenerLog.act log) (f.run steps) from hrun _ _ h
  induction steps with
  | nil => exact fun _ _ h => h
  | cons d ds ih => exact fun log f h => ih _ _ (step log f d h)

theorem Orderly.id_le (h : log.Orderly) {p : Registration} (hp : p ∈ log.enrolled) :
    p.entry.id ≤ log.enrolled.length := by
  have hmem : p.entry.id ∈ List.range' 1 log.enrolled.length := h.ids ▸ List.mem_map_of_mem hp
  rw [List.mem_range'_1] at hmem
  omega

theorem Orderly.eq_of_id (h : log.Orderly) {p q : Registration} (hp : p ∈ log.enrolled)
    (hq : q ∈ log.enrolled) (heq : q.entry.id = p.entry.id) : q = p := by
  have hnodup : (log.enrolled.map (·.entry.id)).Nodup := h.ids ▸ List.nodup_range'
  exact List.inj_on_of_nodup_map hnodup hq hp heq

theorem Orderly.nodup_listeners (h : log.Orderly) (event : String) :
    ((log.listeners event).map (·.id)).Nodup := by
  have hids : (log.here.map (·.entry.id)).Nodup :=
    (h.here.map _).nodup (h.ids ▸ List.nodup_range')
  have hparts : log.listeners event =
      ((log.here.filter (·.event == event)).filter (!·.once) ++
        (log.here.filter (·.event == event)).filter (·.once)).map (·.entry) := by
    simp only [listeners, listed, List.filter_filter, List.map_append]
    congr 2
    · refine List.filter_congr fun p _ => ?_
      cases p.once <;> simp
    · refine List.filter_congr fun p _ => ?_
      cases p.once <;> simp
  have hperm : (log.listeners event).map (·.id) |>.Perm
      ((log.here.filter (·.event == event)).map (·.entry.id)) := by
    rw [hparts, List.map_map]
    refine List.Perm.map _ ?_
    refine List.perm_append_comm.trans ?_
    exact List.filter_append_perm _ _
  exact hperm.nodup_iff.mpr ((List.filter_sublist.map _).nodup hids)

/-! ## Listeners that are called once -/

end ListenerLog

/-- How often a listener was called or started, or stands ahead of an emission. -/
def ConcurrentBus.met (f : ConcurrentBus) (id : Nat) : Nat :=
  f.calls.countP (·.entry.id == id) + (f.rounds.map (·.awaits id)).sum

theorem sum_map_set {α : Type} (g : α → Nat) {l : List α} {i : Nat} {a b : α}
    (h : l[i]? = some a) : ((l.set i b).map g).sum + g a = (l.map g).sum + g b := by
  induction l generalizing i with
  | nil => cases h
  | cons x l ih =>
    cases i with
    | zero =>
      cases h
      simp only [List.set_cons_zero, List.map_cons, List.sum_cons]
      omega
    | succ i =>
      have hrest := ih (show l[i]? = some a from h)
      simp only [List.set_cons_succ, List.map_cons, List.sum_cons]
      omega

theorem ConcurrentBus.met_goOn (f : ConcurrentBus) (i id : Nat) : (f.goOn i).met id ≤ f.met id := by
  cases hr : f.rounds[i]? with
  | none =>
    simp only [goOn, hr]
    exact Nat.le_refl _
  | some r =>
    have hstep := r.step_spec.awaits id
    have hsum := sum_map_set (b := r.step.2) (·.awaits id) hr
    rw [goOn_eq hr]
    simp only [met, List.countP_append, List.countP_map]
    have hcalled : (r.step.1.toList.countP
        ((fun c : Call => c.entry.id == id) ∘ Call.mk i r.content)) =
        r.step.1.toList.countP (·.id == id) := rfl
    omega

theorem ConcurrentBus.met_emit (f : ConcurrentBus) (event : String) (content : Event) (m : Manner)
    (id : Nat) :
    (f.emit event content m).met id =
      f.met id + (f.bus.listeners event).countP (·.id == id) := by
  simp only [met, emit, List.map_append, List.sum_append, List.map_cons, List.map_nil,
    List.sum_cons, List.sum_nil, Round.awaits, Bus.take, List.append_nil]
  omega

namespace ListenerLog

variable {log : ListenerLog}

/-- A listener for one call is on the log, ahead of an emission, or called: one of the three at
most, and once. -/
structure Single (log : ListenerLog) (f : ConcurrentBus) : Prop where
  once : ∀ p ∈ log.enrolled, p.once = true →
    f.met p.entry.id + log.here.countP (·.entry.id == p.entry.id) ≤ 1
  fresh : ∀ id, log.enrolled.length < id → f.met id = 0

theorem single_opened : opened.Single .opened :=
  ⟨fun _ hp => absurd hp List.not_mem_nil, fun _ _ => rfl⟩

/-- An emission takes the listeners that it meets off the log, if they are for one call. -/
theorem Orderly.countP_listeners (h : log.Orderly) {p : Registration} (hp : p ∈ log.enrolled)
    (honce : p.once = true) (event : String) :
    (log.listeners event).countP (·.id == p.entry.id) +
      (log.keep fun q => !(q.event == event && q.once)).here.countP
        (·.entry.id == p.entry.id) = log.here.countP (·.entry.id == p.entry.id) := by
  have hstay : (log.listed false event).countP (·.id == p.entry.id) = 0 := by
    rw [List.countP_eq_zero]
    intro e he hid
    obtain ⟨q, hq, rfl⟩ := List.mem_map.mp he
    obtain ⟨hmem, hq⟩ := List.mem_filter.mp hq
    have heq : q = p := h.eq_of_id hp (h.here.subset hmem) (beq_iff_eq.mp hid)
    rw [heq, honce] at hq
    simp at hq
  have hleave : (log.listed true event).countP (·.id == p.entry.id) =
      (log.here.filter fun p => p.event == event && p.once).countP
        (·.entry.id == p.entry.id) := by
    unfold listed
    rw [List.countP_map]
    congr 1
    refine List.filter_congr fun q _ => ?_
    cases q.once <;> simp
  have hsplit := List.countP_eq_countP_filter_add log.here (·.entry.id == p.entry.id)
    (fun p => p.event == event && p.once)
  show (log.listed false event ++ log.listed true event).countP _ +
    (log.here.filter _).countP _ = _
  rw [List.countP_append, hstay, hleave]
  omega

/-- Who is taken off the log is met no more often. -/
theorem Single.keep {f g : ConcurrentBus} (h : log.Single f) (hmet : ∀ id, g.met id = f.met id)
    (kept : Registration → Bool) : (log.keep kept).Single g := by
  refine ⟨?_, ?_⟩
  · intro p hp honce
    have hle := h.once p hp honce
    have hsub : (log.here.filter kept).countP (·.entry.id == p.entry.id) ≤
        log.here.countP (·.entry.id == p.entry.id) := List.filter_sublist.countP_le
    rw [hmet]
    show _ + (log.here.filter kept).countP _ ≤ 1
    omega
  · intro id hid
    rw [hmet]
    exact h.fresh id hid

theorem Single.act {f : ConcurrentBus} (h : log.Single f) (horder : log.Orderly)
    (hagrees : log.Agrees f.bus) (d : BusStep) : (log.act d).Single (f.act d) := by
  cases d with
  | listen a once l =>
    -- the number is new, so that nobody is there or was called under it
    have hnew : log.here.countP (·.entry.id == log.enrolled.length + 1) = 0 := by
      rw [List.countP_eq_zero]
      intro q hq hid
      have hle := horder.id_le (horder.here.subset hq)
      rw [beq_iff_eq] at hid
      omega
    refine ⟨?_, ?_⟩
    · intro p hp honce
      show f.met _ + (log.here ++ [_]).countP _ ≤ 1
      rw [List.countP_append, List.countP_singleton]
      rcases List.mem_append.mp hp with hp | hp
      · have hle := h.once p hp honce
        have hid := horder.id_le hp
        have hne : (log.enrolled.length + 1 == p.entry.id) = false :=
          beq_eq_false_iff_ne.mpr (by omega)
        simp only [hne, Bool.false_eq_true, if_false]
        omega
      · rw [List.mem_singleton] at hp
        subst hp
        have hmet := h.fresh (log.enrolled.length + 1) (Nat.lt_succ_self _)
        simp only [beq_self_eq_true, if_true]
        omega
    · intro id hid
      have hid : (log.enrolled ++ [_]).length < id := hid
      rw [List.length_append] at hid
      exact h.fresh id (by omega)
  | off a id =>
    have hmet (x : Nat) : (f.act (.off a id)).met x = f.met x := rfl
    exact h.keep hmet _
  | removeAll event =>
    have hmet (x : Nat) : (f.act (.removeAll event)).met x = f.met x := rfl
    exact h.keep hmet _
  | emit a content m =>
    -- those who are called once leave the log, and are met by the emission
    have hmet (id : Nat) : (f.act (.emit a content m)).met id =
        f.met id + (log.listeners a.name).countP (·.id == id) := by
      rw [← hagrees.listeners]
      exact f.met_emit a.name content m id
    refine ⟨?_, ?_⟩
    · intro p hp honce
      have hle := h.once p hp honce
      have hcount := horder.countP_listeners hp honce a.name
      rw [hmet, Nat.add_assoc]
      exact hcount ▸ hle
    · intro id hid
      have hnone : (log.listeners a.name).countP (·.id == id) = 0 := by
        rw [List.countP_eq_zero]
        intro e he heq
        obtain ⟨p, hp, -, rfl⟩ := mem_listeners.mp he
        have hle := horder.id_le (horder.here.subset hp)
        have hlt : log.enrolled.length < id := hid
        rw [beq_iff_eq] at heq
        omega
      rw [hmet, hnone]
      exact h.fresh id hid
  | goOn i =>
    refine ⟨?_, ?_⟩
    · intro p hp honce
      have hle := h.once p hp honce
      have hmet := f.met_goOn i p.entry.id
      show (f.goOn i).met _ + log.here.countP _ ≤ 1
      omega
    · intro id hid
      have hmet := f.met_goOn i id
      have hzero := h.fresh id hid
      show (f.goOn i).met id = 0
      omega

/-! ## Whole runs -/

/-- A registration that was made stays among those that were. -/
theorem enrolled_act (log : ListenerLog) (d : BusStep) : log.enrolled <+: (log.act d).enrolled := by
  cases d with
  | listen a once l => exact List.prefix_append _ _
  | _ => exact List.prefix_rfl

theorem enrolled_after (steps more : List BusStep) :
    (after steps).enrolled <+: (after (steps ++ more)).enrolled := by
  unfold after
  rw [List.foldl_append]
  generalize steps.foldl act opened = log
  induction more generalizing log with
  | nil => exact List.prefix_rfl
  | cons d ds ih => exact (enrolled_act log d).trans (ih (log.act d))

/-- What holds of the log and of the bus after any steps. -/
structure Kept (log : ListenerLog) (f : ConcurrentBus) : Prop where
  orderly : log.Orderly
  agrees : log.Agrees f.bus
  single : log.Single f
  numbered : f.Numbered

theorem kept_after (steps : List BusStep) : (after steps).Kept (ConcurrentBus.opened.run steps) := by
  refine after_induction ?_ ?_ steps
  · intro log f d h
    exact ⟨h.orderly.act d, h.agrees.act d, h.single.act h.orderly h.agrees d,
      ConcurrentBus.numbered_act h.numbered d⟩
  · exact ⟨⟨rfl, .refl _⟩, agrees_opened, single_opened, fun _ hc => absurd hc List.not_mem_nil⟩

end ListenerLog
end ContainerHost.Event
