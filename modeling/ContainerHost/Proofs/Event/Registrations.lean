import ContainerHost.Proofs.Event.Emissions
import ContainerHost.Proofs.Tables
/-!
# The tables of a bus

The listeners of a bus are in two tables by their events: those that stay, and those that are called
once. Whatever is done with the bus, no event is left in a table without listeners (`Bus.Tidy`), and
no id is in the tables twice. So the events that the bus names are those with listeners, and the
listener that is taken off by its id is the one whose registration the log has under that event;
it leaves its place, and all others stay where they are (`Bus.Without`).

What is proved: `registrations_kept`.
-/

namespace ContainerHost.Event

namespace Bus

variable {α : Type}

/-! ## Events without listeners -/

/-- A table in order in which no event is without listeners. -/
structure Filled (t : Table (List (Entry α))) : Prop where
  ordered : t.Ordered
  filled : ∀ event, t.get? event ≠ some []

variable {t : Table (List (Entry α))}

theorem filled_empty : Filled (.empty : Table (List (Entry α))) :=
  ⟨Table.ordered_empty, fun event => by simp⟩

theorem Filled.insert (h : Filled t) (event : String) {l : List (Entry α)} (hl : l ≠ []) :
    Filled (t.insert event l) := by
  refine ⟨Table.ordered_insert h.ordered event l, fun event' => ?_⟩
  rw [Table.get?_insert]
  split
  · exact fun heq => hl (Option.some.inj heq)
  · exact h.filled event'

theorem Filled.erase (h : Filled t) (event : String) : Filled (t.erase event) := by
  refine ⟨Table.ordered_erase h.ordered event, fun event' => ?_⟩
  rw [Table.get?_erase]
  split
  · exact Option.some_ne_none _ ∘ Eq.symm
  · exact h.filled event'

theorem Filled.append (h : Filled t) (event : String) (e : Entry α) :
    Filled (append t event e) := h.insert event (List.append_ne_nil_of_right_ne_nil _ (by simp))

theorem Filled.setEntries (h : Filled t) (event : String) (l : List (Entry α)) :
    Filled (setEntries t event l) := by
  unfold Bus.setEntries
  split
  · exact h.erase event
  · rename_i hl
    exact h.insert event fun hnil => hl (List.isEmpty_iff.mpr hnil)

/-- The events of a table are those with listeners. -/
theorem Filled.mem_keys (h : Filled t) {event : String} :
    event ∈ t.keys ↔ entriesOf t event ≠ [] := by
  rw [← Table.contains_iff]
  unfold Table.contains entriesOf
  cases hget : t.get? event with
  | none => simp
  | some l =>
    have hl : l ≠ [] := fun hnil => h.filled event (hnil ▸ hget)
    exact iff_of_true rfl hl

/-- No event is without listeners in one of the tables. -/
structure Tidy (b : Bus α) : Prop where
  persistent : Filled b.persistent
  once : Filled b.once

theorem tidy_empty : (empty : Bus α).Tidy := ⟨filled_empty, filled_empty⟩

variable {b : Bus α}

theorem Tidy.register (h : b.Tidy) (event : String) (once : Bool) (l : α) :
    (b.register event once l).2.Tidy := by
  cases once with
  | false => exact ⟨h.persistent.append event _, h.once⟩
  | true => exact ⟨h.persistent, h.once.append event _⟩

theorem Tidy.off (h : b.Tidy) (event : String) (id : Nat) : (b.off event id).2.Tidy := by
  unfold Bus.off
  split
  · exact ⟨h.persistent.setEntries event _, h.once.setEntries event _⟩
  · exact h

theorem Tidy.take (h : b.Tidy) (event : String) : (b.take event).2.Tidy :=
  ⟨h.persistent, h.once.erase event⟩

theorem Tidy.removeAll (h : b.Tidy) (event : Option String) : (b.removeAll event).Tidy := by
  cases event with
  | none => exact ⟨filled_empty, filled_empty⟩
  | some event => exact ⟨h.persistent.erase event, h.once.erase event⟩

/-! ## Names -/

theorem mem_names {event : String} :
    event ∈ b.names ↔ event ∈ b.persistent.keys ∨ event ∈ b.once.keys := by
  have hkeys (l : List String) : (l.map fun x => (x, ())).map (·.1) = l := by
    rw [List.map_map]
    exact List.map_id l
  show event ∈ ((Table.ofList _).insertAll _).keys ↔ _
  rw [Table.mem_keys_insertAll, Table.ofList, Table.mem_keys_insertAll, hkeys, hkeys]
  exact or_congr_right (or_iff_left List.not_mem_nil)

theorem names_ascend (b : Bus α) : b.names.Pairwise (· < ·) :=
  Table.ordered_insertAll (Table.ordered_insertAll Table.ordered_empty _) _

theorem Tidy.mem_names_iff (h : b.Tidy) (event : String) :
    event ∈ b.names ↔ 0 < b.count event := by
  rw [mem_names, h.persistent.mem_keys, h.once.mem_keys, count, List.length_pos_iff, listeners,
    ne_eq, ne_eq, ne_eq, List.append_eq_nil_iff, not_and_or]

/-! ## Ids -/

def entriesIn (t : Table (List (Entry α))) : List (Entry α) := t.values.flatten

/-- All listeners of a bus: those that stay, and then those that are called once. -/
def everyone (b : Bus α) : List (Entry α) := entriesIn b.persistent ++ entriesIn b.once

theorem mem_entriesIn (h : t.Ordered) {e : Entry α} :
    e ∈ entriesIn t ↔ ∃ event, e ∈ entriesOf t event := by
  unfold entriesIn Table.values
  rw [List.mem_flatten]
  constructor
  · rintro ⟨l, hl, he⟩
    obtain ⟨⟨event, l⟩, hmem, rfl⟩ := List.mem_map.mp hl
    refine ⟨event, ?_⟩
    unfold entriesOf
    rw [(Table.mem_entries_iff h).mp hmem]
    exact he
  · rintro ⟨event, he⟩
    unfold entriesOf at he
    cases hget : t.get? event with
    | none =>
      rw [hget] at he
      exact absurd he List.not_mem_nil
    | some l =>
      rw [hget] at he
      exact ⟨l, List.mem_map.mpr ⟨(event, l), (Table.mem_entries_iff h).mpr hget, rfl⟩, he⟩

/-- Ids that are used once for each event, and for one event each, are used once. -/
theorem nodup_entriesIn (h : t.Ordered)
    (hone : ∀ event, ((entriesOf t event).map (·.id)).Nodup)
    (happart : ∀ event event' e e', e ∈ entriesOf t event → e' ∈ entriesOf t event' →
      e.id = e'.id → event = event') :
    ((entriesIn t).map (·.id)).Nodup := by
  have hof {event : String} {l : List (Entry α)} (hmem : (event, l) ∈ t.entries) :
      entriesOf t event = l := by
    unfold entriesOf
    rw [(Table.mem_entries_iff h).mp hmem]
    rfl
  unfold entriesIn Table.values
  rw [List.map_flatten, List.map_map, List.nodup_flatten]
  constructor
  · intro ids hids
    obtain ⟨⟨event, l⟩, hmem, rfl⟩ := List.mem_map.mp hids
    exact hof hmem ▸ hone event
  · rw [List.pairwise_map]
    refine (List.pairwise_map.mp h).imp_of_mem ?_
    rintro ⟨event, l⟩ ⟨event', l'⟩ hmem hmem' hlt id hid hid'
    obtain ⟨e, he, rfl⟩ := List.mem_map.mp hid
    obtain ⟨e', he', hsame⟩ := List.mem_map.mp hid'
    exact ne_of_lt hlt
      (happart event event' e e' ((hof hmem).symm ▸ he) ((hof hmem').symm ▸ he') hsame.symm)

/-! ## Taking a listener off -/

/-- The bus without one of its listeners: it has left its place, and all others are in theirs. -/
def Without (b : Bus α) (event : String) (id : Nat) (b' : Bus α) : Prop :=
  ∃ once before e after, e.id = id ∧ b.listed once event = before ++ e :: after ∧
    b'.listed once event = before ++ after ∧ b'.nextId = b.nextId ∧
    ∀ once' event', (once', event') ≠ (once, event) →
      b'.listed once' event' = b.listed once' event'

theorem off_iff {event : String} {id : Nat} :
    (b.off event id).1 = true ↔ ∃ e ∈ b.listeners event, e.id = id := by
  have hany : (b.listeners event).any (·.id == id) = true ↔ ∃ e ∈ b.listeners event, e.id = id := by
    simp only [List.any_eq_true, beq_iff_eq]
  rw [← hany]
  unfold off
  split
  · rename_i hfound
    exact iff_of_true rfl hfound
  · rename_i hmissing
    exact iff_of_false Bool.false_ne_true hmissing

theorem off_of_missing {event : String} {id : Nat} (h : (b.off event id).1 = false) :
    (b.off event id).2 = b := by
  unfold off at h ⊢
  split at h
  · cases h
  · rename_i hmissing
    rw [if_neg hmissing]

theorem nextId_off (b : Bus α) (event : String) (id : Nat) :
    (b.off event id).2.nextId = b.nextId := by
  unfold off
  split <;> rfl

end Bus

/-! ## Whole runs -/

theorem tidy_act {f : ConcurrentBus} (h : f.bus.Tidy) (d : BusStep) : (f.act d).bus.Tidy := by
  cases d with
  | listen a once l => exact h.register a.name once l
  | off a id => exact h.off a.name id
  | removeAll event => exact h.removeAll event
  | emit a content m => exact h.take a.name
  | goOn i =>
    have hbus : (f.goOn i).bus = f.bus := by
      unfold ConcurrentBus.goOn
      split <;> rfl
    exact hbus ▸ h

theorem tidy_run {f : ConcurrentBus} (h : f.bus.Tidy) (steps : List BusStep) :
    (f.run steps).bus.Tidy := by
  induction steps generalizing f with
  | nil => exact h
  | cons d ds ih => exact ih (tidy_act h d)

namespace ListenerLog

variable {log : ListenerLog} {b : Bus Listener}

theorem Orderly.place (h : log.Orderly) (hagrees : log.Agrees b) (once once' : Bool)
    {event event' : String} {e e' : Entry Listener} (he : e ∈ b.listed once event)
    (he' : e' ∈ b.listed once' event') (hid : e.id = e'.id) : once = once' ∧ event = event' := by
  rw [hagrees.listed] at he he'
  obtain ⟨p, hp, rfl, rfl, rfl⟩ := mem_listed.mp he
  obtain ⟨q, hq, rfl, rfl, rfl⟩ := mem_listed.mp he'
  rw [h.eq_of_id (h.here.subset hq) (h.here.subset hp) hid]
  exact ⟨rfl, rfl⟩

theorem Orderly.nodup_listed (h : log.Orderly) (hagrees : log.Agrees b) (once : Bool)
    (event : String) : ((b.listed once event).map (·.id)).Nodup := by
  have hall := h.nodup_listeners event
  rw [listeners, List.map_append, List.nodup_append] at hall
  rw [hagrees.listed]
  cases once with
  | false => exact hall.1
  | true => exact hall.2.1

/-- No id is in the tables twice. -/
theorem Orderly.nodup_everyone (h : log.Orderly) (hagrees : log.Agrees b) (htidy : b.Tidy) :
    (b.everyone.map (·.id)).Nodup := by
  have hpersistent := Bus.nodup_entriesIn htidy.persistent.ordered
    (h.nodup_listed hagrees false) fun event event' e e' he he' hid =>
      (h.place hagrees false false he he' hid).2
  have honce := Bus.nodup_entriesIn htidy.once.ordered
    (h.nodup_listed hagrees true) fun event event' e e' he he' hid =>
      (h.place hagrees true true he he' hid).2
  unfold Bus.everyone
  rw [List.map_append, List.nodup_append]
  refine ⟨hpersistent, honce, ?_⟩
  intro id hid id' hid' hsame
  obtain ⟨e, he, rfl⟩ := List.mem_map.mp hid
  obtain ⟨e', he', rfl⟩ := List.mem_map.mp hid'
  obtain ⟨event, he⟩ := (Bus.mem_entriesIn htidy.persistent.ordered).mp he
  obtain ⟨event', he'⟩ := (Bus.mem_entriesIn htidy.once.ordered).mp he'
  exact Bool.false_ne_true (h.place hagrees false true he he' hsame).1

/-- A listener is found under its id when the log has its registration under that event. -/
theorem Agrees.off_iff (hagrees : log.Agrees b) {event : String} {id : Nat} :
    (b.off event id).1 = true ↔ ∃ p ∈ log.here, p.event = event ∧ p.entry.id = id := by
  rw [Bus.off_iff, hagrees.listeners]
  simp only [mem_listeners]
  constructor
  · rintro ⟨e, ⟨p, hp, hevent, rfl⟩, hid⟩
    exact ⟨p, hp, hevent, hid⟩
  · rintro ⟨p, hp, hevent, hid⟩
    exact ⟨p.entry, ⟨p, hp, hevent, rfl⟩, hid⟩

/-- Taking a listener off takes no other. -/
theorem Orderly.without_off (h : log.Orderly) (hagrees : log.Agrees b) {event : String} {id : Nat}
    (hfound : (b.off event id).1 = true) : b.Without event id (b.off event id).2 := by
  obtain ⟨p, hp, rfl, rfl⟩ := hagrees.off_iff.mp hfound
  have hthere : p.entry ∈ b.listed p.once p.event := by
    rw [hagrees.listed]
    exact mem_listed.mpr ⟨p, hp, rfl, rfl, rfl⟩
  obtain ⟨before, after, hsplit⟩ := List.append_of_mem hthere
  refine ⟨p.once, before, p.entry, after, rfl, hsplit, ?_, Bus.nextId_off b _ _, ?_⟩
  · -- nobody else there has the id
    have hnodup := h.nodup_listed hagrees p.once p.event
    rw [hsplit, List.map_append, List.map_cons, List.nodup_middle, List.nodup_cons] at hnodup
    have hothers : ∀ e ∈ before ++ after, (!(p.event == p.event && e.id == p.entry.id)) = true := by
      intro e he
      have hne : e.id ≠ p.entry.id := by
        intro heq
        refine hnodup.1 ?_
        rw [← List.map_append, ← heq]
        exact List.mem_map_of_mem he
      simp [hne]
    rw [Bus.listed_off, hsplit, List.filter_append, List.filter_cons_of_neg (by simp),
      ← List.filter_append, List.filter_eq_self]
    exact hothers
  · intro once' event' hne
    rw [Bus.listed_off, List.filter_eq_self]
    intro e he
    have hapart : ¬(event' = p.event ∧ e.id = p.entry.id) := by
      rintro ⟨-, hid⟩
      obtain ⟨honce, hevent⟩ := h.place hagrees _ _ he hthere hid
      exact hne (Prod.ext honce hevent)
    simp only [Bool.not_eq_true', Bool.and_eq_false_iff, beq_eq_false_iff_ne]
    exact not_and_or.mp hapart

end ListenerLog

/-! ## Subscriptions -/

def Registration.subscription (p : Registration) : Subscription := ⟨p.event, p.entry.id⟩

namespace ConcurrentBus

def given (f : ConcurrentBus) : BusStep → Option Subscription
  | .listen a once l => some (f.bus.register a.name once l).1
  | .off .. | .removeAll _ | .emit .. | .goOn _ => none

def givenBy (f : ConcurrentBus) : List BusStep → List Subscription
  | [] => []
  | d :: ds => (f.given d).toList ++ (f.act d).givenBy ds

end ConcurrentBus

namespace ListenerLog

variable {log : ListenerLog}

theorem Agrees.given {f : ConcurrentBus} (h : log.Agrees f.bus) (d : BusStep) :
    (log.act d).enrolled.map Registration.subscription =
      log.enrolled.map Registration.subscription ++ (f.given d).toList := by
  cases d with
  | listen a once l =>
    show (log.enrolled ++ [_]).map Registration.subscription =
      _ ++ [Subscription.mk a.name f.bus.nextId]
    rw [List.map_append, h.nextId]
    rfl
  | off a id => exact (List.append_nil _).symm
  | removeAll event => exact (List.append_nil _).symm
  | emit a content m => exact (List.append_nil _).symm
  | goOn i => exact (List.append_nil _).symm

theorem givenBy_opened (steps : List BusStep) :
    ConcurrentBus.opened.givenBy steps = (after steps).enrolled.map Registration.subscription := by
  suffices hrun : ∀ (log : ListenerLog) (f : ConcurrentBus), log.Agrees f.bus →
      (steps.foldl act log).enrolled.map Registration.subscription =
        log.enrolled.map Registration.subscription ++ f.givenBy steps from
    (hrun opened .opened agrees_opened).symm
  induction steps with
  | nil => exact fun log f _ => (List.append_nil _).symm
  | cons d ds ih =>
    intro log f h
    rw [List.foldl_cons, ih _ _ (h.act d), h.given, List.append_assoc]
    rfl

theorem Orderly.ids_given {steps : List BusStep} (h : (after steps).Orderly) :
    (ConcurrentBus.opened.givenBy steps).map (·.id) =
      List.range' 1 (ConcurrentBus.opened.givenBy steps).length := by
  rw [givenBy_opened, List.map_map, List.length_map]
  exact h.ids

/-- A subscription that was given out tells its registration. -/
theorem Orderly.here_iff (h : log.Orderly) {p : Registration} (hp : p ∈ log.enrolled) :
    (∃ q ∈ log.here, q.event = p.event ∧ q.entry.id = p.entry.id) ↔ p ∈ log.here := by
  constructor
  · rintro ⟨q, hq, -, hid⟩
    rw [← h.eq_of_id hp (h.here.subset hq) hid]
    exact hq
  · exact fun hhere => ⟨p, hhere, rfl, rfl⟩

end ListenerLog

/-- A subscription on a scripted bus is used up; if the bus is there, its listener is taken off the
event that it was made for. -/
theorem unsubscribe_eq {s : ScriptedBus} {i : Nat} {sub : Subscription}
    (h : s.subs[i]? = some (some sub)) :
    s.unsubscribe i = (some (s.alive && (s.bus.off sub.event sub.id).1),
      { s with
        bus := if s.alive then (s.bus.off sub.event sub.id).2 else s.bus
        subs := s.subs.set i none }) := by
  unfold ScriptedBus.unsubscribe
  simp only [h]
  cases s.alive <;> rfl

/-- Whatever is done with a bus, directly or through name spaces: no event is without listeners in
one of its tables, and no id is in them twice; the ids that are given out are all different, and
within sixty-four bits if there are not more of them; the names of events ascend and are those with
listeners. A listener is taken off by its id exactly when the log has its registration under that
event, and then no other listener is, nor moved; if not, nothing is. A subscription that was given
out takes its listener off exactly while its registration holds, and so does one on a scripted bus
that is there. -/
theorem registrations_kept :
    (∀ steps, let b := (ConcurrentBus.opened.run steps).bus
      let log := ListenerLog.after steps
      let given := ConcurrentBus.opened.givenBy steps
      (∀ event, b.persistent.get? event ≠ some [] ∧ b.once.get? event ≠ some []) ∧
      (b.everyone.map (·.id)).Nodup ∧
      ((given.map (·.id)).Nodup ∧ (given.length < 2 ^ 64 → ∀ sub ∈ given, sub.id < 2 ^ 64)) ∧
      (b.names.Pairwise (· < ·) ∧ ∀ event, event ∈ b.names ↔ 0 < b.count event) ∧
      (∀ (a : Address) (id : Nat),
        ((b.off a.name id).1 = true ↔
          ∃ p ∈ log.here, p.event = a.name ∧ p.entry.id = id) ∧
        ((b.off a.name id).1 = true → b.Without a.name id (b.off a.name id).2) ∧
        ((b.off a.name id).1 = false → (b.off a.name id).2 = b)) ∧
      given = log.enrolled.map Registration.subscription ∧
      ∀ p ∈ log.enrolled,
        (b.off p.subscription.event p.subscription.id).1 = true ↔ p ∈ log.here) ∧
    ∀ depth commands s, ScriptedBus.after depth commands = some s →
      ∃ steps, s.bus = (ConcurrentBus.opened.run steps).bus ∧
        ∀ i sub, s.subs[i]? = some (some sub) →
          ((s.unsubscribe i).1 = some true ↔
            s.alive = true ∧ ∃ p ∈ (ListenerLog.after steps).here, p.subscription = sub) ∧
          (s.unsubscribe i).2.bus =
            (if s.alive then (s.bus.off sub.event sub.id).2 else s.bus) ∧
          (s.unsubscribe i).2.subs[i]? = some none := by
  constructor
  · intro steps b log given
    have hkept : log.Kept (ConcurrentBus.opened.run steps) := ListenerLog.kept_after steps
    have hagrees : log.Agrees b := hkept.agrees
    have htidy : b.Tidy := tidy_run Bus.tidy_empty steps
    refine ⟨fun event => ⟨htidy.persistent.filled event, htidy.once.filled event⟩,
      hkept.orderly.nodup_everyone hagrees htidy, ⟨?_, ?_⟩, ⟨b.names_ascend, htidy.mem_names_iff⟩,
      fun a id => ⟨hagrees.off_iff, hkept.orderly.without_off hagrees, Bus.off_of_missing⟩,
      ListenerLog.givenBy_opened steps, fun p hp => ?_⟩
    · rw [hkept.orderly.ids_given]
      exact List.nodup_range'
    · intro hlength sub hsub
      have hid : sub.id ∈ List.range' 1 given.length :=
        hkept.orderly.ids_given ▸ List.mem_map_of_mem hsub
      rw [List.mem_range'_1] at hid
      omega
    · exact hagrees.off_iff.trans (hkept.orderly.here_iff hp)
  · intro depth commands s hafter
    obtain ⟨steps, hbus⟩ := bus_after hafter
    have hagrees : (ListenerLog.after steps).Agrees s.bus :=
      hbus ▸ (ListenerLog.kept_after steps).agrees
    refine ⟨steps, hbus.symm, fun i sub hsub => ?_⟩
    have hi : i < s.subs.length := (List.getElem?_eq_some_iff.mp hsub).1
    rw [unsubscribe_eq hsub]
    refine ⟨?_, rfl, List.getElem?_set_self hi⟩
    rw [Option.some.injEq, Bool.and_eq_true, hagrees.off_iff]
    -- a registration holds under its own subscription and no other
    refine and_congr_right fun _ => exists_congr fun p => and_congr_right fun _ => ?_
    obtain ⟨event, id⟩ := sub
    exact (Subscription.mk.injEq ..).to_iff.symm

/-- Three listeners, one of them in a name space; one that is called once has gone with an emission,
and another is taken off by its full name. -/
def comings : List BusStep :=
  [.listen ⟨some "a", "b"⟩ false (.direct "stays" []), .listen ⟨none, "a:b"⟩ true (.direct "once" []),
    .listen ⟨none, "c"⟩ false (.direct "other" []),
    .emit ⟨none, "a:b"⟩ ⟨"first", none, .null⟩ .starting,
    .listen ⟨none, "a:b"⟩ false (.direct "late" []), .off ⟨none, "a:b"⟩ 1]

/-- The last and the third are left, each under its event, and the ids go on. -/
theorem registrations_kept_of_comings :
    let b := (ConcurrentBus.opened.run comings).bus
    (b.everyone.map (·.id) = [4, 3] ∧ b.names = ["a:b", "c"]) ∧
    (b.everyone.map (·.id)).Nodup ∧ ("c" ∈ b.names ↔ 0 < b.count "c") ∧
    (∀ sub ∈ ConcurrentBus.opened.givenBy comings, sub.id < 2 ^ 64) ∧
    b.Without "a:b" 4 (b.off "a:b" 4).2 ∧ (b.off "a:c" 3).2 = b ∧ (b.off "a:b" 2).1 = false ∧
    ((b.off "c" 3).1 = true ↔
      Registration.mk "c" false ⟨3, .direct "other" []⟩ ∈ (ListenerLog.after comings).here) ∧
    ∃ s, ScriptedBus.after 1 [.listen "x" "t" true []] = some s ∧
      (s.unsubscribe 0).2.subs[0]? = some none := by
  intro b
  obtain ⟨hruns, hstages⟩ := registrations_kept
  obtain ⟨-, hnodup, ⟨-, hwords⟩, ⟨-, hnames⟩, hoff, -, hsub⟩ := hruns comings
  obtain ⟨steps, -, hstage⟩ := hstages 1 [.listen "x" "t" true []] _ rfl
  have hother :
      Registration.mk "c" false ⟨3, .direct "other" []⟩ ∈ (ListenerLog.after comings).enrolled :=
    .tail _ (.tail _ (.head _))
  exact ⟨⟨by decide +kernel, by decide +kernel⟩, hnodup, hnames "c", hwords (by decide +kernel),
    (hoff ⟨some "a", "b"⟩ 4).2.1 (by decide +kernel),
    (hoff ⟨some "a", "c"⟩ 3).2.2 (by decide +kernel), by decide +kernel, hsub _ hother,
    _, rfl, (hstage 0 ⟨"x", 1⟩ rfl).2.2⟩

end ContainerHost.Event
