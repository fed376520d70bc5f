import ContainerHost.Proofs.Container.Origin
import ContainerHost.Proofs.Manager.Effects
import ContainerHost.Proofs.Manager.ConcurrentManager
/-!
# What upkeep keeps

A manager reaches the containers of its pool in one way only: it does something with one of them and
puts it back. What holds of a pool as long as each container is only ever put back as something that
a relation allows (`Pool.Keeps`) is therefore kept by all that a manager does, but for the operations
that make containers (`All.create`, `All.scale`) and the one that puts a module in. The relation is
`SameModule` for operations that stop and restart, and `Observed` for time that passes.

Two such properties are one of each container (`Pool.All`), and that containers become what they may
become and never go away (`Pool.Tracks`).
-/

namespace ContainerHost

theorem Container.sameModule_interact (c : Container) (now : Nat) (x : Interaction) :
    SameModule c (c.interact now x) := by
  cases x with
  | call function args => exact c.sameModule_beginCall function args now
  | settle function result took => exact (c.alike_settleCall function result now took).sameModule
  | update u => exact (alike_of_updated (c.updated_updateState u)).sameModule
  | subscribe tag fails replies =>
    have halike : Alike c (c.subscribe tag fails replies).2 := ⟨rfl, rfl, rfl, rfl, rfl, rfl⟩
    exact halike.sameModule
  | unsubscribe id =>
    have halike : Alike c (c.unsubscribe id).2 := ⟨rfl, rfl, rfl, rfl, rfl, rfl⟩
    exact halike.sameModule
  | query q => exact (alike_of_observed (c.observed_query now q)).sameModule

theorem Container.sameModule_of_observed {c d : Container} (h : Observed c d) : SameModule c d :=
  (alike_of_observed h).sameModule

namespace Pool

/-- `Q` is kept by whatever is done to a container that `R` allows, and does not depend on clocks and
notices. -/
structure Keeps (R : Container → Container → Prop) (Q : Pool → Prop) : Prop where
  same : ∀ {y y' : Pool}, Q y → y'.containers = y.containers → y'.outside = y.outside → Q y'
  put : ∀ {y : Pool} {id : String} {c d : Container}, Q y → y.get? id = some c → R c d →
    Q (y.put d)

variable {R S : Container → Container → Prop} {Q : Pool → Prop} {y y' : Pool}

namespace Keeps

theorem mono (k : Keeps S Q) (hRS : ∀ c d, R c d → S c d) : Keeps R Q where
  same := k.same
  put := fun h hc hd => k.put h hc (hRS _ _ hd)

theorem observed (k : Keeps Container.SameModule Q) : Keeps Container.Observed Q :=
  k.mono fun _ _ => Container.sameModule_of_observed

theorem act {α : Type} (k : Keeps R Q) (h : Q y) {id : String} {f : Container → α × Container}
    (hf : ∀ c, y.get? id = some c → R c (f c).2) {a : α} (ha : y.act id f = some (a, y')) :
    Q y' := by
  unfold Pool.act at ha
  split at ha
  · cases ha
  · rename_i c hc
    cases ha
    exact k.put (k.same h rfl rfl) hc (hf c hc)

theorem report (k : Keeps Container.Observed Q) (h : Q y) (fuel till : Nat) :
    Q (report fuel till y) := by
  induction fuel generalizing y with
  | zero => exact h
  | succ fuel ih =>
    unfold Pool.report
    split
    · exact h
    · rename_i time id _
      dsimp only
      split
      · exact k.same h rfl rfl
      · rename_i y' ha
        have hclock : Q { y with
          clock := { y.clock with timers := max y.clock.timers time } } := k.same h rfl rfl
        exact ih (k.act hclock (fun c _ => Container.observed_strike c _) ha)

theorem sleepUntil (k : Keeps Container.Observed Q) (h : Q y) (till : Nat) :
    Q (y.sleepUntil till) := k.same (k.report h _ till) rfl rfl

theorem sleep (k : Keeps Container.Observed Q) (h : Q y) (d : Duration) : Q (y.sleep d) :=
  k.sleepUntil h _

end Keeps
end Pool

/-! ## Schedulers with nothing but restarts -/

namespace Scheduler

/-- All that was asked of the scheduler are restarts, and `Q` holds of its pool. -/
structure Reviving (Q : Pool → Prop) (d : Scheduler) : Prop where
  pool : Q d.pool
  calls : d.calls = []
  reloads : d.reloads = []
  waiting : ∀ w ∈ d.waiting, w.2.2 = .restart

variable {Q : Pool → Prop} {d : Scheduler}

theorem reviving_perform (k : Pool.Keeps Container.SameModule Q) (h : d.Reviving Q) (ticket : Nat)
    (id : String) : (d.perform ticket id .restart).Reviving Q := by
  simp only [perform, withContainer]
  split
  · exact h
  · rename_i snapshot y ha
    exact ⟨k.act h.pool (fun c _ => c.sameModule_stop) ha, h.calls, h.reloads, h.waiting⟩

theorem reviving_enter (k : Pool.Keeps Container.SameModule Q) (h : d.Reviving Q) (ticket : Nat)
    (id : String) : (d.enter ticket id .restart).Reviving Q := by
  unfold enter
  split
  · refine ⟨h.pool, h.calls, h.reloads, ?_⟩
    intro w hw
    rcases List.mem_append.mp hw with hw | hw
    · exact h.waiting w hw
    · rw [List.mem_singleton.mp hw]
  · exact reviving_perform k h ticket id

theorem reviving_ask (k : Pool.Keeps Container.SameModule Q) (h : d.Reviving Q) (id : String) :
    (d.ask id .restart).2.Reviving Q :=
  reviving_enter (d := { d with tickets := d.tickets + 1 }) k
    ⟨h.pool, h.calls, h.reloads, h.waiting⟩ d.tickets id

theorem reviving_serve (k : Pool.Keeps Container.SameModule Q) (h : d.Reviving Q) (id : String) :
    (d.serve id).Reviving Q := by
  have hempty : ({ d with waiting := [] } : Scheduler).Reviving Q :=
    ⟨h.pool, h.calls, h.reloads, by simp⟩
  refine d.waiting.foldlRecOn _ hempty ?_
  rintro d' hd' ⟨ticket, id', e⟩ hw
  obtain rfl : e = .restart := h.waiting _ hw
  dsimp only
  split
  · exact reviving_enter k hd' ticket id
  · refine ⟨hd'.pool, hd'.calls, hd'.reloads, ?_⟩
    intro w hw
    rcases List.mem_append.mp hw with hw | hw
    · exact hd'.waiting w hw
    · rw [List.mem_singleton.mp hw]

theorem reviving_wake (k : Pool.Keeps Container.SameModule Q) (h : d.Reviving Q) :
    d.wake.Reviving Q := by
  unfold wake
  split
  · exact h
  · rename_i r _
    have hslept : Q (d.pool.sleepUntil r.till) := k.observed.sleepUntil h.pool r.till
    refine reviving_serve k ?_ r.id
    simp only [withContainer]
    split
    · exact ⟨hslept, h.calls, h.reloads, h.waiting⟩
    · rename_i result y ha
      have hrevived := k.act hslept (fun c _ => c.sameModule_endRestart r.snapshot _) ha
      exact ⟨hrevived, h.calls, h.reloads, h.waiting⟩

theorem reviving_wakeAll (k : Pool.Keeps Container.SameModule Q) (h : d.Reviving Q) (fuel : Nat) :
    (wakeAll fuel d).Reviving Q := by
  induction fuel generalizing d with
  | zero => exact h
  | succ fuel ih =>
    unfold wakeAll
    split
    · exact h
    · exact ih (reviving_wake k h)

theorem reviving_settle (k : Pool.Keeps Container.SameModule Q) (h : d.Reviving Q) :
    d.settle.Reviving Q := by
  -- there is neither a call to end nor a reload to start
  have hcalls : d.endCalls = { d with calls := [] } := by
    unfold endCalls
    rw [h.calls]
    rfl
  have hreloads : ({ d with calls := [] } : Scheduler).startReloads =
      { d with calls := [], reloads := [] } := by
    unfold startReloads
    rw [h.reloads]
    rfl
  unfold settle
  rw [hcalls, hreloads]
  refine reviving_wakeAll k ?_ _
  exact ⟨h.pool, rfl, rfl, h.waiting⟩

end Scheduler

/-! ## Managers -/

namespace Pool.Keeps

variable {R : Container → Container → Prop} {Q : Pool → Prop} {m : Manager}

theorem withPool (k : Keeps R Q) (m : Manager) {y : Pool} (h : Q y) : Q (m.withPool y).pool := by
  have hyard : (m.withPool y).pool = y.takeHeard.2 := (Manager.passOn_frame y.heard _).2
  rw [hyard]
  exact k.same h rfl rfl

theorem acted {α : Type} (k : Keeps R Q) (h : Q m.pool) (id : String) (default : α)
    {f : Container → α × Container} (hf : ∀ c, m.pool.get? id = some c → R c (f c).2) :
    Q (m.act id default f).2.pool := by
  unfold Manager.act
  split
  · rename_i a y ha
    exact k.withPool m (k.act h hf ha)
  · exact h

/-- What is kept for each of some things is kept for all. -/
theorem foldl {α : Type} {f : Manager → α → Manager}
    (hf : ∀ m a, Q m.pool → Q (f m a).pool) (h : Q m.pool) (l : List α) : Q (l.foldl f m).pool :=
  l.foldlRecOn (motive := fun m => Q m.pool) f h fun m hm a _ => hf m a hm

theorem announceScaled (h : Q m.pool) (id : String) (n : Nat) (ids : List String) :
    Q (m.announceScaled id n ids).pool :=
  foldl (f := fun m replica => m.announceFor .replicaCreated id [("replicaId", .str replica)])
    (fun _ _ h => h) h ids

section

variable (k : Keeps Container.Observed Q)

include k

theorem slept (h : Q m.pool) (d : Duration) : Q (m.sleep d).pool :=
  k.withPool m (k.sleep h d)

theorem watchOver (h : Q m.pool) (id : String) : Q (m.watchOver id).pool := by
  unfold Manager.watchOver
  split
  · split
    · rename_i y ha
      exact k.withPool m (k.act h (fun c _ => Container.observed_startTicker c _ _) ha)
    · exact h
  · exact h

theorem afterRestart (h : Q m.pool) (id : String) (r : Except Error Unit) :
    Q (m.afterRestart id r).pool := by
  cases r with
  | error e => exact h
  | ok u => exact k.watchOver h id

theorem register (h : Q m.pool) (r : Reservation) (ids : List String) :
    Q (m.register r ids).pool :=
  foldl (fun _ id h => k.watchOver h id) h ids

end

section

variable (k : Keeps Container.SameModule Q)

include k

theorem halt (h : Q m.pool) (id : String) : Q (m.halt id).pool :=
  k.acted h id () fun c _ => c.sameModule_stop

theorem stop (h : Q m.pool) (id : String) : Q (m.stop id).2.pool := by
  unfold Manager.stop
  cases m.lookup id with
  | error e => exact h
  | ok c => exact k.halt h id

theorem restart (h : Q m.pool) (id : String) : Q (m.restart id).2.pool := by
  unfold Manager.restart
  cases m.lookup id with
  | error e => exact h
  | ok c =>
    have hbegun := k.acted h id .empty (f := Container.beginRestart) fun c _ => c.sameModule_stop
    have hrested := k.observed.slept hbegun Limits.restartGrace
    exact k.observed.afterRestart
      (k.acted hrested id _ fun c _ => c.sameModule_endRestart _ _) id _

theorem interact (h : Q m.pool) (id : String) (now : Nat) (x : Interaction) :
    Q (m.act id () fun c => ((), c.interact now x)).2.pool :=
  k.acted h id () fun c _ => c.sameModule_interact now x

theorem restartAll (h : Q m.pool) : Q m.restartAll.2.pool := by
  -- all restarts are asked for before any of them rests
  have hasked (l : List String) (tickets : List (Nat × String)) {d : Scheduler} (hd : d.Reviving Q) :
      (l.foldl (fun p id => (p.1 ++ [((Scheduler.ask p.2 id .restart).1, id)],
        (Scheduler.ask p.2 id .restart).2)) (tickets, d)).2.Reviving Q := by
    induction l generalizing tickets d with
    | nil => exact hd
    | cons id l ih => exact ih _ (Scheduler.reviving_ask k hd id)
  have hopened : (Scheduler.opened m.pool).Reviving Q := ⟨h, rfl, rfl, by simp [Scheduler.opened]⟩
  have hsettled := Scheduler.reviving_settle k (hasked m.slots.ids [] hopened)
  exact foldl (fun _ p h => k.observed.afterRestart h p.1 p.2) (k.withPool m hsettled.pool) _

theorem cleanup (h : Q m.pool) : Q m.cleanup.2.pool :=
  foldl (m := { m with slots := m.slots.drain.2 }) (f := Manager.halt)
    (fun _ id h => k.halt h id) h m.slots.drain.1

end

end Pool.Keeps

/-! ## One property of each container -/

namespace Pool

/-- `P` holds of each container of the pool. -/
def All (P : Container → Prop) (y : Pool) : Prop := ∀ id c, y.get? id = some c → P c

variable {P : Container → Prop} {R : Container → Container → Prop} {y y' : Pool}

theorem all_opened (P : Container → Prop) (outside : Outside) : (opened outside).All P := by
  intro id c hc
  cases hc

theorem get?_of_same (hc : y'.containers = y.containers) (id : String) :
    y'.get? id = y.get? id := by
  unfold get?
  rw [hc]

theorem All.of_same (h : y.All P) (hc : y'.containers = y.containers) : y'.All P := by
  intro id c hid
  rw [get?_of_same hc] at hid
  exact h id c hid

theorem All.put (h : y.All P) {c : Container} (hc : P { c with outbox := [] }) :
    (y.put c).All P := by
  intro id d hd
  rw [get?_put] at hd
  split at hd
  · cases hd
    exact hc
  · exact h id d hd

/-- What the relation keeps for a container is kept for all of them. -/
theorem keeps_all (hP : ∀ c d, R c d → P c → P { d with outbox := [] }) : Keeps R (All P) where
  same := fun h hc _ => h.of_same hc
  put := fun h hc hd => h.put (hP _ _ hd (h _ _ hc))

theorem keeps_all_sameModule (hP : ∀ c d, Container.SameModule c d → P c → P d) :
    Keeps Container.SameModule (All P) :=
  keeps_all fun c d hd hc => hP c _ (hd.trans d.alike_cleared.sameModule) hc

/-- What is kept when a container that was made is put in is kept when one is made. -/
theorem Keeps.create (k : Keeps R Q) (h : Q y) {name : String} {box : Guest.Sandbox}
    {module : Guest.Compiled} {digest : Option String}
    (hput : ∀ y id env c, Container.create id name box module digest env = .ok c → Q y →
      Q (y.put c)) : Q (y.create none name box module digest).2 := by
  have hstamped : Q y.stamp.2 := k.same h rfl rfl
  simp only [Pool.create]
  cases hc : Container.create (generateId name y.stamp.1) name box module digest
      y.stamp.2.surroundings with
  | error e => exact hstamped
  | ok c => exact k.same (hput _ _ _ c hc hstamped) rfl rfl

/-- The same for scaling, which puts containers in even if it fails. -/
theorem Keeps.scale (k : Keeps R Q) (h : Q y) {id : String} {n : Nat}
    {result : Except Error (List String)} (hs : y.scale id n = some (result, y'))
    (hput : ∀ c, y.get? id = some c → ∀ tries, ∀ r ∈ (c.scale tries).2, ∀ y, Q y → Q (y.put r)) :
    Q y' := by
  obtain ⟨c, hc, hmade⟩ := Option.bind_eq_some_iff.mp hs
  simp only [Option.some.injEq, Prod.mk.injEq] at hmade
  obtain ⟨-, rfl⟩ := hmade
  have hattempts : Q (attempts n y).2 := by
    rw [attempts_snd]
    exact k.same h rfl rfl
  have hmade : Q ((c.scale (attempts n y).1).2.foldl Pool.put (attempts n y).2) :=
    List.foldlRecOn _ _ hattempts fun y hy r hr => hput c hc _ r hr y hy
  exact k.same hmade rfl rfl

theorem All.create (h : y.All P) {name : String} {box : Guest.Sandbox} {module : Guest.Compiled}
    {digest : Option String}
    (hnew : ∀ id env c, Container.create id name box module digest env = .ok c →
      P { c with outbox := [] }) :
    (y.create none name box module digest).2.All P :=
  (keeps_all (R := fun _ d => P { d with outbox := [] }) fun _ _ hd _ => hd).create h
    fun _ id env c hc hy => hy.put (hnew id env c hc)

theorem All.scale (h : y.All P) {id : String} {n : Nat} {result : Except Error (List String)}
    (hs : y.scale id n = some (result, y'))
    (hnew : ∀ c, y.get? id = some c → ∀ tries, ∀ r ∈ (c.scale tries).2, P { r with outbox := [] }) :
    y'.All P :=
  (keeps_all (R := fun _ d => P { d with outbox := [] }) fun _ _ hd _ => hd).scale h hs
    fun c hc tries r hr _ hy => hy.put (hnew c hc tries r hr)

/-- What stands under the id of a container after containers were put in is one of them. -/
theorem get?_putAll_of_mem {made : List Container} {x : String} (hx : x ∈ made.map (·.id)) :
    ∃ r ∈ made, (made.foldl Pool.put y).get? x = some { r with outbox := [] } := by
  induction made generalizing y with
  | nil => cases hx
  | cons r made ih =>
    rw [List.foldl_cons]
    rcases get?_putAll (y.put r) made x with ⟨d, hd, -, hget⟩ | hget
    · exact ⟨d, List.mem_cons_of_mem _ hd, hget⟩
    · rcases List.mem_cons.mp hx with rfl | hx
      · exact ⟨r, List.mem_cons_self, hget.trans (y.get?_put_self r)⟩
      · obtain ⟨d, hd, hget⟩ := ih (y := y.put r) hx
        exact ⟨d, List.mem_cons_of_mem _ hd, hget⟩

/-- Each container that scaling reports stands in the pool and was made like the one scaled. -/
theorem copied_of_scale {id : String} {n : Nat} {ids : List String} {c : Container}
    (hc : y.get? id = some c) (hs : y.scale id n = some (.ok ids, y')) (x : String) (hx : x ∈ ids) :
    ∃ d, y'.get? x = some d ∧ c.Copied d := by
  obtain ⟨c', hc', hmade⟩ := Option.bind_eq_some_iff.mp hs
  obtain rfl : c = c' := Option.some.inj (hc.symm.trans hc')
  have hcopied := c.copied_scale (attempts n y).1
  simp only at hmade
  generalize c.scale (attempts n y).1 = outcome at hmade hcopied
  obtain ⟨e | u, made⟩ := outcome
  · cases hmade
  · cases hmade
    obtain ⟨r, hr, hget⟩ := get?_putAll_of_mem (y := (attempts n y).2) hx
    exact ⟨_, hget, (hcopied r hr).sameModule r.alike_cleared.sameModule⟩

/-! ## What becomes of each container -/

/-- The containers stand under their own ids. -/
def Labelled (y : Pool) : Prop := ∀ id c, y.get? id = some c → c.id = id

theorem labelled_opened (outside : Outside) : (opened outside).Labelled := by
  intro id c hc
  cases hc

theorem Labelled.of_same (h : y.Labelled) (hc : y'.containers = y.containers) : y'.Labelled := by
  intro id c hid
  rw [get?_of_same hc] at hid
  exact h id c hid

/-- A container is always put under its own id. -/
theorem Labelled.put (h : y.Labelled) (c : Container) : (y.put c).Labelled := by
  intro id d hd
  rw [get?_put] at hd
  split at hd
  · rename_i heq
    cases hd
    exact heq
  · exact h id d hd

theorem keeps_labelled (R : Container → Container → Prop) : Keeps R Labelled where
  same := fun h hc _ => h.of_same hc
  put := fun h _ _ => h.put _

theorem Labelled.create (h : y.Labelled) (name : String) (box : Guest.Sandbox)
    (module : Guest.Compiled) (digest : Option String) :
    (y.create none name box module digest).2.Labelled :=
  (keeps_labelled fun _ _ => True).create h fun _ _ _ c _ hy => hy.put c

theorem Labelled.scale (h : y.Labelled) {id : String} {n : Nat}
    {result : Except Error (List String)} (hs : y.scale id n = some (result, y')) :
    y'.Labelled :=
  (keeps_labelled fun _ _ => True).scale h hs fun _ _ _ r _ _ hy => hy.put r

/-- Each container of `y` is in `y'` as something that it may have become, and the directories are
the same. -/
structure Tracks (R : Container → Container → Prop) (y y' : Pool) : Prop where
  labelled : y'.Labelled
  outside : y'.outside = y.outside
  became : ∀ id c, y.get? id = some c → ∃ d, y'.get? id = some d ∧ R c d

theorem Labelled.tracks (h : y.Labelled) (hrefl : ∀ c, R c c) : y.Tracks R y :=
  ⟨h, rfl, fun _ c hc => ⟨c, hc, hrefl c⟩⟩

/-- Containers that only ever become what the relation allows are found as that. -/
theorem keeps_tracks (hid : ∀ c d, R c d → d.id = c.id)
    (htrans : ∀ c d e, R c d → R d e → R c { e with outbox := [] }) (y : Pool) :
    Keeps R (y.Tracks R) where
  same := by
    intro y₁ y₂ h hc houtside
    refine ⟨h.labelled.of_same hc, houtside.trans h.outside, ?_⟩
    intro id c hid
    obtain ⟨d, hd, hR⟩ := h.became id c hid
    exact ⟨d, (get?_of_same hc id).trans hd, hR⟩
  put := by
    intro y₁ id c d h hc hd
    have hdid : d.id = id := (hid c d hd).trans (h.labelled id c hc)
    refine ⟨h.labelled.put d, h.outside, ?_⟩
    intro x c₀ hx
    obtain ⟨e, he, hR⟩ := h.became x c₀ hx
    rw [get?_put, hdid]
    -- one container has become what was put in, and the others stay what they had become
    by_cases heq : id = x
    · subst heq
      obtain rfl : c = e := Option.some.inj (hc.symm.trans he)
      rw [if_pos rfl, ← hdid]
      exact ⟨_, rfl, htrans c₀ c d hR hd⟩
    · rw [if_neg heq]
      exact ⟨e, he, hR⟩

/-- Time passes without a trace on what containers are made of. -/
theorem keeps_alike (y : Pool) : Keeps Container.Observed (y.Tracks Container.Alike) := by
  have htracks : Keeps Container.Alike (y.Tracks Container.Alike) := by
    refine keeps_tracks (fun _ _ h => h.id) ?_ y
    intro c d e h k
    exact (h.trans k).trans e.alike_cleared
  exact htracks.mono fun _ _ => Container.alike_of_observed

theorem keeps_sameModule (y : Pool) : Keeps Container.SameModule (y.Tracks Container.SameModule) := by
  refine keeps_tracks (fun _ _ h => h.id) ?_ y
  intro c d e h k
  exact (h.trans k).trans e.alike_cleared.sameModule

end Pool

/-! ## Slots and single containers -/

namespace Manager

variable (m : Manager)

@[simp] theorem slots_withPool (y : Pool) : (m.withPool y).slots = m.slots :=
  (passOn_frame y.heard _).1

@[simp] theorem slots_act {α : Type} (id : String) (default : α) (f : Container → α × Container) :
    (m.act id default f).2.slots = m.slots := by
  unfold act
  split
  · exact m.slots_withPool _
  · rfl

@[simp] theorem slots_sleep (d : Duration) : (m.sleep d).slots = m.slots := m.slots_withPool _

@[simp] theorem slots_watchOver (id : String) : (m.watchOver id).slots = m.slots := by
  unfold watchOver
  split
  · split
    · exact m.slots_withPool _
    · rfl
  · rfl

@[simp] theorem slots_afterRestart (id : String) (r : Except Error Unit) :
    (m.afterRestart id r).slots = m.slots := by
  cases r with
  | error e => rfl
  | ok u => exact m.slots_watchOver id

@[simp] theorem slots_announceScaled (id : String) (n : Nat) (ids : List String) :
    (m.announceScaled id n ids).slots = m.slots :=
  ids.foldlRecOn (motive := fun m' : Manager => m'.slots = m.slots) _ rfl fun _ h _ _ => h

/-- What is there when something was done with a container. -/
theorem act_spec {α : Type} {m : Manager} {id : String} {c : Container}
    (hc : m.pool.get? id = some c) (default : α) (f : Container → α × Container) :
    (m.act id default f).1 = (f c).1 ∧ (m.act id default f).2.pool.outside = m.pool.outside ∧
      (m.act id default f).2.pool.get? (f c).2.id = some { (f c).2 with outbox := [] } := by
  have hact : m.pool.act id f = some ((f c).1, (m.pool.pass (.micros 1)).put (f c).2) := by
    unfold Pool.act
    rw [hc]
  have hyard (y : Pool) : (m.withPool y).pool = y.takeHeard.2 := (passOn_frame y.heard _).2
  unfold act
  rw [hact]
  dsimp only
  rw [hyard]
  exact ⟨rfl, rfl, Pool.get?_put_self ..⟩

end Manager

/-! ## Operations that make containers -/

namespace Manager

variable {m : Manager}

/-- What holds of the pool when the container is made is kept until it is announced. -/
theorem kept_startContainer {Q : Pool → Prop} (k : Pool.Keeps Container.Observed Q)
    (r : Reservation) {name : String} {c : ContainerConfig} {module : CachedModule}
    (hmade : Q (m.pool.create none name (m.sandbox c) module.module (some module.digest)).2) :
    Q (m.startContainer r name c module).2.pool := by
  simp only [startContainer]
  generalize m.pool.create none name (m.sandbox c) module.module (some module.digest) = created
    at hmade ⊢
  obtain ⟨e | id, y⟩ := created
  · exact k.withPool m hmade
  · exact k.register (k.withPool m hmade) r [id]

theorem all_startContainer {P : Container → Prop} (h : m.pool.All P)
    (hP : ∀ c d, Container.SameModule c d → P c → P d) (r : Reservation) {name : String}
    {c : ContainerConfig} {module : CachedModule}
    (hnew : ∀ d : Container, d.name = name → d.module = module.module →
      d.digest = some module.digest → d.Housed → P d) :
    (m.startContainer r name c module).2.pool.All P := by
  refine kept_startContainer (Pool.keeps_all_sameModule hP).observed r (h.create ?_)
  intro id env q hq
  obtain ⟨g, hmade, halike⟩ := Container.create_made hq
  exact hP q _ q.alike_cleared.sameModule
    (hnew q halike.name halike.module halike.digest (halike.housed rfl hmade))

theorem labelled_startContainer (h : m.pool.Labelled) (r : Reservation) (name : String)
    (c : ContainerConfig) (module : CachedModule) :
    (m.startContainer r name c module).2.pool.Labelled :=
  kept_startContainer (Pool.keeps_labelled _) r (h.create name _ _ _)

/-- What holds of the pool when the containers are made is kept until they are announced. -/
theorem kept_scale {Q : Pool → Prop} (k : Pool.Keeps Container.Observed Q) (h : Q m.pool)
    (id : String) (n : Nat) (hmade : ∀ result y, m.pool.scale id n = some (result, y) → Q y) :
    Q (m.scale id n).2.pool := by
  unfold scale beginScale
  cases m.lookup id with
  | error e => exact h
  | ok c =>
    cases m.slots.reserve n with
    | error e => exact h
    | ok p =>
      simp only [endScale]
      rcases hs : m.pool.scale id n with _ | ⟨e | ids, y⟩
      · exact h
      · exact k.withPool { m with slots := p.2 } (hmade _ y hs)
      · exact Pool.Keeps.announceScaled
          (k.register (k.withPool { m with slots := p.2 } (hmade _ y hs)) p.1 ids) id n ids

theorem all_scale {P : Container → Prop} (h : m.pool.All P)
    (hP : ∀ c d, Container.SameModule c d → P c → P d) (id : String) (n : Nat)
    (hnew : ∀ c r, P c → Container.Copied c r → P r) : (m.scale id n).2.pool.All P := by
  refine kept_scale (Pool.keeps_all_sameModule hP).observed h id n ?_
  intro result y hs
  refine h.scale hs ?_
  intro c hc tries r hr
  exact hP r _ r.alike_cleared.sameModule (hnew c r (h id c hc) (c.copied_scale tries r hr))

theorem labelled_scale (h : m.pool.Labelled) (id : String) (n : Nat) :
    (m.scale id n).2.pool.Labelled :=
  kept_scale (Pool.keeps_labelled _) h id n fun _ _ hs => h.scale hs

end Manager
end ContainerHost
