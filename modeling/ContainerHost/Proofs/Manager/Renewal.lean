import ContainerHost.Proofs.Manager.Frames
import ContainerHost.Proofs.Manager.Restarts
import ContainerHost.Proofs.Manager.Rests
import ContainerHost.Proofs.Manager.ManagerSteps
/-!
# Cleanups

A cleanup stops all registered containers, says so to those who listen, and leaves nothing in the
slots, in the cache and on the bus (`Cleared`). What is left are containers that someone outside
holds; the others are gone, and their reports with them (`keeping`). As long as none of those that
are held reports its metrics, the manager is as good as one that is built anew at that time
(`Cleared.goesOnAnew_iff`). Stopped containers report nothing. One that was revived after it had been
removed does report, and those who listen from then on hear of it (`cleanup_renews_iff`,
`not_goesOnAnew_haunted`).
-/

namespace ContainerHost

open Event.Bus (entriesOf)

namespace Manager

/-! ## Managers that are built anew -/

/-- A manager with the same settings and the same collaborators, over the same directories. -/
structure Peers (m m' : Manager) : Prop where
  config : m'.config = m.config
  host : m'.host = m.host
  source : m'.source = m.source
  deployer : m'.deployer = m.deployer
  network : m'.network = m.network
  outside : m'.pool.outside = m.pool.outside

variable {m m' m'' : Manager}

theorem Peers.refl (m : Manager) : m.Peers m := ⟨rfl, rfl, rfl, rfl, rfl, rfl⟩

theorem Peers.trans (h : m.Peers m') (k : m'.Peers m'') : m.Peers m'' :=
  ⟨k.config.trans h.config, k.host.trans h.host, k.source.trans h.source,
    k.deployer.trans h.deployer, k.network.trans h.network, k.outside.trans h.outside⟩

theorem peers_withPool (m : Manager) {y : Pool} (hy : y.outside = m.pool.outside) :
    m.Peers (m.withPool y) := by
  refine List.foldlRecOn (motive := fun m' : Manager => m.Peers m') y.takeHeard.1 passOn
    ⟨rfl, rfl, rfl, rfl, rfl, hy⟩ ?_
  intro m' h n _
  cases n <;> exact h.trans ⟨rfl, rfl, rfl, rfl, rfl, rfl⟩

theorem peers_halt (m : Manager) (id : String) : m.Peers (m.halt id) := by
  unfold halt act
  split
  · rename_i hact
    exact m.peers_withPool ((Pool.keeps_outside m.pool.outside).act rfl (fun _ _ => trivial) hact)
  · exact Peers.refl m

/-- A manager that is built with the settings and the collaborators of this one, at some time and
after some stamps. -/
def rebuilt (m : Manager) (clock : Clock) (stamps : Nat) : Except Error Manager :=
  (opened m.config m.host m.source m.deployer m.network m.pool.outside).map fun m =>
    { m with pool := { m.pool with clock := clock, stamps := stamps } }

/-- The manager, with nothing done so far. -/
def anew (m : Manager) : Manager :=
  { m with
    bus := .empty
    slots := .free m.config.maxContainers
    cache := .empty m.config.cacheSize
    pool := { m.pool with containers := .empty, heard := [] }
    heard := [] }

theorem rebuilt_eq (h : m.config.validate = .ok ()) (k : m.Peers m') :
    m.rebuilt m'.pool.clock m'.pool.stamps = .ok m'.anew := by
  have hanew : m'.anew =
      ⟨m.config, m.host, m.source, m.deployer, m.network, .empty, .free m.config.maxContainers,
        .empty m.config.cacheSize,
        { Pool.opened m.pool.outside with clock := m'.pool.clock, stamps := m'.pool.stamps }, []⟩ := by
    rw [← k.config, ← k.host, ← k.source, ← k.deployer, ← k.network, ← k.outside]
    rfl
  unfold rebuilt opened
  rw [h, hanew]
  rfl

/-- The manager when of the containers that are left those are there that someone holds. -/
def keeping (m : Manager) (held : String → Bool) : Manager :=
  { m with pool := { m.pool with containers := m.pool.containers.pick fun c => held c.id } }

theorem peers_keeping (m : Manager) (held : String → Bool) : m.Peers (m.keeping held) :=
  ⟨rfl, rfl, rfl, rfl, rfl, rfl⟩

theorem get?_keeping (h : m.pool.containers.Ordered) (hl : m.pool.Labelled) (held : String → Bool)
    {id : String} {c : Container} :
    (m.keeping held).pool.get? id = some c ↔ m.pool.get? id = some c ∧ held id = true := by
  show (m.pool.containers.pick fun c => held c.id).get? id = some c ↔ _
  rw [Table.get?_pick h, Option.filter_eq_some_iff]
  constructor
  · rintro ⟨hc, hheld⟩
    exact ⟨hc, hl id c hc ▸ hheld⟩
  · rintro ⟨hc, hheld⟩
    exact ⟨hc, (hl id c hc).symm ▸ hheld⟩

/-- Managers that are used in the same way come to the same, if this is what was heard before: the
same outcomes, answers and operations under way; and from then on the same was heard, and they look
the same. -/
structure SameSteps (before : List Heard) (p q : List Outcome × ConcurrentManager) : Prop where
  outcomes : q.1 = p.1
  answers : q.2.answers = p.2.answers
  tasks : q.2.tasks = p.2.tasks
  heard : q.2.manager.heard = before ++ p.2.manager.heard
  looks : p.2.manager.Looks q.2.manager

/-- However it is used, the manager goes on as one that is built anew, as long as nobody does anything
with a container that it has left over. -/
def GoesOnAnew (left : Manager) : Prop :=
  ∀ xs : List ManagerStep, (∀ x ∈ xs, x.Spares left) →
    SameSteps left.heard (ConcurrentManager.afterSteps left.anew xs)
      (ConcurrentManager.afterSteps left xs)

/-! ## Reports that are heard -/

end Manager

theorem Container.outbox_strike {c : Container} (h : Pool.ticks c = true) (now : Nat) :
    ∃ e, Notice.event e ∈ (c.strike now).outbox ∧ e.kind = Topic.containerMetrics.name := by
  obtain ⟨t, ht⟩ := Option.isSome_iff_exists.mp h
  have hlast : ∃ before e, (c.strike now).outbox = before ++ [.event e] ∧
      e.kind = Topic.containerMetrics.name := by
    unfold strike
    rw [ht]
    exact ⟨_, _, rfl, rfl⟩
  obtain ⟨before, e, houtbox, hkind⟩ := hlast
  exact ⟨e, houtbox ▸ List.mem_append_right _ List.mem_cons_self, hkind⟩

namespace Pool

variable {y y' : Pool} {till : Nat} {id : String} {c : Container} {t : Ticker}

theorem exists_due? (h : y.containers.Ordered) (hc : y.get? id = some c) (ht : c.ticker = some t)
    (hnext : t.next ≤ till) : ∃ e, y.due? till = some e := by
  obtain ⟨before, after, hsplit⟩ := List.append_of_mem ((Table.mem_entries_iff h).mpr hc)
  unfold due?
  rw [hsplit, List.foldl_append, List.foldl_cons]
  refine Option.isSome_iff_exists.mp
    (List.foldlRecOn (motive := fun b : Option (Nat × String) => b.isSome = true) after _ ?_ ?_)
  · dsimp only
    rw [ht]
    split
    · contradiction
    · rename_i heq _
      cases heq
      rw [if_pos hnext]
      rfl
    · split <;> rfl
  · intro b hb e _
    split
    · exact hb
    · cases hb
    · split <;> rfl

theorem reportBound_pos (h : y.containers.Ordered) (hc : y.get? id = some c)
    (ht : c.ticker = some t) : 0 < y.reportBound till := by
  obtain ⟨before, after, hsplit⟩ := List.append_of_mem ((Table.mem_entries_iff h).mpr hc)
  unfold reportBound Table.values
  rw [hsplit, List.map_append, List.map_cons, List.foldl_append, List.foldl_cons]
  refine List.foldlRecOn (motive := fun n => 0 < n) _ _ ?_ ?_
  · dsimp only
    rw [ht]
    exact Nat.succ_pos _
  · intro n hn d _
    split
    · exact hn
    · exact Nat.succ_pos _

theorem prefix_act {α : Type} {f : Container → α × Container} {a : α}
    (h : y.act id f = some (a, y')) : y.heard <+: y'.heard := by
  unfold act at h
  split at h
  · cases h
  · cases h
    exact List.prefix_append _ _

theorem prefix_report (fuel till : Nat) (y : Pool) : y.heard <+: (report fuel till y).heard := by
  induction fuel generalizing y with
  | zero => exact List.prefix_rfl
  | succ fuel ih =>
    unfold report
    split
    · exact List.prefix_rfl
    · dsimp only
      split
      · exact List.prefix_rfl
      · rename_i hact
        exact (prefix_act hact).trans (ih _)

theorem reported (h : y.containers.Ordered) (hc : y.get? id = some c) (ht : c.ticker = some t)
    (hnext : t.next ≤ till) :
    ∃ e, Notice.event e ∈ (y.sleepUntil till).heard ∧ e.kind = Topic.containerMetrics.name := by
  have hbound : 0 < y.reportBound till := reportBound_pos h hc ht
  obtain ⟨fuel, hfuel⟩ := Nat.exists_eq_succ_of_ne_zero hbound.ne'
  obtain ⟨⟨time, first⟩, hdue⟩ := exists_due? h hc ht hnext
  obtain ⟨d, hd, hticks⟩ := ticks_of_due? h hdue
  obtain ⟨e, hmem, hkind⟩ := Container.outbox_strike hticks y.clock.wall
  refine ⟨e, ?_, hkind⟩
  show Notice.event e ∈ (report (y.reportBound till) till y).heard
  have hthere : (y.reach time).get? first = some d := hd
  have hact : (y.reach time).act first (fun c => ((), c.strike y.clock.wall)) =
      some ((), (((y.reach time).pass (.micros 1)).put (d.strike y.clock.wall))) := by
    unfold act
    rw [hthere]
  rw [hfuel, report_of_due hdue hact]
  exact (prefix_report fuel till _).subset (List.mem_append_right y.heard hmem)

end Pool

namespace Manager

variable {m : Manager}

/-- An event that a container has announced is heard by those who listen for good. -/
theorem heard_passOn {notices : List Notice} {e : Event} (he : .event e ∈ notices)
    (hlisten : entriesOf m.bus.persistent e.kind ≠ []) :
    m.heard.length < (notices.foldl passOn m).heard.length := by
  have hgrows (m : Manager) (n : Notice) : m.heard.length ≤ (m.passOn n).heard.length := by
    cases n <;> exact (List.prefix_append _ _).length_le
  have hall (l : List Notice) (m : Manager) : m.heard.length ≤ (l.foldl passOn m).heard.length :=
    List.foldlRecOn (motive := fun m' : Manager => m.heard.length ≤ m'.heard.length) l passOn
      (Nat.le_refl _) fun m' hm' n _ => Nat.le_trans hm' (hgrows m' n)
  induction notices generalizing m with
  | nil => cases he
  | cons n notices ih =>
    rw [List.foldl_cons]
    rcases List.mem_cons.mp he with rfl | he
    · refine Nat.lt_of_lt_of_le ?_ (hall notices _)
      have hlisteners : m.bus.listeners e.kind ≠ [] := fun hnone =>
        hlisten (List.append_eq_nil_iff.mp hnone).1
      have hpos := List.length_pos_iff.mpr hlisteners
      show m.heard.length < (m.heard ++ (m.bus.listeners e.kind).map fun x =>
        Heard.event x.listener e).length
      rw [List.length_append, List.length_map]
      omega
    · have hkept : (m.passOn n).bus.persistent = m.bus.persistent := by cases n <;> rfl
      exact Nat.lt_of_le_of_lt (hgrows m n) (ih he (hkept ▸ hlisten))

/-! ## Managers that were cleared -/

/-- Nothing is registered, reserved or in the cache, and nobody listens. -/
structure Cleared (left : Manager) : Prop where
  slots : left.slots = .free left.config.maxContainers
  cache : left.cache = ⟨.empty, 0, left.config.cacheSize, left.cache.hits, left.cache.misses⟩
  bus : left.bus = ⟨.empty, .empty, left.bus.nextId⟩
  nextId : 1 ≤ left.bus.nextId
  heard : left.pool.heard = []
  ordered : left.pool.containers.Ordered

variable {left : Manager}

theorem Cleared.keeping (h : left.Cleared) (held : String → Bool) : (left.keeping held).Cleared :=
  ⟨h.slots, h.cache, h.bus, h.nextId, h.heard, Table.ordered_pick h.ordered _⟩

/-- A manager that was cleared is atop of itself, as it would be if it were built anew. -/
theorem Cleared.atop (h : left.Cleared)
    (hstill : ∀ id c, left.pool.get? id = some c → c.ticker = none) : left.anew.Atop left left where
  pool :=
    { clock := rfl
      outside := rfl
      stamps := rfl
      heard := h.heard
      ordered := Table.ordered_empty
      ordered' := h.ordered
      containers := by
        intro id
        cases hid : left.pool.get? id with
        | none => exact .inl rfl
        | some c =>
          refine .inr ⟨rfl, rfl, ?_⟩
          intro d hd
          exact hstill id d (hid.trans hd) }
  same := by
    have hnext := Nat.sub_add_cancel h.nextId
    obtain ⟨config, host, source, deployer, network, bus, slots, cache, pool, heard⟩ := left
    obtain ⟨hslots, hcache, hbus, -, -, -⟩ := h
    dsimp only at hslots hcache hbus hnext
    unfold onto anew Event.Bus.raise
    dsimp only [Event.Bus.empty, ModuleCache.empty, Table.map_empty]
    rw [hnext, List.append_nil, hslots, hbus, hcache]
    rfl

theorem Cleared.sane (left : Manager) : (ConcurrentManager.opened left.anew).Sane :=
  ConcurrentManager.sane_opened rfl ⟨rfl, ⟨⟨Table.ordered_empty, by simp [anew, Pool.get?],
    by simp [anew, Pool.get?]⟩, fun _ => rfl⟩⟩

/-- Someone listens for the metrics of containers, and some time passes. -/
def watching (nanos : Nat) : List ManagerStep :=
  [.move (.observe Topic.containerMetrics.name .recorder), .move (.sleep ⟨nanos⟩)]

theorem spares_watching (left : Manager) (nanos : Nat) : ∀ x ∈ watching nanos, x.Spares left := by
  intro x hx id y heq
  rw [heq] at hx
  simp [watching] at hx

/-- Whoever listens for metrics hears of a container that reports them. -/
theorem Cleared.still (h : left.Cleared) (hanew : left.GoesOnAnew) {id : String} {c : Container}
    (hc : left.pool.get? id = some c) : c.ticker = none := by
  refine Option.eq_none_iff_forall_ne_some.mpr ?_
  intro t ht
  have hheard := (hanew (watching t.next) (left.spares_watching t.next)).heard
  have hfresh : (ConcurrentManager.afterSteps left.anew (watching t.next)).2.manager.heard = [] := by
    have hsilent : (left.anew.pool.sleep ⟨t.next⟩).heard = [] := rfl
    show ((left.anew.observe Topic.containerMetrics.name .recorder).withPool
      (left.anew.pool.sleep ⟨t.next⟩)).heard = []
    rw [withPool_of_silent _ hsilent]
    rfl
  have hused : left.heard.length <
      (ConcurrentManager.afterSteps left (watching t.next)).2.manager.heard.length := by
    have hdue : t.next ≤ left.pool.clock.timers + t.next := Nat.le_add_left _ _
    obtain ⟨e, he, hkind⟩ := Pool.reported h.ordered hc ht hdue
    have hlisten : entriesOf (left.observe Topic.containerMetrics.name .recorder).bus.persistent
        e.kind ≠ [] := by
      rw [hkind]
      show entriesOf (Event.Bus.append left.bus.persistent _ _) _ ≠ []
      rw [Event.Bus.entriesOf_append]
      simp
    exact heard_passOn
      (m := { left.observe Topic.containerMetrics.name .recorder with
        pool := (left.pool.sleep ⟨t.next⟩).takeHeard.2 }) he hlisten
  rw [hheard, hfresh, List.append_nil] at hused
  exact Nat.lt_irrefl _ hused

theorem Cleared.goesOnAnew_iff (h : left.Cleared) :
    left.GoesOnAnew ↔ ∀ id c, left.pool.get? id = some c → c.ticker = none := by
  constructor
  · intro hanew id c hc
    exact h.still hanew hc
  · intro hstill xs hxs
    have hatop : (ConcurrentManager.opened left.anew).Atop left (ConcurrentManager.opened left) :=
      ⟨h.atop hstill, rfl, rfl, rfl⟩
    obtain ⟨houtcomes, hafter, hsane⟩ := hatop.doSteps (Cleared.sane left) hxs 1
    rw [Nat.sub_add_cancel h.nextId] at houtcomes hafter
    exact ⟨houtcomes, hafter.answers, hafter.tasks, hafter.manager.heard,
      hafter.manager.looks (ConcurrentManager.housed hsane)⟩

/-! ## What a cleanup does -/

/-- What is announced when all containers were removed. -/
def cleanupEvent (summary : BulkSummary) : Event :=
  ⟨Topic.cleanup.name, none, .obj summary.members⟩

/-- The manager when all containers are out of the registry and were stopped. -/
def swept (m : Manager) : Manager := m.slots.ids.foldl halt { m with slots := m.slots.drain.2 }

theorem cleanup_eq (m : Manager) :
    m.cleanup = (⟨m.size, m.size, 0⟩, m.swept.endCleanup ⟨m.size, m.size, 0⟩) := by
  have hsummary : BulkSummary.ofResults
      (m.slots.ids.map fun _ => (.ok () : Except Error Unit)) = ⟨m.size, m.size, 0⟩ := by
    have hall : (m.slots.ids.map fun _ => (.ok () : Except Error Unit)).filter Except.isOk =
        m.slots.ids.map fun _ => .ok () := by
      refine List.filter_eq_self.mpr ?_
      intro r hr
      obtain ⟨_, -, rfl⟩ := List.mem_map.mp hr
      rfl
    have hlength : m.slots.ids.length = m.size := by
      unfold Slots.ids size
      rw [Table.size_eq_length_keys]
    rw [BulkSummary.ofResults_eq, hall, List.length_map, hlength, Nat.sub_self]
  show (BulkSummary.ofResults (m.slots.ids.map fun _ => (.ok () : Except Error Unit)),
    m.swept.endCleanup (.ofResults (m.slots.ids.map fun _ => (.ok () : Except Error Unit)))) = _
  rw [hsummary]

/-- What is true of a manager whose containers are stopped one after the other, since each that is
stopped leaves it so. -/
theorem swept_induction {P : Manager → Prop} (hdrained : P { m with slots := m.slots.drain.2 })
    (hstep : ∀ m id, P m → P (m.halt id)) : P m.swept :=
  List.foldlRecOn (motive := P) m.slots.ids halt hdrained fun m' h id _ => hstep m' id h

theorem slots_swept (m : Manager) : m.swept.slots = m.slots.drain.2 :=
  swept_induction (P := fun m' => m'.slots = m.slots.drain.2) rfl
    fun m' id h => (m'.slots_act id () _).trans h

theorem frames_swept (m : Manager) : m.Frames m.swept :=
  swept_induction (P := fun m' => m.Frames m') (frames_of_same rfl rfl rfl)
    fun m' id h => h.trans (m'.frames_act id () _)

theorem peers_swept (m : Manager) : m.Peers m.swept :=
  swept_induction (P := fun m' => m.Peers m') ⟨rfl, rfl, rfl, rfl, rfl, rfl⟩
    fun m' id h => h.trans (m'.peers_halt id)

theorem peers_cleanup (m : Manager) : m.Peers m.cleanup.2 := by
  rw [cleanup_eq]
  exact m.peers_swept.trans ⟨rfl, rfl, rfl, rfl, rfl, rfl⟩

/-- What a cleanup leaves would be built anew as this. -/
theorem rebuilt_cleanup (h : m.config.validate = .ok ()) (held : String → Bool) :
    m.rebuilt (m.cleanup.2.keeping held).pool.clock (m.cleanup.2.keeping held).pool.stamps =
      .ok (m.cleanup.2.keeping held).anew :=
  rebuilt_eq h (m.peers_cleanup.trans (m.cleanup.2.peers_keeping held))

theorem Settled.swept (h : m.Settled) : m.swept.Settled := by
  refine swept_induction ?_ fun m' id h' => h'.act id () fun c => c.sameIdentity_stop.id
  refine ⟨h.quiet.of_pool rfl, h.sound, ?_, ?_⟩
  · exact Nat.le_trans (Nat.add_le_add_right (Nat.zero_le _) _) h.within
  · intro id hid
    cases hid

theorem Quiet.level_swept (h : m.Quiet) : m.Level m.swept := by
  refine (swept_induction (P := fun m' => m.Level m' ∧ m'.Quiet) ?_ ?_).1
  · exact ⟨level_of_same rfl rfl, h.of_pool rfl⟩
  · rintro m' id ⟨hlevel, hquiet⟩
    exact ⟨hlevel.trans (hquiet.level_act id () fun c => .stopped c), hquiet.act id () _⟩

/-- Containers that are stopped one after the other, and those that are not. -/
theorem get?_halts {ids : List String} (hn : ids.Nodup) (hl : m.pool.Labelled) (x : String) :
    (ids.foldl halt m).pool.get? x = (m.pool.get? x).map fun c =>
      if x ∈ ids then { c.stop with outbox := [] } else c := by
  induction ids generalizing m with
  | nil => simp
  | cons id ids ih =>
    obtain ⟨hnew, hrest⟩ := List.nodup_cons.mp hn
    rw [List.foldl_cons, ih hrest ((Pool.keeps_labelled Container.SameModule).halt hl id)]
    by_cases hx : x = id
    · subst hx
      simp only [if_neg hnew, List.mem_cons_self, if_true, Option.map_id']
      cases hc : m.pool.get? x with
      | none =>
        have hact : m.halt x = m := by
          unfold halt act Pool.act
          rw [hc]
        rw [hact, hc]
        rfl
      | some c => exact (act_there hl () (f := fun c => ((), c.stop)) hc c.sameIdentity_stop.id).2.2
    · have hsame : (m.halt id).pool.get? x = m.pool.get? x :=
        get?_pool_act_of_ne hl () (f := fun c => ((), c.stop)) (fun c => c.sameIdentity_stop.id) hx
      simp [hsame, hx]

theorem get?_cleanup (h : m.Settled) (hn : m.slots.ids.Nodup) (x : String) :
    m.cleanup.2.pool.get? x = (m.pool.get? x).map fun c =>
      if m.slots.holds x then { c.stop with outbox := [] } else c := by
  simp only [Slots.holds_iff]
  rw [cleanup_eq]
  exact get?_halts (m := { m with slots := m.slots.drain.2 }) hn h.labelled x

/-- Who was registered is stopped. -/
theorem statusOf_cleanup (h : m.Settled) (hn : m.slots.ids.Nodup) {id : String} {c : Container}
    (hc : m.get? id = some c) : m.cleanup.2.pool.statusOf id = some .stopped := by
  obtain ⟨hin, hc⟩ := holds_of_get? hc
  rw [Pool.statusOf, get?_cleanup h hn, hc, Option.map_some, if_pos hin]
  exact congrArg some c.status_stop

/-- Of what managers announce, nothing but the cleanup is heard, by those who listened before. -/
theorem ownHeard_cleanup (h : m.Quiet) :
    m.cleanup.2.ownHeard = m.ownHeard ++ m.hearing (cleanupEvent ⟨m.size, m.size, 0⟩) := by
  have hannounced := h.level_swept.before
    (m.swept.announces_emit (cleanupEvent ⟨m.size, m.size, 0⟩))
  have hown : (cleanupEvent ⟨m.size, m.size, 0⟩).isOwn = true := rfl
  have hheard := m.ownHeard_emit (cleanupEvent ⟨m.size, m.size, 0⟩)
  rw [if_pos hown] at hheard
  rw [cleanup_eq]
  exact hannounced.heard.trans hheard

theorem pool_cleanup (m : Manager) : m.cleanup.2.pool = m.swept.pool := by
  rw [cleanup_eq]
  rfl

/-- Who is held and still reports was not registered. -/
theorem silent_cleanup_iff (h : m.Settled) (hn : m.slots.ids.Nodup)
    (hlive : ∀ id c, m.get? id = some c → c.status ≠ .stopped) (held : String → Bool) :
    (∀ id c, (m.cleanup.2.keeping held).pool.get? id = some c → c.ticker = none) ↔
      ∀ id c, m.pool.get? id = some c → m.slots.holds id = false → held id = true →
        c.ticker = none := by
  have hswept := h.swept
  have hkept {id : String} {c : Container} :
      (m.cleanup.2.keeping held).pool.get? id = some c ↔
        m.cleanup.2.pool.get? id = some c ∧ held id = true :=
    get?_keeping (m.pool_cleanup ▸ hswept.sound.ordered) (m.pool_cleanup ▸ hswept.labelled) held
  constructor
  · intro hstill id c hc hout hheld
    refine hstill id c (hkept.mpr ⟨?_, hheld⟩)
    rw [get?_cleanup h hn, hc, Option.map_some, hout]
    rfl
  · intro hstill id d hd
    obtain ⟨hd, hheld⟩ := hkept.mp hd
    rw [get?_cleanup h hn] at hd
    obtain ⟨c, hc, rfl⟩ := Option.map_eq_some_iff.mp hd
    by_cases hin : m.slots.holds id = true
    · -- the stop does something, and takes the ticker away
      rw [if_pos hin]
      show c.stop.ticker = none
      unfold Container.stop
      rw [if_neg (hlive id c (get?_of_holds hin hc))]
      rfl
    · rw [if_neg hin]
      exact hstill id c hc (Bool.not_eq_true _ ▸ hin) hheld

/-- What a manager has from when it was opened. -/
structure Founded (config : ManagerConfig) (m : Manager) : Prop where
  valid : config.validate = .ok ()
  settings : m.config = config
  limit : m.slots.limit = config.maxContainers
  capacity : m.cache.capacity = config.cacheSize
  nextId : 1 ≤ m.bus.nextId

variable {config : ManagerConfig}

theorem cleared_cleanup (h : m.Settled) (hf : m.Founded config) (hnone : m.slots.pending = 0) :
    m.cleanup.2.Cleared := by
  have hsettled := h.swept
  have hframes := m.frames_swept
  have hlimit : m.slots.limit = m.swept.config.maxContainers := by
    rw [hf.limit, hframes.config, hf.settings]
  have hcapacity : m.swept.cache.capacity = m.swept.config.cacheSize := by
    rw [hframes.capacity, hf.capacity, hframes.config, hf.settings]
  rw [cleanup_eq]
  refine ⟨?_, ?_, rfl, Nat.le_trans hf.nextId hframes.nextId, hsettled.quiet.heard,
    hsettled.sound.ordered⟩
  · show m.swept.slots = .free m.swept.config.maxContainers
    rw [slots_swept, ← hlimit]
    show (⟨m.slots.limit, .empty, m.slots.pending⟩ : Slots) = _
    rw [hnone]
    rfl
  · show (⟨.empty, 0, m.swept.cache.capacity, m.swept.cache.hits, m.swept.cache.misses⟩ :
      ModuleCache) = ⟨.empty, 0, m.swept.config.cacheSize, _, _⟩
    rw [hcapacity]
    rfl

end Manager

namespace ConcurrentManager

open Manager (cleanupEvent)

variable {config : ManagerConfig} {t : ConcurrentManager}

theorem Reached.founded (h : t.Reached config) : t.manager.Founded config := by
  have hlimit := h.limit
  obtain ⟨host, source, deployer, network, outside, m, moves, hm, rfl⟩ := h
  have hframes := (opened m).frames_run moves
  have hvalid : config.validate = .ok () := by
    unfold Manager.opened at hm
    cases hv : config.validate with
    | error e => simp [hv, Except.map] at hm
    | ok u => rfl
  have heq := Manager.eq_of_opened hm
  refine ⟨hvalid, ?_, hlimit, ?_, ?_⟩
  · exact hframes.config.trans (congrArg Manager.config heq)
  · exact hframes.capacity.trans (congrArg (·.cache.capacity) heq)
  · have hfirst : m.bus.nextId = 1 := congrArg (·.bus.nextId) heq
    exact hfirst ▸ hframes.nextId

theorem Reached.pending (h : t.Reached config) (hidle : t.tasks = []) :
    t.manager.slots.pending = 0 := by
  rw [(within_of_books h.books).2, hidle]
  rfl

/-- When no operation is under way, a cleanup counts all registered containers as stopped, leaves them
stopped, and says so to those who listen. What is left goes on as a manager that is built anew with
the same settings and collaborators exactly when, of the containers that someone holds, none that was
out of the registry before reports its metrics. -/
theorem cleanup_renews_iff (h : t.Reached config) (hidle : t.tasks = []) :
    ∃ left, t.manager.cleanup = (⟨t.manager.size, t.manager.size, 0⟩, left) ∧
      (∀ id c, t.manager.get? id = some c → left.pool.statusOf id = some .stopped) ∧
      left.ownHeard = t.manager.ownHeard ++
        t.manager.hearing (cleanupEvent ⟨t.manager.size, t.manager.size, 0⟩) ∧
      ∀ held : String → Bool,
        t.manager.rebuilt left.pool.clock left.pool.stamps = .ok (left.keeping held).anew ∧
        ((left.keeping held).GoesOnAnew ↔ ∀ id c, t.manager.pool.get? id = some c →
          t.manager.slots.holds id = false → held id = true → c.ticker = none) := by
  have hsettled := h.settled
  have hfounded := h.founded
  have hcleared := Manager.cleared_cleanup hsettled hfounded (h.pending hidle)
  have hlive : ∀ id c, t.manager.get? id = some c → c.status ≠ .stopped :=
    fun _ _ hc => h.status_ne_stopped hidle hc
  refine ⟨t.manager.cleanup.2, ?_, ?_, ?_, fun held => ⟨?_, ?_⟩⟩
  · rw [Manager.cleanup_eq]
  · exact fun _ _ hc => Manager.statusOf_cleanup hsettled h.nodup_ids hc
  · exact Manager.ownHeard_cleanup hsettled.quiet
  · exact Manager.rebuilt_cleanup (hfounded.settings ▸ hfounded.valid) held
  · exact (hcleared.keeping held).goesOnAnew_iff.trans
      (Manager.silent_cleanup_iff hsettled h.nodup_ids hlive held)

/-- A container is stopped and removed, and another one takes its place. -/
def succession : List Move :=
  [.ask (.run "a" .standard), .go 0, .ask (.stop firstId), .go 0, .ask (.run "a" .standard), .go 0]

theorem reached_succession : ((opened solo).run succession).Reached narrow :=
  ⟨solo.host, solo.source, solo.deployer, .silent, .ofDirs [], solo, succession, opened_solo, rfl⟩

theorem outcome_succession :
    let t := (opened solo).run succession
    t.tasks.isEmpty = true ∧ t.manager.size = 1 ∧ t.manager.pool.containers.size = 2 ∧
      (t.manager.pool.containers.entries.all fun e =>
        t.manager.slots.holds e.1 || e.2.ticker.isNone) = true := by
  decide +kernel

/-- The container that was removed reports nothing, and a cleanup leaves the manager as good as new,
even if someone holds all containers. -/
theorem renews_succession :
    let t := (opened solo).run succession
    t.Reached narrow ∧ t.tasks = [] ∧
      ∃ left, t.manager.cleanup = (⟨1, 1, 0⟩, left) ∧
        t.manager.rebuilt left.pool.clock left.pool.stamps = .ok left.anew ∧
        (left.keeping fun _ => true).GoesOnAnew := by
  intro t
  obtain ⟨hidle, hsize, -, hquiet⟩ := outcome_succession
  have hidle : t.tasks = [] := List.isEmpty_iff.mp hidle
  have hsize : t.manager.size = 1 := hsize
  obtain ⟨left, hcleanup, -, -, hall⟩ := cleanup_renews_iff reached_succession hidle
  obtain ⟨hrenewed, hanew⟩ := hall fun _ => true
  refine ⟨reached_succession, hidle, left, hsize ▸ hcleanup, hrenewed, hanew.mpr ?_⟩
  intro id c hc hout _
  have hmem := (Table.mem_entries_iff reached_succession.settled.sound.ordered).mpr hc
  have hsilent := List.all_eq_true.mp hquiet (id, c) hmem
  have hout : t.manager.slots.holds id = false := hout
  rw [hout, Bool.false_or] at hsilent
  exact Option.isNone_iff_eq_none.mp hsilent

/-- Someone listens while two intervals pass. -/
def vigil : List ManagerStep := Manager.watching (2 * narrow.metricsInterval.nanos)

/-- What a cleanup leaves after a container was revived out of the registry, which someone holds. -/
def haunted : Manager := ((opened solo).run revival).manager.cleanup.2.keeping (· == firstId)

theorem heard_vigil :
    (afterSteps haunted.anew vigil).2.manager.heard.length = 0 ∧
      haunted.heard.length < (afterSteps haunted vigil).2.manager.heard.length := by
  decide +kernel

/-- A manager that was cleaned up may not go on as one that is built anew: a container that was
revived out of the registry goes on reporting its metrics to whoever listens. -/
theorem not_goesOnAnew_haunted :
    let t := (opened solo).run revival
    Manager.opened narrow solo.host solo.source solo.deployer .silent (.ofDirs []) = .ok solo ∧
      t.tasks = [] ∧ t.manager.cleanup.2.keeping (· == firstId) = haunted ∧
      t.manager.rebuilt haunted.pool.clock haunted.pool.stamps = .ok haunted.anew ∧
      (afterSteps haunted.anew vigil).2.manager.heard.length = 0 ∧
      haunted.heard.length < (afterSteps haunted vigil).2.manager.heard.length ∧
      ¬ haunted.GoesOnAnew := by
  intro t
  obtain ⟨hfresh, hused⟩ := heard_vigil
  have hreached : t.Reached narrow :=
    ⟨solo.host, solo.source, solo.deployer, .silent, .ofDirs [], solo, revival, opened_solo, rfl⟩
  have hfounded := hreached.founded
  have hrenewed := Manager.rebuilt_cleanup (hfounded.settings ▸ hfounded.valid) (· == firstId)
  have hleft : t.manager.cleanup.2.keeping (· == firstId) = haunted := rfl
  rw [hleft] at hrenewed
  refine ⟨opened_solo, tasks_revival, hleft, hrenewed, hfresh, hused, ?_⟩
  intro hanew
  have hheard := congrArg List.length (hanew vigil (haunted.spares_watching _)).heard
  rw [List.length_append] at hheard
  omega

end ConcurrentManager
end ContainerHost
