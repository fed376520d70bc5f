import ContainerHost.Manager.Operate
import ContainerHost.Proofs.Pool
/-!
# What a manager shows

The slots of a manager and the statuses of the containers in its pool. `m.Shows slots s` names both,
and each part of an operation has one lemma that says what it shows afterwards, failures included:
which slots are reserved, committed or dropped, which containers are new, and which have entered
another status. Events, reports and the cache do not show.
-/

namespace ContainerHost

/-! ## Parts of operations on a container -/

namespace Container

theorem endRestart_ends (c : Container) (snapshot : State) (env : Surroundings) :
    match c.endRestart snapshot env with
    | (.error _, d) => d.status = .error
    | (.ok (), d) => d.status = .running := by
  unfold endRestart revive start boot
  cases (c.setStatus .starting).sandbox.instantiate env (c.setStatus .starting).module
      (c.setStatus .starting).id with
  | error e => rfl
  | ok g => exact (aside_of_updated (updated_updateState _ snapshot)).status

theorem status_hotReload (c : Container) (m : Guest.Compiled) (digest : Option String)
    (env : Surroundings) : (c.hotReload m digest env).2.status = c.status := by
  unfold hotReload
  cases c.reloadedGuest m env with
  | error e => rfl
  | ok g =>
    have hrunning : c.beginReload.wasRunning = true → (c.swap g m digest).status = .running := by
      intro hwas
      exact of_decide_eq_true hwas
    exact (endReload_ends hrunning).1

end Container

namespace Manager

/-- The manager has these slots, and the pool shows these statuses. -/
structure Shows (m : Manager) (slots : Slots) (s : String → Option Status) : Prop where
  slots : m.slots = slots
  pool : m.pool.Shows s

variable {m : Manager} {slots : Slots} {s : String → Option Status}

/-! ## Announcements and time -/

theorem passOn_frame (notices : List Notice) (m : Manager) :
    (notices.foldl passOn m).slots = m.slots ∧ (notices.foldl passOn m).pool = m.pool := by
  induction notices generalizing m with
  | nil => exact ⟨rfl, rfl⟩
  | cons n notices ih =>
    have hone : (m.passOn n).slots = m.slots ∧ (m.passOn n).pool = m.pool := by
      cases n <;> exact ⟨rfl, rfl⟩
    obtain ⟨hslots, hyard⟩ := ih (m.passOn n)
    exact ⟨hslots.trans hone.1, hyard.trans hone.2⟩

theorem shows_withPool {y : Pool} (hslots : m.slots = slots) (hy : y.Shows s) :
    (m.withPool y).Shows slots s := by
  obtain ⟨hs, hyard⟩ := passOn_frame y.heard { m with pool := y.takeHeard.2 }
  refine ⟨hs.trans hslots, ?_⟩
  unfold withPool
  rw [show ((y.takeHeard.1.foldl passOn { m with pool := y.takeHeard.2 }).pool) = y.takeHeard.2
    from hyard]
  exact Pool.shows_takeHeard hy

theorem Shows.emit (h : m.Shows slots s) (e : Event) : (m.emit e).Shows slots s := ⟨h.slots, h.pool⟩

theorem Shows.announceFor (h : m.Shows slots s) (t : Topic) (id : String)
    (more : List (String × Json.Value)) : (m.announceFor t id more).Shows slots s := h.emit _

theorem Shows.keep (h : m.Shows slots s) (key : String) (c : CachedModule) :
    (m.keep key c).Shows slots s := ⟨h.slots, h.pool⟩

theorem Shows.endRestartAll (h : m.Shows slots s) (b : BulkSummary) :
    (m.endRestartAll b).Shows slots s := h.emit _

theorem Shows.endCleanup (h : m.Shows slots s) (b : BulkSummary) :
    (m.endCleanup b).Shows slots s := ⟨h.slots, h.pool⟩

theorem Shows.sleep (h : m.Shows slots s) (d : Duration) : (m.sleep d).Shows slots s :=
  shows_withPool h.slots (Pool.shows_sleep h.pool d)

theorem Shows.drop (h : m.Shows slots s) (r : Reservation) : (m.drop r).Shows (slots.drop r) s :=
  ⟨by rw [← h.slots]; rfl, h.pool⟩

theorem Shows.announceScaled (h : m.Shows slots s) (id : String) (n : Nat) (ids : List String) :
    (m.announceScaled id n ids).Shows slots s := by
  refine Shows.announceFor ?_ _ _ _
  generalize ids = replicas
  induction replicas generalizing m with
  | nil => exact h
  | cons r replicas ih => exact ih (h.announceFor _ _ _)

/-! ## Single containers -/

section

variable {α : Type} {id : String}

/-- Something that is done with a container of the pool, which keeps its id. -/
theorem Shows.act (h : m.Shows slots s) (default : α) {f : Container → α × Container}
    (hf : ∀ c, (f c).2.id = c.id) (hin : (s id).isSome) :
    ∃ c, (m.act id default f).1 = (f c).1 ∧
      (m.act id default f).2.Shows slots (assign s id (f c).2.status) := by
  unfold Manager.act
  cases ha : m.pool.act id f with
  | none =>
    have hnone := Pool.act_eq_none ha
    rw [h.pool.status] at hnone
    rw [hnone] at hin
    cases hin
  | some p =>
    obtain ⟨a, y⟩ := p
    obtain ⟨c, -, hfst, hshows⟩ := Pool.shows_act h.pool hf ha
    exact ⟨c, hfst, shows_withPool h.slots hshows⟩

/-- Something that is done with a container, if there is one, and leaves its status. -/
theorem Shows.act_still (h : m.Shows slots s) (id : String) (default : α)
    {f : Container → α × Container} (hf : ∀ c, (f c).2.id = c.id)
    (hstatus : ∀ c, (f c).2.status = c.status) : (m.act id default f).2.Shows slots s := by
  unfold Manager.act
  cases ha : m.pool.act id f with
  | none => exact h
  | some p => exact shows_withPool h.slots (Pool.shows_act_still h.pool hf hstatus ha)

theorem Shows.watchOver (h : m.Shows slots s) (id : String) : (m.watchOver id).Shows slots s := by
  unfold Manager.watchOver
  split
  · split
    · rename_i y ha
      exact shows_withPool h.slots (Pool.shows_act_still h.pool (fun _ => rfl) (fun _ => rfl) ha)
    · exact h
  · exact h

theorem Shows.halt (h : m.Shows slots s) (hin : (s id).isSome) :
    (m.halt id).Shows slots (assign s id .stopped) := by
  obtain ⟨c, -, hshows⟩ := h.act (f := fun c => ((), c.stop)) () (fun c => c.sameIdentity_stop.id) hin
  rw [c.status_stop] at hshows
  exact hshows

theorem Shows.remove (h : m.Shows slots s) (hin : (s id).isSome) :
    (m.remove id).Shows (slots.remove id) (assign s id .stopped) := by
  obtain ⟨hslots, hyard⟩ := h.halt hin
  have hremoved : ({ m.halt id with slots := (m.halt id).slots.remove id } : Manager).Shows
      (slots.remove id) (assign s id .stopped) := ⟨congrArg (Slots.remove · id) hslots, hyard⟩
  exact hremoved.announceFor _ _ _

theorem Shows.beginRestart (h : m.Shows slots s) (hin : (s id).isSome) :
    (m.beginRestart id).2.Shows slots (assign s id .stopped) := by
  obtain ⟨c, -, hshows⟩ :=
    h.act (f := Container.beginRestart) .empty (fun c => c.sameIdentity_stop.id) hin
  rw [show c.beginRestart.2.status = .stopped from c.status_stop] at hshows
  exact hshows

theorem Shows.afterRestart (h : m.Shows slots s) (id : String) (r : Except Error Unit) :
    (m.afterRestart id r).Shows slots s := by
  cases r with
  | error e => exact h
  | ok u => exact (h.watchOver id).announceFor _ _ _

theorem Shows.endRestart (h : m.Shows slots s) (hin : (s id).isSome) (snapshot : State) :
    match m.endRestart id snapshot with
    | (.error _, m') => m'.Shows slots (assign s id .error)
    | (.ok (), m') => m'.Shows slots (assign s id .running) := by
  obtain ⟨c, hresult, hshows⟩ := h.act (f := fun c => c.endRestart snapshot m.pool.surroundings)
    (.error (.containerNotFound id)) (fun c => (c.sameIdentity_endRestart snapshot _).id) hin
  have hends := c.endRestart_ends snapshot m.pool.surroundings
  simp only [Manager.endRestart, hresult]
  generalize (m.act id (.error (.containerNotFound id)) fun c =>
    c.endRestart snapshot m.pool.surroundings).2 = m' at hshows ⊢
  generalize c.endRestart snapshot m.pool.surroundings = ended at hends hshows ⊢
  obtain ⟨e | u, d⟩ := ended
  · rw [show d.status = .error from hends] at hshows
    exact hshows.afterRestart id _
  · rw [show d.status = .running from hends] at hshows
    exact hshows.afterRestart id _

theorem Shows.putIn (h : m.Shows slots s) (id key : String) (module : CachedModule) :
    (m.putIn id key module).2.Shows slots s := by
  have hact := h.act_still id (.ok ())
    (f := fun c => c.hotReload module.module (some module.digest) m.pool.surroundings)
    (fun c => (c.sameIdentity_hotReload ..).id) (fun c => c.status_hotReload ..)
  simp only [Manager.putIn]
  generalize m.act id (.ok ()) (fun c =>
    c.hotReload module.module (some module.digest) m.pool.surroundings) = acted at hact ⊢
  obtain ⟨e | u, m'⟩ := acted
  · exact hact
  · exact (hact.keep key module).announceFor _ _ _

theorem Shows.fetchAndCompile (h : m.Shows slots s) (name : String) :
    (m.fetchAndCompile name).2.Shows slots s := by
  have hfetch : (m.fetch name).2.Shows slots s := ⟨h.slots, h.pool⟩
  simp only [Manager.fetchAndCompile]
  generalize m.fetch name = fetched at hfetch ⊢
  obtain ⟨e | b, m'⟩ := fetched
  · exact hfetch
  · exact hfetch

theorem get?_of_lookup {c : Container} (h : m.lookup id = .ok c) : m.get? id = some c := by
  unfold lookup at h
  split at h
  · cases h
    assumption
  · cases h

theorem holds_of_get? {c : Container} (h : m.get? id = some c) :
    m.slots.holds id = true ∧ m.pool.get? id = some c := by
  unfold get? at h
  split at h
  · exact ⟨‹_›, h⟩
  · cases h

theorem get?_of_holds {c : Container} (hholds : m.slots.holds id = true)
    (hget : m.pool.get? id = some c) : m.get? id = some c :=
  (if_pos hholds).trans hget

theorem lookup_ok (h : m.Shows slots s) {c : Container} (hc : m.lookup id = .ok c) :
    slots.holds id = true ∧ (s id).isSome := by
  obtain ⟨hholds, hget⟩ := holds_of_get? (get?_of_lookup hc)
  refine ⟨h.slots ▸ hholds, ?_⟩
  rw [← h.pool.status, Pool.statusOf, hget]
  rfl

end

/-! ## New containers -/

theorem Shows.register (h : m.Shows slots s) (r : Reservation) (ids : List String) :
    (m.register r ids).Shows (slots.commit r ids).2 s := by
  have hwatched : (ids.foldl Manager.watchOver m).Shows slots s := by
    generalize ids = watched
    induction watched generalizing m with
    | nil => exact h
    | cons id watched ih => exact ih (h.watchOver id)
  obtain ⟨hslots, hyard⟩ := hwatched
  refine ⟨?_, hyard⟩
  rw [← hslots]
  rfl

/-- What is shown when a run ends: its container is new, runs, and has taken the slot that was
reserved for it, or the slot was given back. -/
def Ran (slots : Slots) (s : String → Option Status) (r : Reservation) :
    Except Failure String × Manager → Prop
  | (.error _, m) => m.Shows (slots.drop r) s
  | (.ok id, m) => s id = none ∧ m.Shows (slots.commit r [id]).2 (assign s id .running)

def Underway (slots : Slots) (s : String → Option Status) (r : Reservation) :
    RunProgress × Manager → Prop
  | (.ended result, m) => Ran slots s r (result, m)
  | (.waiting r' _ _ _, m) => r' = r ∧ m.Shows slots s

theorem Shows.startContainer (h : m.Shows slots s) (r : Reservation) (name : String)
    (c : ContainerConfig) (module : CachedModule) :
    Ran slots s r (m.startContainer r name c module) := by
  have hcreate := Pool.shows_create h.pool name (m.sandbox c) module.module (some module.digest)
  simp only [Manager.startContainer]
  generalize m.pool.create none name (m.sandbox c) module.module (some module.digest) = created
    at hcreate ⊢
  obtain ⟨e | id, y⟩ := created
  · exact (shows_withPool h.slots hcreate).drop r
  · obtain ⟨hfresh, hy⟩ := hcreate
    exact ⟨hfresh, ((shows_withPool h.slots hy).register r [id]).announceFor _ _ _⟩

theorem Shows.endRun (h : m.Shows slots s) (r : Reservation) (name : String)
    (c : ContainerConfig) (bytes : Except Error Blob) :
    Ran slots s r (m.endRun (.waiting r name c bytes)) := by
  simp only [Manager.endRun]
  cases bytes.bind (m.compile name) with
  | error e => exact h.drop r
  | ok module => exact (h.keep _ module).startContainer r name c module

theorem Shows.resolve (h : m.Shows slots s) (r : Reservation) (name : String)
    (c : ContainerConfig) : Underway slots s r (m.resolve r name c) := by
  simp only [Manager.resolve]
  cases validateName name with
  | error reason => exact h.drop r
  | ok u =>
    generalize m.cache.lookup (ModuleCache.key name c) = looked
    obtain ⟨found, cache⟩ := looked
    have hcached : { m with cache := cache }.Shows slots s := ⟨h.slots, h.pool⟩
    cases found with
    | some module => exact hcached.startContainer r name c module
    | none =>
      have hfetch : ({ m with cache := cache }.fetch name).2.Shows slots s := ⟨h.slots, h.pool⟩
      dsimp only
      generalize ({ m with cache := cache } : Manager).fetch name = fetched at hfetch ⊢
      obtain ⟨e | b, m'⟩ := fetched
      · by_cases hremote : m'.source.isRemote = true
        · simp only [if_pos hremote]
          exact ⟨rfl, hfetch⟩
        · simp only [if_neg hremote]
          exact hfetch.drop r
      · exact ⟨rfl, hfetch⟩

/-- A run that begins is refused its slot without a trace, or goes on with it. -/
theorem Shows.beginRun (h : m.Shows slots s) (name : String) (c : ContainerConfig) :
    (∃ e, slots.reserve 1 = .error e ∧ m.beginRun name c = (.ended (.error e), m)) ∨
    ∃ r held, slots.reserve 1 = .ok (r, held) ∧ Underway held s r (m.beginRun name c) := by
  unfold Manager.beginRun
  rw [h.slots]
  cases hreserve : slots.reserve 1 with
  | error e => exact .inl ⟨e, rfl, rfl⟩
  | ok p =>
    obtain ⟨r, held⟩ := p
    have hheld : { m with slots := held }.Shows held s := ⟨rfl, h.pool⟩
    exact .inr ⟨r, held, rfl, hheld.resolve r name c⟩

theorem Shows.beginScale (h : m.Shows slots s) (id : String) (n : Nat) :
    match m.beginScale id n with
    | (.error _, m') => m'.Shows slots s
    | (.ok r, m') => (s id).isSome ∧ ∃ held, slots.reserve n = .ok (r, held) ∧ m'.Shows held s := by
  unfold Manager.beginScale
  cases hlookup : m.lookup id with
  | error e => exact h
  | ok c =>
    obtain ⟨-, hin⟩ := lookup_ok h hlookup
    rw [h.slots]
    cases hreserve : slots.reserve n with
    | error e => exact h
    | ok p => exact ⟨hin, p.2, rfl, rfl, h.pool⟩

/-- What is shown when scaling ends: the containers that it made are new, and run in the slots that
were reserved for them; or none of them runs and the slots were given back. -/
def Scaled (slots : Slots) (s : String → Option Status) (r : Reservation) (n : Nat)
    (ids : List String) : Except Failure (List String) × Manager → Prop
  | (.error _, m) => m.Shows (slots.drop r) (assignAll s ids .stopped)
  | (.ok made, m) => made = ids ∧ ids.length = n ∧
    m.Shows (slots.commit r ids).2 (assignAll s ids .running)

theorem Shows.endScale (h : m.Shows slots s) (r : Reservation) (id : String) (n : Nat) :
    ∃ ids, (∀ x ∈ ids, s x = none) ∧ Scaled slots s r n ids (m.endScale r id n) := by
  unfold Manager.endScale
  cases hscale : m.pool.scale id n with
  | none =>
    refine ⟨[], by simp, ?_⟩
    unfold Scaled
    rw [assignAll_nil]
    exact h.drop r
  | some p =>
    obtain ⟨result, y⟩ := p
    obtain ⟨ids, hfresh, hshows⟩ := Pool.shows_scale h.pool hscale
    refine ⟨ids, hfresh, ?_⟩
    cases result with
    | error e => exact (shows_withPool h.slots hshows).drop r
    | ok made =>
      obtain ⟨rfl, hlength, hy⟩ := hshows
      exact ⟨rfl, hlength,
        ((shows_withPool h.slots hy).register r made).announceScaled id n made⟩

end Manager
end ContainerHost
