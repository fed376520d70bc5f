import ContainerHost.Proofs.Manager.Announcements
import ContainerHost.Proofs.Manager.Counting
/-!
# Scaling, whole

Scaling makes containers one after the other, and may fail at any of them. What it makes depends on
the stamps and on what surrounds each attempt, so that scaling is said here for any list of attempts
(`Manager.scaleBy`); a manager draws its attempts itself (`scale_eq_scaleBy`), and the ids that it
gets by them are new (`Pool.fresh_attempts`).

What is proved: `scale_all_or_nothing`.
-/

namespace ContainerHost

/-! ## Containers -/

namespace Container

variable {c d r : Container}

/-- What the attempt makes: a container that runs a guest of its own, with a copy of the state. -/
structure Replicated (c : Container) (t : Stamp × Surroundings) (r : Container) : Prop where
  id : r.id = Pool.replicaId c t
  status : r.status = .running
  state : r.state = c.state
  copied : c.Copied r
  guest : ∃ g, c.sandbox.instantiate t.2 c.module r.id = .ok g ∧ r.guest = some g

theorem Replicated.aged {t : Stamp × Surroundings} (h : c.Replicated t r) (k : Aged r d) :
    c.Replicated t d := by
  obtain ⟨_, _, _, _, rfl⟩ := k
  have hcopied := h.copied
  exact ⟨h.id, h.status, h.state,
    ⟨hcopied.name, hcopied.sandbox, hcopied.module, hcopied.digest, hcopied.housed⟩, h.guest⟩

/-- The attempt succeeds. -/
def Makes (c : Container) (t : Stamp × Surroundings) (r : Container) : Prop :=
  c.replica (Pool.replicaId c t) t.2 = .ok r

theorem Makes.replicated {t : Stamp × Surroundings} (h : c.Makes t r) (hc : c.state.Ordered) :
    c.Replicated t r := by
  obtain ⟨hid, hrunning⟩ := Pool.replica_ok h
  refine ⟨hid, hrunning, state_replica hc h, copied_replica h, ?_⟩
  unfold Makes replica at h
  cases hmade : create (Pool.replicaId c t) c.name c.sandbox c.module c.digest t.2 with
  | error e => simp [hmade, Except.map] at h
  | ok q =>
    simp only [hmade, Except.map, Except.ok.injEq] at h
    obtain ⟨g, hg, hq⟩ := create_made hmade
    have hupdated := alike_of_updated (q.updated_updateState c.state)
    refine ⟨g, hid ▸ hg, ?_⟩
    rw [← h, hupdated.guest, hq.guest]

/-- A container that was stopped again. -/
structure Withdrawn (c : Container) : Prop where
  status : c.status = .stopped
  guest : c.guest = none

theorem withdrawn_stop (h : c.status = .running) : c.stop.Withdrawn := by
  refine ⟨c.status_stop, ?_⟩
  unfold stop
  rw [if_neg (by rw [h]; decide)]
  rfl

/-- Either all attempts succeed, or they succeed up to the first that fails, and what was made by
then is stopped. -/
theorem replicas_eq (c : Container) (tries : List (Stamp × Surroundings)) (made : List Container) :
    match c.replicas tries made with
    | (.ok (), all) => ∃ rs, List.Forall₂ c.Makes tries rs ∧ all = made.reverse ++ rs
    | (.error e, all) => ∃ before t after rs, tries = before ++ t :: after ∧
      List.Forall₂ c.Makes before rs ∧ c.replica (Pool.replicaId c t) t.2 = .error e ∧
      all = (made.reverse ++ rs).map stop := by
  induction tries generalizing made with
  | nil => exact ⟨[], .nil, (List.append_nil _).symm⟩
  | cons t tries ih =>
    simp only [replicas]
    cases hr : c.replica (Pool.replicaId c t) t.2 with
    | error e =>
      rw [show c.replica (generateId c.name t.1) t.2 = .error e from hr]
      exact ⟨[], t, tries, [], rfl, .nil, hr, by rw [List.append_nil]⟩
    | ok r =>
      rw [show c.replica (generateId c.name t.1) t.2 = .ok r from hr]
      have hrest := ih (r :: made)
      dsimp only
      generalize c.replicas tries (r :: made) = outcome at hrest ⊢
      obtain ⟨e | u, all⟩ := outcome
      · obtain ⟨before, t', after, rs, rfl, hmade, hfailed, rfl⟩ := hrest
        exact ⟨t :: before, t', after, r :: rs, rfl, .cons hr hmade, hfailed, by simp⟩
      · obtain ⟨rs, hmade, rfl⟩ := hrest
        exact ⟨r :: rs, .cons hr hmade, by simp⟩

theorem scale_eq (c : Container) (tries : List (Stamp × Surroundings)) :
    match c.scale tries with
    | (.ok (), all) => List.Forall₂ c.Makes tries all
    | (.error e, all) => ∃ before t after rs, tries = before ++ t :: after ∧
      List.Forall₂ c.Makes before rs ∧ c.replica (Pool.replicaId c t) t.2 = .error e ∧
      all = rs.map stop := by
  have h := c.replicas_eq tries []
  unfold scale
  generalize c.replicas tries [] = outcome at h ⊢
  obtain ⟨e | u, all⟩ := outcome
  · exact h
  · obtain ⟨rs, hmade, rfl⟩ := h
    exact hmade

/-- What attempts make has the ids of the attempts, in order. -/
theorem ids_of_makes {tries : List (Stamp × Surroundings)} {rs : List Container}
    (h : List.Forall₂ c.Makes tries rs) : rs.map (·.id) = tries.map (Pool.replicaId c) := by
  induction h with
  | nil => rfl
  | cons hr _ ih => rw [List.map_cons, List.map_cons, ih, (Pool.replica_ok hr).1]

end Container

/-! ## Pools -/

namespace Pool

variable {y : Pool} {c : Container}

/-- The attempts give ids that are distinct and not taken. -/
structure Fresh (y : Pool) (c : Container) (tries : List (Stamp × Surroundings)) : Prop where
  distinct : (tries.map (replicaId c)).Nodup
  free : ∀ x ∈ tries.map (replicaId c), y.get? x = none

theorem nodup_attempts (y : Pool) (c : Container) (n : Nat) :
    ((attempts n y).1.map (replicaId c)).Nodup := by
  induction n generalizing y with
  | zero => exact List.nodup_nil
  | succ n ih =>
    refine List.nodup_cons.mpr ⟨?_, ih _⟩
    -- the stamps that come later are later
    intro hmem
    obtain ⟨t, ht, heq⟩ := List.mem_map.mp hmem
    obtain ⟨millis, seed, hstamp, hfrom, -⟩ := mem_attempts ht
    rw [replicaId, hstamp] at heq
    have hsame := millis_inj heq
    have hfrom : y.clock.wall / 1000000 + (y.stamps + 1) ≤ millis := hfrom
    omega

theorem fresh_attempts (h : y.Sound) (c : Container) (n : Nat) :
    y.Fresh c (attempts n y).1 := by
  refine ⟨nodup_attempts y c n, ?_⟩
  intro x hx
  obtain ⟨t, ht, rfl⟩ := List.mem_map.mp hx
  have hnew := (new_attempt h.shows c ht).1
  rwa [statusOf, Option.map_eq_none_iff] at hnew

/-- Makes containers like one of the pool, one by each attempt. -/
def scaleBy (y : Pool) (id : String) (tries : List (Stamp × Surroundings)) :
    Option (Except Error (List String) × Pool) := do
  let c ← y.get? id
  let (outcome, made) := c.scale tries
  let y := (made.foldl put { y with stamps := y.stamps + tries.length }).pass (.micros 1)
  some (outcome.map fun () => made.map (·.id), y)

theorem scale_eq_scaleBy (y : Pool) (id : String) (n : Nat) :
    y.scale id n = y.scaleBy id (attempts n y).1 := by
  unfold scale scaleBy
  rw [length_attempts, ← attempts_snd]

theorem get?_putAll_of_notMem (y : Pool) {made : List Container} {x : String}
    (hx : x ∉ made.map (·.id)) : (made.foldl put y).get? x = y.get? x := by
  rcases get?_putAll y made x with ⟨r, hr, hid, -⟩ | h
  · exact absurd (List.mem_map.mpr ⟨r, hr, hid⟩) hx
  · exact h

theorem get?_putAll_of_nodup (y : Pool) {made : List Container} (hd : (made.map (·.id)).Nodup)
    {r : Container} (hr : r ∈ made) :
    (made.foldl put y).get? r.id = some { r with outbox := [] } := by
  induction made generalizing y with
  | nil => cases hr
  | cons q made ih =>
    obtain ⟨hq, hrest⟩ := List.nodup_cons.mp hd
    rw [List.foldl_cons]
    rcases List.mem_cons.mp hr with rfl | hr
    · rw [get?_putAll_of_notMem _ hq, get?_put_self]
    · exact ih (y.put q) hrest hr

def stock (y : Pool) (n : Nat) (made : List Container) : Pool :=
  (made.foldl put { y with stamps := y.stamps + n }).pass (.micros 1)

theorem Labelled.stock (h : y.Labelled) (n : Nat) (made : List Container) :
    (y.stock n made).Labelled := by
  have hstamped : ({ y with stamps := y.stamps + n } : Pool).Labelled := h.of_same rfl
  exact Labelled.of_same (List.foldlRecOn made _ hstamped fun _ hy r _ => hy.put r) rfl

theorem Hushed.stock (h : y.Hushed) (n : Nat) {made : List Container}
    (hmade : ∀ r ∈ made, r.Hushed) : (y.stock n made).Hushed := by
  have hstamped : ({ y with stamps := y.stamps + n } : Pool).Hushed := h.of_same rfl rfl
  exact (hstamped.putAll hmade).of_same rfl rfl

theorem silent_stock (h : y.All fun c => c.outbox = []) (n : Nat) (made : List Container) :
    (y.stock n made).All fun c => c.outbox = [] := by
  have hstamped : ({ y with stamps := y.stamps + n } : Pool).All fun c => c.outbox = [] :=
    h.of_same rfl
  exact All.of_same (List.foldlRecOn made _ hstamped fun _ hy r _ => hy.put rfl) rfl

theorem get?_stock_of_notMem {n : Nat} {made : List Container} {x : String}
    (hx : x ∉ made.map (·.id)) : (y.stock n made).get? x = y.get? x :=
  get?_putAll_of_notMem { y with stamps := y.stamps + n } hx

theorem get?_stock {n : Nat} {made : List Container} (hd : (made.map (·.id)).Nodup)
    {r : Container} (hr : r ∈ made) : (y.stock n made).get? r.id = some { r with outbox := [] } :=
  get?_putAll_of_nodup { y with stamps := y.stamps + n } hd hr

/-- Scaling draws its stamps, and then makes all containers or stops those that it has made. -/
theorem scaleBy_cases {id : String} (hc : y.get? id = some c)
    (tries : List (Stamp × Surroundings)) :
    (∃ rs, List.Forall₂ c.Makes tries rs ∧
      y.scaleBy id tries = some (.ok (tries.map (replicaId c)), y.stock tries.length rs)) ∨
    ∃ before t after rs e, tries = before ++ t :: after ∧ List.Forall₂ c.Makes before rs ∧
      c.replica (replicaId c t) t.2 = .error e ∧
      y.scaleBy id tries = some (.error e, y.stock tries.length (rs.map Container.stop)) := by
  have hscale := c.scale_eq tries
  have hdo : y.scaleBy id tries = some ((c.scale tries).1.map fun () =>
      (c.scale tries).2.map (·.id), y.stock tries.length (c.scale tries).2) := by
    unfold scaleBy
    rw [hc]
    rfl
  rw [hdo]
  generalize c.scale tries = outcome at hscale
  obtain ⟨e | u, all⟩ := outcome
  · obtain ⟨before, t, after, rs, hsplit, hmade, hfailed, rfl⟩ := hscale
    exact .inr ⟨before, t, after, rs, e, hsplit, hmade, hfailed, rfl⟩
  · refine .inl ⟨all, hscale, ?_⟩
    rw [← Container.ids_of_makes hscale]
    rfl

end Pool

/-! ## Managers -/

namespace Manager

variable {m m' : Manager} {c : Container} {id : String} {tries : List (Stamp × Surroundings)}

def scaleBy (m : Manager) (id : String) (tries : List (Stamp × Surroundings)) :
    Except Failure (List String) × Manager :=
  match m.beginScale id tries.length with
  | (.error e, m) => (.error e, m)
  | (.ok r, m) =>
    match m.pool.scaleBy id tries with
    | none => (.error (.returned (.containerNotFound id)), m.drop r)
    | some (result, y) =>
      let m := m.withPool y
      match result with
      | .error e => (.error (.returned e), m.drop r)
      | .ok ids => (.ok ids, (m.register r ids).announceScaled id tries.length ids)

/-- A manager scales by the attempts that it draws. -/
theorem scale_eq_scaleBy (m : Manager) (id : String) (n : Nat) :
    m.scale id n = m.scaleBy id (Pool.attempts n m.pool).1 := by
  unfold scale scaleBy
  rw [Pool.length_attempts]
  have hyard : (m.beginScale id n).2.pool = m.pool := by
    unfold beginScale
    split
    · rfl
    · split <;> rfl
  generalize m.beginScale id n = begun at hyard ⊢
  obtain ⟨e | r, m'⟩ := begun
  · rfl
  · have hscale : m'.pool.scale id n = m'.pool.scaleBy id (Pool.attempts n m.pool).1 := by
      rw [Pool.scale_eq_scaleBy, hyard]
    dsimp only [endScale]
    exact hscale ▸ rfl

/-- Scaling behind its reservation, when the containers are in the pool. -/
def stocked (m : Manager) (n : Nat) (made : List Container) : Manager :=
  { m with slots := { m.slots with pending := m.slots.pending + n } }.withPool (m.pool.stock n made)

/-- Scaling is refused its slots without a trace, or makes all containers and registers them, or
stops what it has made and gives the slots back. -/
theorem scaleBy_cases (hc : m.get? id = some c)
    (hfits : m.slots.occupied + tries.length < 1 <<< 64) :
    (m.slots.limit < m.slots.occupied + tries.length ∧
      m.scaleBy id tries = (.error (.returned (.capacityExceeded m.slots.limit)), m)) ∨
    (m.slots.occupied + tries.length ≤ m.slots.limit ∧ ∃ rs, List.Forall₂ c.Makes tries rs ∧
      m.scaleBy id tries = (.ok (tries.map (Pool.replicaId c)),
        ((m.stocked tries.length rs).register ⟨tries.length⟩
          (tries.map (Pool.replicaId c))).announceScaled id tries.length
            (tries.map (Pool.replicaId c)))) ∨
    (m.slots.occupied + tries.length ≤ m.slots.limit ∧ ∃ before t after rs e,
      tries = before ++ t :: after ∧ List.Forall₂ c.Makes before rs ∧
      c.replica (Pool.replicaId c t) t.2 = .error e ∧
      m.scaleBy id tries = (.error (.returned e),
        (m.stocked tries.length (rs.map Container.stop)).drop ⟨tries.length⟩)) := by
  have hget := (holds_of_get? hc).2
  unfold scaleBy beginScale
  rw [lookup_of_get? hc]
  dsimp only
  by_cases hroom : m.slots.occupied + tries.length ≤ m.slots.limit
  · rw [Slots.reserve_of_room hroom hfits]
    dsimp only
    rcases Pool.scaleBy_cases hget tries with
      ⟨rs, hmade, hs⟩ | ⟨before, t, after, rs, e, hsplit, hmade, hfailed, hs⟩
    · rw [hs]
      exact .inr (.inl ⟨hroom, rs, hmade, rfl⟩)
    · rw [hs]
      exact .inr (.inr ⟨hroom, before, t, after, rs, e, hsplit, hmade, hfailed, rfl⟩)
  · have hover : m.slots.limit < m.slots.occupied + tries.length := Nat.lt_of_not_le hroom
    rw [Slots.reserve_of_over hover hfits]
    exact .inl ⟨hover, rfl⟩

/-! ### What is there afterwards -/

/-- Containers that are registered begin to report, and the others are left alone. -/
theorem get?_pool_register (h : m.pool.Labelled) (r : Reservation) (ids : List String) {x : String}
    (hx : x ∉ ids) : (m.register r ids).pool.get? x = m.pool.get? x := by
  have hwatched : (ids.foldl watchOver m).pool.get? x = m.pool.get? x ∧
      (ids.foldl watchOver m).pool.Labelled := by
    refine List.foldlRecOn (motive := fun m' : Manager =>
      m'.pool.get? x = m.pool.get? x ∧ m'.pool.Labelled) ids _ ⟨rfl, h⟩ ?_
    rintro m' ⟨hsame, hlabelled⟩ id hid
    have hne : x ≠ id := fun heq => hx (heq ▸ hid)
    exact ⟨(get?_pool_watchOver_of_ne hlabelled hne).trans hsame,
      (Pool.keeps_labelled _).watchOver hlabelled id⟩
  exact hwatched.1

theorem tracks_register (h : m.pool.Labelled) (r : Reservation) (ids : List String) :
    m.pool.Tracks Container.Aged (m.register r ids).pool :=
  (Pool.keeps_aged m.pool).register
    (h.tracks Container.Aged.refl) r ids

theorem slots_register (m : Manager) (r : Reservation) (ids : List String) :
    (m.register r ids).slots = (m.slots.commit r ids).2 := by
  have hslots : (ids.foldl watchOver m).slots = m.slots :=
    ids.foldlRecOn (motive := fun m' : Manager => m'.slots = m.slots) _ rfl
      fun m' h id _ => (m'.slots_watchOver id).trans h
  show ((ids.foldl watchOver m).slots.commit r ids).2 = _
  rw [hslots]

section

variable (m) (n : Nat) (made : List Container)

theorem slots_stocked : (m.stocked n made).slots =
    { m.slots with pending := m.slots.pending + n } := slots_withPool ..

/-- A reservation that is dropped gives all its slots back. -/
theorem slots_drop_stocked (hn : 0 < n) : ((m.stocked n made).drop ⟨n⟩).slots = m.slots := by
  show (m.stocked n made).slots.drop ⟨n⟩ = m.slots
  rw [slots_stocked, Slots.drop, if_pos hn]
  simp

/-- A reservation that is committed leaves nothing pending. -/
theorem slots_register_stocked (ids : List String) :
    ((m.stocked n made).register ⟨n⟩ ids).slots =
      { m.slots with registered := m.slots.registered.insertAll (ids.map (·, ())) } := by
  rw [slots_register, slots_stocked]
  simp [Slots.commit]

theorem pool_stocked : (m.stocked n made).pool = { m.pool.stock n made with heard := [] } :=
  pool_withPool ..

theorem get?_pool_stocked (x : String) :
    (m.stocked n made).pool.get? x = (m.pool.stock n made).get? x := by
  rw [pool_stocked]
  rfl

end

theorem Quiet.stocked (h : m.Quiet) (n : Nat) (made : List Container) :
    (m.stocked n made).Quiet := quiet_withPool _ (Pool.silent_stock h.outboxes n made)

theorem Quiet.level_stocked (h : m.Quiet) (n : Nat) {made : List Container}
    (hmade : ∀ r ∈ made, r.Hushed) : m.Level (m.stocked n made) := by
  have hslots : m.Level { m with slots := { m.slots with pending := m.slots.pending + n } } :=
    level_of_same rfl rfl
  exact hslots.trans (level_withPool (h.hushed.stock n hmade) _)

theorem labelled_stocked (h : m.pool.Labelled) (n : Nat) (made : List Container) :
    (m.stocked n made).pool.Labelled := by
  rw [pool_stocked]
  exact (h.stock n made).of_same rfl

/-! ### All or nothing -/

/-- Scaling has succeeded: there is a container for each attempt, as the attempt makes it and
registered, nothing else has changed, and all of it was announced. -/
structure Grown (m : Manager) (c : Container) (tries : List (Stamp × Surroundings))
    (ids : List String) (m' : Manager) : Prop where
  length : ids.length = tries.length
  distinct : ids.Nodup
  new : ∀ x ∈ ids, m.slots.holds x = false ∧ m.pool.get? x = none
  made : List.Forall₂ (fun t x => ∃ r, m'.get? x = some r ∧ c.Replicated t r) tries ids
  slots : m'.slots = { m.slots with registered := m.slots.registered.insertAll (ids.map (·, ())) }
  others : ∀ x ∉ ids, m'.get? x = m.get? x ∧ m'.pool.get? x = m.pool.get? x
  announced : m.Announces (scaledEvents c.id tries.length ids) m'

/-- Scaling has failed at an attempt: what was made before it is stopped, nothing else has changed,
and nothing was announced. -/
structure Undone (m : Manager) (c : Container) (tries : List (Stamp × Surroundings)) (e : Error)
    (m' : Manager) : Prop where
  slots : m'.slots = m.slots
  registered : ∀ x, m'.get? x = m.get? x
  failed : ∃ before t after, tries = before ++ t :: after ∧ (∀ b ∈ before, ∃ r, c.Makes b r) ∧
    c.replica (Pool.replicaId c t) t.2 = .error e ∧
    (∀ b ∈ before, ∃ r, m'.pool.get? (Pool.replicaId c b) = some r ∧ r.Withdrawn) ∧
    ∀ x ∉ before.map (Pool.replicaId c), m'.pool.get? x = m.pool.get? x
  announced : m.Announces [] m'

/-- All attempts succeed and scaling with them, or one fails and scaling comes to nothing, unless
there were not so many slots. -/
def AllOrNothing (m : Manager) (c : Container) (tries : List (Stamp × Surroundings)) :
    Except Failure (List String) × Manager → Prop
  | (.ok ids, m') => m.slots.occupied + tries.length ≤ m.slots.limit ∧
    (∀ t ∈ tries, ∃ r, c.Makes t r) ∧ m.Grown c tries ids m'
  | (.error e, m') =>
    (m.slots.limit < m.slots.occupied + tries.length ∧
      e = .returned (.capacityExceeded m.slots.limit) ∧ m' = m) ∨
    (m.slots.occupied + tries.length ≤ m.slots.limit ∧
      ∃ why, e = .returned why ∧ m.Undone c tries why m')

theorem exists_of_makes {rs : List Container} (h : List.Forall₂ c.Makes tries rs)
    {t : Stamp × Surroundings} (ht : t ∈ tries) : ∃ r ∈ rs, c.Makes t r := by
  induction h with
  | nil => cases ht
  | cons hr _ ih =>
    rcases List.mem_cons.mp ht with rfl | ht
    · exact ⟨_, List.mem_cons_self, hr⟩
    · obtain ⟨r, hmem, hmade⟩ := ih ht
      exact ⟨r, List.mem_cons_of_mem _ hmem, hmade⟩

theorem hushed_of_makes {rs : List Container} (h : List.Forall₂ c.Makes tries rs) :
    ∀ r ∈ rs, r.Hushed := by
  induction h with
  | nil => simp
  | cons hr _ ih =>
    intro d hd
    rcases List.mem_cons.mp hd with rfl | hd
    · exact Container.hushed_replica hr
    · exact ih d hd

theorem pool_announceScaled (m : Manager) (id : String) (n : Nat) (ids : List String) :
    (m.announceScaled id n ids).pool = m.pool :=
  Pool.Keeps.announceScaled (Q := fun y => y = m.pool) rfl id n ids

theorem get?_of_slots (hslots : m'.slots.holds id = m.slots.holds id)
    (hyard : m'.pool.get? id = m.pool.get? id) : m'.get? id = m.get? id := by
  unfold get?
  rw [hslots, hyard]

section

variable (h : m.Settled) (hc : m.get? id = some c)

include h

theorem Settled.holds_of_free {x : String} (hx : m.pool.get? x = none) :
    m.slots.holds x = false := by
  cases hholds : m.slots.holds x with
  | false => rfl
  | true =>
    have hthere := h.registered x hholds
    rw [hx] at hthere
    cases hthere

theorem undone (hfresh : m.pool.Fresh c tries) {before after : List (Stamp × Surroundings)}
    {t : Stamp × Surroundings} {rs : List Container} {e : Error}
    (hsplit : tries = before ++ t :: after) (hmade : List.Forall₂ c.Makes before rs)
    (hfailed : c.replica (Pool.replicaId c t) t.2 = .error e) :
    m.Undone c tries e ((m.stocked tries.length (rs.map Container.stop)).drop ⟨tries.length⟩) := by
  have hids : (rs.map Container.stop).map (·.id) = before.map (Pool.replicaId c) := by
    rw [List.map_map, ← Container.ids_of_makes hmade]
    exact List.map_congr_left fun r _ => r.sameIdentity_stop.id
  have hpositive : 0 < tries.length := by
    rw [hsplit, List.length_append, List.length_cons]
    omega
  have hslots : ((m.stocked tries.length (rs.map Container.stop)).drop ⟨tries.length⟩).slots =
      m.slots := slots_drop_stocked _ _ _ hpositive
  have hyard (x : String) :
      ((m.stocked tries.length (rs.map Container.stop)).drop ⟨tries.length⟩).pool.get? x =
        (m.pool.stock tries.length (rs.map Container.stop)).get? x :=
    get?_pool_stocked m tries.length (rs.map Container.stop) x
  -- only those before the one that failed were made
  have hsub : (before.map (Pool.replicaId c)).Sublist (tries.map (Pool.replicaId c)) := by
    rw [hsplit, List.map_append]
    exact List.sublist_append_left _ _
  have hothers : ∀ x ∉ before.map (Pool.replicaId c),
      ((m.stocked tries.length (rs.map Container.stop)).drop ⟨tries.length⟩).pool.get? x =
        m.pool.get? x := by
    intro x hx
    rw [hyard]
    exact Pool.get?_stock_of_notMem (hids ▸ hx)
  refine ⟨hslots, ?_, ⟨before, t, after, hsplit, ?_, hfailed, ?_, hothers⟩, ?_⟩
  · intro x
    by_cases hx : x ∈ before.map (Pool.replicaId c)
    · -- what was made is not registered, neither before nor after
      have hout := h.holds_of_free (hfresh.free x (hsub.subset hx))
      unfold get?
      rw [hslots, hout]
      rfl
    · exact get?_of_slots (by rw [hslots]) (hothers x hx)
  · intro b hb
    obtain ⟨r, -, hr⟩ := exists_of_makes hmade hb
    exact ⟨r, hr⟩
  · intro b hb
    obtain ⟨r, hmem, hr⟩ := exists_of_makes hmade hb
    obtain ⟨hrid, hrunning⟩ := Pool.replica_ok hr
    have hstopped := Container.withdrawn_stop hrunning
    have hthere := Pool.get?_stock (y := m.pool) (n := tries.length)
      (hids ▸ hfresh.distinct.sublist hsub) (List.mem_map_of_mem (f := Container.stop) hmem)
    refine ⟨{ r.stop with outbox := [] }, ?_, ⟨hstopped.status, hstopped.guest⟩⟩
    rw [hyard, ← hrid, ← r.sameIdentity_stop.id]
    exact hthere
  · -- containers by themselves announce nothing that managers do
    have hhushed : ∀ r ∈ rs.map Container.stop, r.Hushed := by
      intro d hd
      obtain ⟨r, hr, rfl⟩ := List.mem_map.mp hd
      exact (hushed_of_makes hmade r hr).handled (.stopped r)
    exact (h.quiet.level_stocked tries.length hhushed).trans (level_of_same rfl rfl)

include hc

theorem grown (hordered : c.state.Ordered) (hfresh : m.pool.Fresh c tries) {rs : List Container}
    (hmade : List.Forall₂ c.Makes tries rs) :
    m.Grown c tries (tries.map (Pool.replicaId c))
      (((m.stocked tries.length rs).register ⟨tries.length⟩
        (tries.map (Pool.replicaId c))).announceScaled id tries.length
          (tries.map (Pool.replicaId c))) := by
  have hid : c.id = id := h.sound.named id c (holds_of_get? hc).2
  have hids : rs.map (·.id) = tries.map (Pool.replicaId c) := Container.ids_of_makes hmade
  have hlabelled := labelled_stocked h.labelled tries.length rs
  have hslots : ((m.stocked tries.length rs).register ⟨tries.length⟩
      (tries.map (Pool.replicaId c))).slots = { m.slots with
        registered := m.slots.registered.insertAll
          ((tries.map (Pool.replicaId c)).map (·, ())) } :=
    slots_register_stocked ..
  generalize hstocked : m.stocked tries.length rs = stocked at hslots hlabelled ⊢
  have hyard (x : String) : stocked.pool.get? x = (m.pool.stock tries.length rs).get? x := by
    rw [← hstocked, get?_pool_stocked]
  have hquiet : stocked.Quiet := hstocked ▸ h.quiet.stocked tries.length rs
  have hlevel : m.Level stocked := hstocked ▸ h.quiet.level_stocked _ (hushed_of_makes hmade)
  have hholds (x : String) : (stocked.register ⟨tries.length⟩
      (tries.map (Pool.replicaId c))).slots.holds x = true ↔
        m.slots.holds x = true ∨ x ∈ tries.map (Pool.replicaId c) := by
    rw [hslots]
    exact Slots.holds_commit (s := m.slots) (r := ⟨0⟩)
  refine ⟨List.length_map _, hfresh.distinct, ?_, ?_, ?_, ?_, ?_⟩
  · intro x hx
    exact ⟨h.holds_of_free (hfresh.free x hx), hfresh.free x hx⟩
  · rw [List.forall₂_map_right_iff, List.forall₂_same]
    intro t ht
    obtain ⟨r, hr, hrt⟩ := exists_of_makes hmade ht
    have hreplicated := hrt.replicated hordered
    -- the container is put in, and looked at from then on
    have hthere : stocked.pool.get? (Pool.replicaId c t) = some { r with outbox := [] } := by
      rw [hyard, ← hreplicated.id]
      exact Pool.get?_stock (hids ▸ hfresh.distinct) hr
    obtain ⟨d, hd, haged⟩ := (tracks_register hlabelled ⟨tries.length⟩
      (tries.map (Pool.replicaId c))).became _ _ hthere
    refine ⟨d, get?_of_holds ?_ ?_, hreplicated.aged (r.aged_cleared.trans haged)⟩
    · rw [slots_announceScaled]
      exact (hholds _).mpr (.inr (List.mem_map_of_mem ht))
    · rw [pool_announceScaled]
      exact hd
  · rw [slots_announceScaled, hslots]
  · intro x hx
    have hsame : ((stocked.register ⟨tries.length⟩ (tries.map (Pool.replicaId c))).announceScaled
        id tries.length (tries.map (Pool.replicaId c))).pool.get? x = m.pool.get? x := by
      rw [pool_announceScaled, get?_pool_register hlabelled _ _ hx, hyard]
      exact Pool.get?_stock_of_notMem (hids ▸ hx)
    refine ⟨get?_of_slots ?_ hsame, hsame⟩
    rw [slots_announceScaled, Bool.eq_iff_iff, hholds]
    simp [hx]
  · rw [announceScaled_eq, hid]
    exact (hlevel.trans (hquiet.level_register _ _)).before (Level.refl _)

theorem allOrNothing (hordered : c.state.Ordered)
    (hfits : m.slots.occupied + tries.length < 1 <<< 64) (hfresh : m.pool.Fresh c tries) :
    m.AllOrNothing c tries (m.scaleBy id tries) := by
  rcases scaleBy_cases hc hfits with ⟨hover, hs⟩ | ⟨hroom, rs, hmade, hs⟩ |
    ⟨hroom, before, t, after, rs, e, hsplit, hmade, hfailed, hs⟩
  · rw [hs]
    exact .inl ⟨hover, rfl, rfl⟩
  · rw [hs]
    refine ⟨hroom, ?_, grown h hc hordered hfresh hmade⟩
    intro t ht
    obtain ⟨r, -, hr⟩ := exists_of_makes hmade ht
    exact ⟨r, hr⟩
  · rw [hs]
    exact .inr ⟨hroom, e, rfl, undone h hfresh hsplit hmade hfailed⟩

end

/-- Whatever comes of scaling, nothing has changed about a container that was there before. -/
theorem AllOrNothing.others (h : m.Settled) (hfresh : m.pool.Fresh c tries)
    {result : Except Failure (List String)} (ha : m.AllOrNothing c tries (result, m')) {x : String}
    {d : Container} (hx : m.pool.get? x = some d) :
    m'.pool.get? x = some d ∧ m'.get? x = m.get? x := by
  have hold : x ∉ tries.map (Pool.replicaId c) := by
    intro hmem
    rw [hfresh.free x hmem] at hx
    cases hx
  cases result with
  | error e =>
    rcases ha with ⟨-, -, rfl⟩ | ⟨-, why, rfl, hundone⟩
    · exact ⟨hx, rfl⟩
    · obtain ⟨before, t, after, rfl, -, -, -, hothers⟩ := hundone.failed
      refine ⟨?_, hundone.registered x⟩
      rw [hothers x fun hmem => hold (List.map_append ▸ List.mem_append_left _ hmem)]
      exact hx
  | ok ids =>
    obtain ⟨-, -, hgrown⟩ := ha
    have hids : x ∉ ids := by
      intro hmem
      rw [(hgrown.new x hmem).2] at hx
      cases hx
    obtain ⟨hget, hyard⟩ := hgrown.others x hids
    exact ⟨hyard.trans hx, hget⟩

/-! ### Updates -/

/-- Updates the state of a container. -/
def update (m : Manager) (u : String × State) : Manager :=
  (m.act u.1 () fun c => ((), c.updateState u.2)).2

def updated (c : Container) (us : List State) : Container :=
  us.foldl (fun c u => { c.updateState u with outbox := [] }) c

theorem get?_update (h : m.pool.Labelled) (u : String × State) {x : String}
    (hx : m.pool.get? x = some c) :
    (m.update u).pool.get? x =
      some (if u.1 = x then { c.updateState u.2 with outbox := [] } else c) := by
  have hid (c : Container) : (c.updateState u.2).id = c.id :=
    (Container.sameIdentity_of_updated (c.updated_updateState u.2)).id
  unfold update
  by_cases hux : u.1 = x
  · rw [if_pos hux]
    have hspec := (act_spec (hux ▸ hx) () fun c => ((), c.updateState u.2)).2.2
    rwa [hid, h x c hx] at hspec
  · rw [if_neg hux]
    exact (get?_pool_act_of_ne h () hid fun heq => hux heq.symm).trans hx

/-- Each container becomes what its own updates make of it. -/
theorem get?_updates (h : m.pool.Labelled) (us : List (String × State)) {x : String}
    (hx : m.pool.get? x = some c) :
    (us.foldl update m).pool.get? x =
      some (updated c ((us.filter (·.1 == x)).map (·.2))) := by
  induction us generalizing m c with
  | nil => exact hx
  | cons u us ih =>
    have hlabelled : (m.update u).pool.Labelled :=
      (Pool.keeps_labelled fun _ _ => True).acted h u.1 () fun _ _ => trivial
    rw [List.foldl_cons, ih hlabelled (get?_update h u hx)]
    by_cases hux : u.1 = x
    · rw [if_pos hux, List.filter_cons_of_pos (by simpa using hux)]
      rfl
    · rw [if_neg hux, List.filter_cons_of_neg (by simpa using hux)]

theorem labelled_scaleBy (h : m.pool.Labelled) (hc : m.get? id = some c)
    (hfits : m.slots.occupied + tries.length < 1 <<< 64) :
    (m.scaleBy id tries).2.pool.Labelled := by
  rcases scaleBy_cases hc hfits with ⟨-, hs⟩ | ⟨-, rs, -, hs⟩ | ⟨-, _, _, _, rs, _, -, -, -, hs⟩
  · rw [hs]
    exact h
  · rw [hs, pool_announceScaled]
    exact (Pool.keeps_labelled _).register (labelled_stocked h tries.length rs) _ _
  · rw [hs]
    exact labelled_stocked h tries.length _

end Manager

namespace ConcurrentManager

open Manager (update updated)

def roomy : ManagerConfig := { ManagerConfig.standard with maxContainers := 4 }

def lodge : Manager :=
  { solo with config := roomy, slots := .free 4, cache := .empty roomy.cacheSize }

/-- A container runs in it, with some state. -/
def lodged : ConcurrentManager :=
  (opened lodge).run [.ask (.run "a" .standard), .go 0,
    .interact firstId (.update (.ofList [("a", .nat 1)]))]

theorem reachable_lodged : lodged.Reachable roomy :=
  Reached.reachable
    ⟨lodge.host, lodge.source, lodge.deployer, .silent, .ofDirs [], lodge, _, rfl, rfl⟩

/-- Two attempts, of which the second gives an id that is not valid. -/
def spoiled : List (Stamp × Surroundings) :=
  [(.ofSeed 1 0, ⟨.ofDirs [], 0⟩), (⟨2, "?"⟩, ⟨.ofDirs [], 0⟩)]

theorem outcome_lodged :
    (lodged.manager.get? firstId).map (·.name) = some "a" ∧
    lodged.manager.slots.occupied + 2 ≤ lodged.manager.slots.limit ∧
    (lodged.manager.scale firstId 2).1.isOk = true ∧
    (lodged.manager.scaleBy firstId spoiled).1.isOk = false ∧
    (spoiled.map fun t => generateId "a" t.1).Nodup ∧
    ((spoiled.map fun t => generateId "a" t.1).all fun x =>
      (lodged.manager.pool.get? x).isNone) = true := by
  decide +kernel

end ConcurrentManager
end ContainerHost
