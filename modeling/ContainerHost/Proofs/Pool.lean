import ContainerHost.Proofs.Container.Lifecycle
import ContainerHost.Proofs.Stamps
import ContainerHost.Proofs.Tables
import ContainerHost.Pool.Basic
/-!
# What a pool shows

The status of each container of a pool, as far as operations go. `y.Shows s` says that the pool is
sound and that `s` are the statuses; each operation of the pool has a lemma that says what it shows
afterwards, and nothing else is known about a pool from here on.

A pool is `Sound` when its containers stand under their own ids, and when each id was stamped before
now. An id that is made now is therefore not taken (`statusOf_generateId`).
-/

namespace ContainerHost

/-- The statuses with the one of an id set. -/
def assign (s : String → Option Status) (id : String) (st : Status) : String → Option Status :=
  fun x => if x = id then some st else s x

/-- The statuses with those of some ids set. -/
def assignAll (s : String → Option Status) (ids : List String) (st : Status) :
    String → Option Status :=
  fun x => if x ∈ ids then some st else s x

theorem assignAll_nil (s : String → Option Status) (st : Status) : assignAll s [] st = s := by
  funext x
  simp [assignAll]

theorem assign_self {s : String → Option Status} {id : String} {st : Status}
    (h : s id = some st) : assign s id st = s := by
  funext x
  unfold assign
  split
  · rename_i hx
    rw [hx, h]
  · rfl

namespace Pool

def statusOf (y : Pool) (id : String) : Option Status := (y.get? id).map (·.status)

/-- The id was made from a stamp that was given out before now. -/
def Dated (y : Pool) (id : String) : Prop :=
  ∃ name millis seed, id = generateId name (.ofSeed millis seed) ∧
    millis < y.clock.wall / 1000000 + y.stamps

/-- The containers are in order under their own ids, which are dated. -/
structure Sound (y : Pool) : Prop where
  ordered : y.containers.Ordered
  named : ∀ id c, y.get? id = some c → c.id = id
  dated : ∀ id c, y.get? id = some c → y.Dated id

/-- The pool is sound, and these are its statuses. -/
structure Shows (y : Pool) (s : String → Option Status) : Prop where
  sound : y.Sound
  status : ∀ id, y.statusOf id = s id

variable {y y' : Pool} {s : String → Option Status}

theorem shows_opened (outside : Outside) : (opened outside).Shows fun _ => none where
  sound := ⟨Table.ordered_empty, by simp [opened, get?], by simp [opened, get?]⟩
  status _ := rfl

theorem Dated.mono {id : String} (h : y.Dated id) (hwall : y.clock.wall ≤ y'.clock.wall)
    (hstamps : y.stamps ≤ y'.stamps) : y'.Dated id := by
  obtain ⟨name, millis, seed, rfl, hlt⟩ := h
  refine ⟨name, millis, seed, rfl, ?_⟩
  have hdiv := Nat.div_le_div_right (c := 1000000) hwall
  omega

/-! ## Time and place -/

/-- Another time, other directories and other notices do not matter, unless the time goes back. -/
theorem Shows.of_same (h : y.Shows s) (hc : y'.containers = y.containers)
    (hwall : y.clock.wall ≤ y'.clock.wall) (hstamps : y.stamps ≤ y'.stamps) : y'.Shows s := by
  have hget (id : String) : y'.get? id = y.get? id := by
    unfold get?
    rw [hc]
  refine ⟨⟨hc ▸ h.sound.ordered, ?_, ?_⟩, ?_⟩
  · intro id c hid
    exact h.sound.named id c (hget id ▸ hid)
  · intro id c hid
    exact (h.sound.dated id c (hget id ▸ hid)).mono hwall hstamps
  · intro id
    rw [statusOf, hget]
    exact h.status id

theorem shows_pass (h : y.Shows s) (d : Duration) : (y.pass d).Shows s :=
  h.of_same rfl (Nat.le_add_right _ _) (Nat.le_refl _)

theorem shows_takeHeard (h : y.Shows s) : y.takeHeard.2.Shows s :=
  h.of_same rfl (Nat.le_refl _) (Nat.le_refl _)

/-! ## Containers -/

theorem shows_put (h : y.Shows s) {c : Container} (hd : y.Dated c.id) :
    (y.put c).Shows (assign s c.id c.status) := by
  refine ⟨⟨Table.ordered_insert h.sound.ordered _ _, ?_, ?_⟩, ?_⟩
  · intro id d hid
    rw [get?_put] at hid
    split at hid
    · rename_i hc
      cases hid
      exact hc
    · exact h.sound.named id d hid
  · intro id d hid
    rw [get?_put] at hid
    split at hid
    · rename_i hc
      subst hc
      exact hd
    · exact h.sound.dated id d hid
  · intro id
    rw [statusOf, get?_put, assign]
    by_cases hc : c.id = id
    · rw [if_pos hc, if_pos hc.symm]
      rfl
    · rw [if_neg hc, if_neg fun heq => hc heq.symm]
      exact h.status id

section

variable {α : Type} {id : String} {f : Container → α × Container}

/-- Something that is done with a container, which keeps its id. -/
theorem shows_act (h : y.Shows s) (hf : ∀ c, (f c).2.id = c.id) {a : α}
    (ha : y.act id f = some (a, y')) :
    ∃ c, y.get? id = some c ∧ a = (f c).1 ∧ y'.Shows (assign s id (f c).2.status) := by
  unfold act at ha
  split at ha
  · cases ha
  · rename_i c hc
    cases ha
    have hid : (f c).2.id = id := (hf c).trans (h.sound.named id c hc)
    have hdated : (y.pass (.micros 1)).Dated (f c).2.id := by
      rw [hid]
      exact (h.sound.dated id c hc).mono (Nat.le_add_right _ _) (Nat.le_refl _)
    refine ⟨c, hc, rfl, ?_⟩
    rw [← hid]
    exact shows_put (shows_pass h _) hdated

/-- Something that is done with a container and leaves its status. -/
theorem shows_act_still (h : y.Shows s) (hf : ∀ c, (f c).2.id = c.id)
    (hstatus : ∀ c, (f c).2.status = c.status) {a : α} (ha : y.act id f = some (a, y')) :
    y'.Shows s := by
  obtain ⟨c, hc, -, hshows⟩ := shows_act h hf ha
  have hsame : s id = some (f c).2.status := by
    rw [← h.status id, statusOf, hc, hstatus c]
    rfl
  rw [assign_self hsame] at hshows
  exact hshows

theorem act_eq_none (h : y.act id f = none) : y.statusOf id = none := by
  unfold act at h
  split at h
  · rename_i hc
    rw [statusOf, hc]
    rfl
  · cases h

end

/-! ## Sleep -/

theorem shows_report (fuel till : Nat) (h : y.Shows s) : (report fuel till y).Shows s := by
  induction fuel generalizing y with
  | zero => exact h
  | succ fuel ih =>
    unfold report
    split
    · exact h
    · rename_i time id _
      have hclock : { y with
          clock := { y.clock with timers := max y.clock.timers time } }.Shows s :=
        h.of_same rfl (Nat.le_refl _) (Nat.le_refl _)
      dsimp only
      split
      · exact hclock
      · rename_i y' ha
        refine ih (shows_act_still hclock ?_ ?_ ha)
        · intro c
          exact (Container.aside_of_observed (Container.observed_strike c _)).id
        · intro c
          exact (Container.aside_of_observed (Container.observed_strike c _)).status

theorem shows_sleep (h : y.Shows s) (d : Duration) : (y.sleep d).Shows s := by
  unfold sleep sleepUntil
  exact (shows_report _ _ h).of_same rfl (Nat.le_refl _) (Nat.le_refl _)

/-! ## New ids -/

theorem statusOf_generateId (h : y.Shows s) (name : String) {millis seed : Nat}
    (hle : y.clock.wall / 1000000 + y.stamps ≤ millis) :
    s (generateId name (.ofSeed millis seed)) = none := by
  rw [← h.status]
  cases hget : y.get? (generateId name (.ofSeed millis seed)) with
  | none =>
    rw [statusOf, hget]
    rfl
  | some c =>
    -- the id that is taken has the same stamp, which was given out before
    obtain ⟨_, millis', _, hid, hlt⟩ := h.sound.dated _ c hget
    have heq := millis_inj hid
    omega

/-- A container that comes up runs under the id that it was given. -/
theorem create_ok {id name : String} {box : Guest.Sandbox} {module : Guest.Compiled}
    {digest : Option String} {env : Surroundings} {c : Container}
    (h : Container.create id name box module digest env = .ok c) :
    c.id = id ∧ c.status = .running := by
  unfold Container.create Container.start Container.boot at h
  split at h
  · cases h
  · dsimp only [Container.raw] at h
    cases hguest : box.instantiate env module id with
    | error e => simp [hguest, Except.map] at h
    | ok g =>
      simp only [hguest, Except.map, Except.ok.injEq] at h
      subst h
      exact ⟨rfl, rfl⟩

/-- A container that is made without an id gets one that is not taken, and runs. -/
theorem shows_create (h : y.Shows s) (name : String) (box : Guest.Sandbox)
    (module : Guest.Compiled) (digest : Option String) :
    match y.create none name box module digest with
    | (.error _, y') => y'.Shows s
    | (.ok id, y') => s id = none ∧ y'.Shows (assign s id .running) := by
  have hstamped : y.stamp.2.Shows s := h.of_same rfl (Nat.le_refl _) (Nat.le_succ _)
  simp only [create]
  cases hc : Container.create (generateId name y.stamp.1) name box module digest
      y.stamp.2.surroundings with
  | error e => exact hstamped
  | ok c =>
    obtain ⟨hid, hrunning⟩ := create_ok hc
    have hdated : y.stamp.2.Dated c.id := by
      refine ⟨name, _, _, hid, ?_⟩
      exact Nat.lt_succ_self _
    have hfresh : s c.id = none := by
      rw [hid]
      exact statusOf_generateId h name (Nat.le_refl _)
    refine ⟨hfresh, ?_⟩
    rw [← hrunning]
    exact shows_pass (shows_put hstamped hdated) _

/-! ## Containers like another one -/

theorem attempts_snd (n : Nat) (y : Pool) :
    (attempts n y).2 = { y with stamps := y.stamps + n } := by
  induction n generalizing y with
  | zero => rfl
  | succ n ih =>
    show (attempts n y.stamp.2).2 = _
    rw [ih]
    show ({ y with stamps := y.stamps + 1 + n } : Pool) = _
    rw [Nat.add_assoc, Nat.add_comm 1 n]

theorem length_attempts (n : Nat) (y : Pool) : (attempts n y).1.length = n := by
  induction n generalizing y with
  | zero => rfl
  | succ n ih => exact congrArg Nat.succ (ih _)

/-- The stamps for some containers are from now on, and before what comes then. -/
theorem mem_attempts {n : Nat} {t : Stamp × Surroundings} (ht : t ∈ (attempts n y).1) :
    ∃ millis seed, t.1 = .ofSeed millis seed ∧ y.clock.wall / 1000000 + y.stamps ≤ millis ∧
      millis < y.clock.wall / 1000000 + (y.stamps + n) := by
  induction n generalizing y with
  | zero => cases ht
  | succ n ih =>
    rcases List.mem_cons.mp ht with rfl | ht
    · exact ⟨_, _, rfl, Nat.le_refl _, by omega⟩
    · obtain ⟨millis, seed, hstamp, hfrom, hto⟩ := ih ht
      have hfrom : y.clock.wall / 1000000 + (y.stamps + 1) ≤ millis := hfrom
      have hto : millis < y.clock.wall / 1000000 + (y.stamps + 1 + n) := hto
      exact ⟨millis, seed, hstamp, by omega, by omega⟩

theorem replica_ok {c r : Container} {id : String} {env : Surroundings}
    (h : c.replica id env = .ok r) : r.id = id ∧ r.status = .running := by
  unfold Container.replica at h
  cases hc : Container.create id c.name c.sandbox c.module c.digest env with
  | error e => simp [hc, Except.map] at h
  | ok d =>
    simp only [hc, Except.map, Except.ok.injEq] at h
    subst h
    obtain ⟨hid, hrunning⟩ := create_ok hc
    have haside := Container.aside_of_updated (Container.updated_updateState d c.state)
    exact ⟨haside.id.trans hid, haside.status.trans hrunning⟩

/-- The id that a container like another one gets by an attempt. -/
def replicaId (c : Container) (t : Stamp × Surroundings) : String := generateId c.name t.1

/-- Containers like another one all run under ids by their attempts, or all are stopped again. -/
theorem replicas_spec (c : Container) (tries : List (Stamp × Surroundings))
    (made : List Container) (hmade : ∀ r ∈ made, r.status = .running) :
    match c.replicas tries made with
    | (.ok (), all) => (∀ r ∈ all, r.status = .running) ∧
      all.map (·.id) = (made.map (·.id)).reverse ++ tries.map (replicaId c)
    | (.error _, all) => (∀ r ∈ all, r.status = .stopped) ∧
      ∀ r ∈ all, r.id ∈ made.map (·.id) ∨ r.id ∈ tries.map (replicaId c) := by
  -- the containers that were made stand in reverse until the attempts are over
  induction tries generalizing made with
  | nil =>
    refine ⟨?_, by rw [List.map_reverse]; simp⟩
    intro r hr
    exact hmade r (List.mem_reverse.mp hr)
  | cons t tries ih =>
    obtain ⟨stamp, env⟩ := t
    simp only [Container.replicas]
    cases hr : c.replica (generateId c.name stamp) env with
    | error e =>
      -- the first that fails stops all that came before it
      refine ⟨?_, ?_⟩
      · intro r hmem
        obtain ⟨d, -, rfl⟩ := List.mem_map.mp hmem
        exact d.status_stop
      · intro r hmem
        obtain ⟨d, hd, rfl⟩ := List.mem_map.mp hmem
        rw [d.sameIdentity_stop.id]
        exact .inl (List.mem_map.mpr ⟨d, List.mem_reverse.mp hd, rfl⟩)
    | ok r =>
      obtain ⟨hid, hrunning⟩ := replica_ok hr
      have hmade' : ∀ d ∈ r :: made, d.status = .running := by
        intro d hd
        rcases List.mem_cons.mp hd with rfl | hd
        · exact hrunning
        · exact hmade d hd
      have hrest := ih (r :: made) hmade'
      dsimp only
      generalize c.replicas tries (r :: made) = outcome at hrest ⊢
      obtain ⟨e | u, all⟩ := outcome
      · obtain ⟨hstopped, hids⟩ := hrest
        refine ⟨hstopped, ?_⟩
        intro d hd
        have hfirst : replicaId c (stamp, env) = r.id := hid.symm
        rcases hids d hd with hmem | hmem
        · rw [List.map_cons, List.mem_cons] at hmem
          rw [List.map_cons, List.mem_cons, hfirst]
          tauto
        · rw [List.map_cons]
          exact .inr (List.mem_cons_of_mem _ hmem)
      · obtain ⟨hrunning, hids⟩ := hrest
        refine ⟨hrunning, ?_⟩
        rw [hids, List.map_cons, List.reverse_cons, List.append_assoc, List.map_cons, hid]
        rfl

theorem shows_putAll {st : Status} (made : List Container) (h : y.Shows s)
    (hst : ∀ r ∈ made, r.status = st) (hd : ∀ r ∈ made, y.Dated r.id) :
    (made.foldl put y).Shows (assignAll s (made.map (·.id)) st) := by
  induction made generalizing y s with
  | nil =>
    rw [List.map_nil, assignAll_nil]
    exact h
  | cons r made ih =>
    have hput := shows_put h (hd r List.mem_cons_self)
    have hrest := ih hput (fun d hmem => hst d (List.mem_cons_of_mem _ hmem))
      (fun d hmem => hd d (List.mem_cons_of_mem _ hmem))
    have hsame : assignAll (assign s r.id r.status) (made.map (·.id)) st =
        assignAll s ((r :: made).map (·.id)) st := by
      funext x
      have hr := hst r List.mem_cons_self
      simp only [assignAll, assign, List.map_cons, List.mem_cons, hr]
      split <;> split <;> simp_all
    exact hsame ▸ hrest

/-- What is made by an attempt has an id that is not taken, and that is dated from then on. -/
theorem new_attempt (h : y.Shows s) (c : Container) {n : Nat} {t : Stamp × Surroundings}
    (ht : t ∈ (attempts n y).1) :
    s (replicaId c t) = none ∧ (attempts n y).2.Dated (replicaId c t) := by
  obtain ⟨millis, seed, hstamp, hfrom, hto⟩ := mem_attempts ht
  rw [replicaId, hstamp, attempts_snd]
  exact ⟨statusOf_generateId h c.name hfrom, c.name, millis, seed, rfl, hto⟩

/-- Scaling makes containers under ids that are not taken; either all run, or none does. -/
theorem shows_scale (h : y.Shows s) {id : String} {n : Nat} {result : Except Error (List String)}
    (hs : y.scale id n = some (result, y')) :
    ∃ ids, (∀ x ∈ ids, s x = none) ∧
      match result with
      | .error _ => y'.Shows (assignAll s ids .stopped)
      | .ok made => made = ids ∧ ids.length = n ∧ y'.Shows (assignAll s ids .running) := by
  obtain ⟨c, -, hmade⟩ := Option.bind_eq_some_iff.mp hs
  have hspec := replicas_spec c (attempts n y).1 [] (by simp)
  have hattempts : (attempts n y).2.Shows s := by
    rw [attempts_snd]
    exact h.of_same rfl (Nat.le_refl _) (Nat.le_add_right _ _)
  -- whatever is made has an id by one of the attempts
  have hnew {x : String} (hx : x ∈ (attempts n y).1.map (replicaId c)) :
      s x = none ∧ (attempts n y).2.Dated x := by
    obtain ⟨t, ht, rfl⟩ := List.mem_map.mp hx
    exact new_attempt h c ht
  simp only [Container.scale] at hmade
  generalize c.replicas (attempts n y).1 [] = outcome at hspec hmade
  obtain ⟨e | u, all⟩ := outcome
  · obtain ⟨hstopped, hids⟩ := hspec
    cases hmade
    refine ⟨all.map (·.id), ?_, ?_⟩
    · intro x hx
      obtain ⟨r, hr, rfl⟩ := List.mem_map.mp hx
      exact (hnew ((hids r hr).resolve_left (by simp))).1
    · refine shows_pass (shows_putAll all hattempts hstopped ?_) _
      intro r hr
      exact (hnew ((hids r hr).resolve_left (by simp))).2
  · obtain ⟨hrunning, hids⟩ := hspec
    cases hmade
    simp only [List.map_nil, List.reverse_nil, List.nil_append] at hids
    refine ⟨all.map (·.id), ?_, rfl, ?_, ?_⟩
    · intro x hx
      exact (hnew (hids ▸ hx)).1
    · rw [hids, List.length_map, length_attempts]
    · refine shows_pass (shows_putAll all hattempts hrunning ?_) _
      intro r hr
      exact (hnew (hids ▸ List.mem_map_of_mem hr)).2

/-! ## The containers that are there -/

theorem Sound.shows (h : y.Sound) : y.Shows y.statusOf := ⟨h, fun _ => rfl⟩

/-- Each container that scaling makes has its id from an attempt. -/
theorem id_scale {c r : Container} {tries : List (Stamp × Surroundings)}
    (hr : r ∈ (c.scale tries).2) : r.id ∈ tries.map (replicaId c) := by
  have hspec := replicas_spec c tries [] (by simp)
  unfold Container.scale at hr
  generalize c.replicas tries [] = outcome at hspec hr
  rcases outcome with ⟨e | u, all⟩
  · exact (hspec.2 r hr).resolve_left (by simp)
  · obtain ⟨-, hids⟩ := hspec
    rw [List.map_nil, List.reverse_nil, List.nil_append] at hids
    exact hids ▸ List.mem_map_of_mem hr

/-- What stands under an id after containers were put in: one of them, or what stood there. -/
theorem get?_putAll (y : Pool) (made : List Container) (x : String) :
    (∃ r ∈ made, r.id = x ∧ (made.foldl put y).get? x = some { r with outbox := [] }) ∨
      (made.foldl put y).get? x = y.get? x := by
  induction made generalizing y with
  | nil => exact .inr rfl
  | cons r made ih =>
    rw [List.foldl_cons]
    rcases ih (y.put r) with ⟨d, hd, hid, hget⟩ | hget
    · exact .inl ⟨d, List.mem_cons_of_mem _ hd, hid, hget⟩
    · rw [hget, get?_put]
      by_cases hx : r.id = x
      · rw [if_pos hx]
        exact .inl ⟨r, List.mem_cons_self, hx, rfl⟩
      · rw [if_neg hx]
        exact .inr rfl

/-- Scaling leaves the containers of the pool as they are, and the new ones are what scaling makes
of the one that is scaled. -/
theorem get?_scale (h : y.Sound) {id : String} {n : Nat} {result : Except Error (List String)}
    (hs : y.scale id n = some (result, y')) (x : String) :
    ∃ c, y.get? id = some c ∧
      match y.get? x with
      | some d => y'.get? x = some d
      | none => ∀ d, y'.get? x = some d →
        ∃ tries, ∃ r ∈ (c.scale tries).2, d = { r with outbox := [] } := by
  obtain ⟨c, hc, hmade⟩ := Option.bind_eq_some_iff.mp hs
  simp only [Option.some.injEq, Prod.mk.injEq] at hmade
  obtain ⟨-, rfl⟩ := hmade
  refine ⟨c, hc, ?_⟩
  have hsame : (attempts n y).2.get? x = y.get? x := by
    rw [attempts_snd]
    rfl
  have hput := get?_putAll (attempts n y).2 (c.scale (attempts n y).1).2 x
  rw [hsame] at hput
  have hpass (y : Pool) (t : Duration) : (y.pass t).get? x = y.get? x := rfl
  rw [hpass]
  rcases hput with ⟨r, hr, hid, hget⟩ | hget
  · -- the id is new, so that nothing stood there
    obtain ⟨t, ht, hidt⟩ := List.mem_map.mp (id_scale hr)
    have hnew := (new_attempt h.shows c ht).1
    rw [hidt, hid, statusOf, Option.map_eq_none_iff] at hnew
    rw [hnew]
    intro d hd
    rw [hget] at hd
    cases hd
    exact ⟨_, r, hr, rfl⟩
  · rw [hget]
    cases y.get? x with
    | some d => rfl
    | none =>
      intro d hd
      cases hd

end Pool
end ContainerHost
