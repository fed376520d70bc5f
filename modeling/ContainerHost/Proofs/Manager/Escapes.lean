import ContainerHost.Proofs.Manager.Capacity
/-!
# Containers that run outside the registry

A restart looks its container up before it waits for it, and does not look again. When the container
was stopped and removed in the meantime, the restart makes it run again (`Escaped`): it is not
registered, takes no slot, and no operation finds it any more.

What is proved: when all operations have ended, the containers that run without being registered are
those that escaped, and no others (`running_unregistered_iff_escaped`), and some do
(`not_running_registered`).
-/

namespace ContainerHost

namespace Manager

def running (m : Manager) : List String :=
  m.pool.containers.keys.filter fun id => m.pool.statusOf id = some .running

theorem mem_running {m : Manager} {id : String} :
    id ∈ m.running ↔ m.pool.statusOf id = some .running := by
  unfold running
  rw [List.mem_filter, decide_eq_true_iff]
  refine ⟨And.right, fun h => ⟨?_, h⟩⟩
  rw [← Table.contains_iff]
  have hsome : (m.pool.statusOf id).isSome = true := by
    rw [h]
    rfl
  rwa [Pool.statusOf, Option.isSome_map] at hsome

/-- The containers that run and are registered are not more than those that are registered. -/
theorem length_running_registered {m : Manager} {slots : Slots} {s : String → Option Status}
    (h : m.Shows slots s) : (m.running.filter m.slots.holds).length ≤ m.slots.occupied := by
  have hnodup : (m.running.filter m.slots.holds).Nodup :=
    ((Table.keys_nodup h.pool.sound.ordered).filter _).filter _
  have hsub : m.running.filter m.slots.holds ⊆ m.slots.registered.keys := by
    intro id hid
    exact Slots.holds_iff.mp (List.mem_filter.mp hid).2
  have hlength := hnodup.length_le_of_subset hsub
  rw [← Table.size_eq_length_keys] at hlength
  exact Nat.le_trans hlength (Nat.le_add_right _ _)

end Manager

namespace ConcurrentManager

/-- The last thing that happened to a container is that a restart revived it, after it was stopped
for good. -/
def Escaped (t : ConcurrentManager) (id : String) : Prop :=
  ∃ rest, t.marksOf id = .revived :: rest ∧ .stopped ∈ rest

variable {t : ConcurrentManager} {slots : Slots} {s : String → Option Status} {id : String}

/-- A container that runs after it was stopped for good was revived. -/
theorem Recorded.escaped (h : Recorded s t.marksOf) :
    t.Escaped id ↔ s id = some .running ∧ .stopped ∈ t.marksOf id := by
  constructor
  · rintro ⟨rest, hmarks, hstopped⟩
    rw [hmarks]
    refine ⟨?_, List.mem_cons_of_mem _ hstopped⟩
    cases hid : s id with
    | none => simp [h.known id hid] at hmarks
    | some st =>
      have hliving : Living (t.marksOf id) := hmarks ▸ trivial
      rw [(h.living id st hid).mpr hliving]
  · rintro ⟨hid, hstopped⟩
    have hliving := (h.living id _ hid).mp rfl
    cases hmarks : t.marksOf id with
    | nil => simp [hmarks] at hstopped
    | cons what rest =>
      rw [hmarks] at hliving hstopped
      cases what with
      | made =>
        -- a container is made once, before anything else happens to it
        have hrest := (List.mem_cons.mp hstopped).resolve_left (by decide)
        exact absurd hrest (h.first id rest hmarks)
      | revived =>
        have hrest := (List.mem_cons.mp hstopped).resolve_left (by decide)
        exact ⟨rest, hmarks, hrest⟩
      | stopped => exact hliving.elim
      | rested => exact hliving.elim
      | broken => exact hliving.elim

/-- When nothing is under way, the containers that are not registered are those that were stopped
for good. -/
theorem Agrees.unregistered (h : t.Agrees slots s []) (hid : (s id).isSome = true) :
    t.manager.slots.holds id = false ↔ .stopped ∈ t.marksOf id := by
  rw [h.shows.slots]
  constructor
  · intro hout
    by_contra hgone
    rcases h.filed.unregistered id hid hgone with hholds | ⟨ticket, hmem⟩
    · simp [hout] at hholds
    · -- no cleanup is about to stop it
      cases hmem
  · intro hgone
    rw [← Bool.not_eq_true]
    intro hholds
    exact (h.filed.registered id hholds).2 hgone

theorem Agrees.escaped (h : t.Agrees slots s []) :
    (t.manager.pool.statusOf id = some .running ∧ t.manager.slots.holds id = false) ↔
      t.Escaped id := by
  rw [Recorded.escaped h.recorded, h.shows.pool.status]
  refine and_congr_right fun hid => h.unregistered ?_
  rw [hid]
  rfl

/-- Once all operations have ended, the containers that run outside the registry are those that a
restart revived after they were stopped for good. The others that run are registered and within the
limit, so that no more than the limit run when none escaped. -/
theorem running_unregistered_iff_escaped {config : ManagerConfig} {host : Guest.Host}
    {source : Source} {deployer : Deployer} {network : Http.Network} {outside : Outside}
    {m : Manager} (hm : Manager.opened config host source deployer network outside = .ok m)
    (moves : List Move) (hdone : ((opened m).run moves).tasks = []) :
    let t := (opened m).run moves
    (∀ id, (t.manager.pool.statusOf id = some .running ∧ t.manager.slots.holds id = false) ↔
      t.Escaped id) ∧
    (t.manager.running.filter t.manager.slots.holds).length ≤ config.maxContainers ∧
    ((∀ id, ¬ t.Escaped id) →
      (∀ id, t.manager.pool.statusOf id = some .running → t.manager.slots.holds id = true) ∧
      t.manager.running.length ≤ config.maxContainers) := by
  intro t
  have hshows := shows_of_opened hm
  obtain ⟨slots, s, hagrees⟩ : t.Sane := sane_of_opened rfl hshows moves
  rw [hdone] at hagrees
  have hbooks : t.Books config.maxContainers :=
    books_run (sane_of_opened rfl hshows []) (books_opened hshows.slots) moves
  have hwithin : (t.manager.running.filter t.manager.slots.holds).length ≤ config.maxContainers :=
    Nat.le_trans (Manager.length_running_registered hagrees.shows) (within_of_books hbooks).1
  refine ⟨fun id => hagrees.escaped, hwithin, ?_⟩
  intro hnone
  have hregistered (id : String) (hid : t.manager.pool.statusOf id = some .running) :
      t.manager.slots.holds id = true := by
    rw [← Bool.not_eq_false]
    intro hout
    exact hnone id (hagrees.escaped.mp ⟨hid, hout⟩)
  refine ⟨hregistered, ?_⟩
  have hall : t.manager.running.filter t.manager.slots.holds = t.manager.running := by
    rw [List.filter_eq_self]
    intro id hid
    exact hregistered id (Manager.mem_running.mp hid)
  exact hall ▸ hwithin

/-! ## A revival -/

def firstId : String := "a-1700000000000-00000000"

/-- While a restart of a container rests, a stop and a second restart of it are asked for. They go
on in this order, and then another container is asked for. -/
def revival : List Move :=
  [.ask (.run "a" .standard), .go 0,
    .ask (.restart firstId), .go 0, .ask (.stop firstId), .ask (.restart firstId),
    .sleep Limits.restartGrace, .go 0, .go 0, .go 0, .sleep Limits.restartGrace, .go 0,
    .ask (.run "a" .standard), .go 0]

theorem outcome_revival :
    let t := (opened solo).run revival
    t.tasks.isEmpty = true ∧ t.manager.pool.statusOf firstId = some .running ∧
      t.manager.slots.holds firstId = false ∧ narrow.maxContainers < t.manager.running.length := by
  decide +kernel

theorem tasks_revival : ((opened solo).run revival).tasks = [] :=
  List.isEmpty_iff.mp outcome_revival.1

/-- The container was revived after it was stopped for good, and one other is registered. -/
theorem escaped_revival :
    Manager.opened narrow solo.host solo.source solo.deployer .silent (.ofDirs []) = .ok solo ∧
    ((opened solo).run revival).tasks = [] ∧
    ((opened solo).run revival).Escaped firstId ∧
    (((opened solo).run revival).manager.running.filter
      ((opened solo).run revival).manager.slots.holds).length ≤ 1 := by
  obtain ⟨-, hrunning, hout, -⟩ := outcome_revival
  obtain ⟨hescaped, hwithin, -⟩ :=
    running_unregistered_iff_escaped opened_solo revival tasks_revival
  exact ⟨opened_solo, tasks_revival, (hescaped firstId).mp ⟨hrunning, hout⟩, hwithin⟩

/-- A container may run outside the registry when all operations have ended, and more containers may
run than the limit says. -/
theorem not_running_registered :
    Manager.opened narrow solo.host solo.source solo.deployer .silent (.ofDirs []) = .ok solo ∧
    ((opened solo).run revival).tasks = [] ∧
    ((opened solo).run revival).manager.pool.statusOf firstId = some .running ∧
    ((opened solo).run revival).manager.slots.holds firstId = false ∧
    narrow.maxContainers < ((opened solo).run revival).manager.running.length := by
  obtain ⟨-, hrunning, hout, hover⟩ := outcome_revival
  exact ⟨opened_solo, tasks_revival, hrunning, hout, hover⟩

end ConcurrentManager
end ContainerHost
