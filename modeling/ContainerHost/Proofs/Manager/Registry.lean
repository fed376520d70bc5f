import ContainerHost.Proofs.Manager.Effects
import ContainerHost.Proofs.Manager.ConcurrentManager
import Mathlib.Data.List.Perm.Basic
/-!
# The registry of a concurrent manager

How the registered containers, those that run and the operations under way belong together, however
operations interleave. A container runs exactly when the last thing that happened to it is that it
was made or revived (`Recorded`). It is registered as long as it was not stopped for good, unless a
cleanup has taken it out and is about to stop it (`Filed`). Ids are never used again, so that an
operation that waits for a container waits for the one that it has looked up.

What is proved: both hold after any moves (`sane_run`).
-/

namespace ContainerHost

/-! ## The slots -/

namespace Slots

variable {s t : Slots} {id x : String}

theorem holds_iff : s.holds id = true ↔ id ∈ s.registered.keys := Table.contains_iff

theorem holds_reserve {n : Nat} {r : Reservation} (h : s.reserve n = .ok (r, t)) :
    t.holds x = s.holds x := by
  obtain ⟨-, rfl, -⟩ := reserve_eq_ok h
  rfl

theorem holds_drop (s : Slots) (r : Reservation) (x : String) :
    (s.drop r).holds x = s.holds x := by
  unfold holds
  rw [registered_drop]

theorem holds_commit {r : Reservation} {ids : List String} :
    (s.commit r ids).2.holds x = true ↔ s.holds x = true ∨ x ∈ ids := by
  rw [holds_iff, holds_iff]
  show x ∈ (s.registered.insertAll (ids.map (·, ()))).keys ↔ _
  rw [Table.mem_keys_insertAll, List.map_map, or_comm]
  simp [Function.comp_def]

theorem holds_remove : (s.remove id).holds x = true ↔ x ≠ id ∧ s.holds x = true := by
  rw [holds_iff, holds_iff]
  exact Table.mem_keys_erase

end Slots

/-! ## Marks -/

/-- The last thing that happened to a container is that it began to run. -/
def Living : List Mark → Prop
  | .made :: _ | .revived :: _ => True
  | _ => False

/-- Some containers got a mark each, or several. -/
structure Marked (ids : List String) (what : Mark) (marks marks' : String → List Mark) : Prop where
  others : ∀ x, x ∉ ids → marks' x = marks x
  these : ∀ x, x ∈ ids → ∃ k, marks' x = List.replicate (k + 1) what ++ marks x

namespace ConcurrentManager

theorem marked_mark (t : ConcurrentManager) (ids : List String) (what : Mark) :
    Marked ids what t.marksOf (t.mark ids what).marksOf := by
  have hsplit (x : String) : (t.mark ids what).marksOf x =
      List.replicate (ids.filter (· == x)).length what ++ t.marksOf x := by
    unfold marksOf mark
    rw [List.filter_append, List.map_append, List.filter_map, List.map_map]
    congr 1
    exact List.map_const'
  refine ⟨?_, ?_⟩
  · intro x hx
    have hnone : ids.filter (· == x) = [] := by
      rw [List.filter_eq_nil_iff]
      intro y hy heq
      exact hx (eq_of_beq heq ▸ hy)
    rw [hsplit, hnone]
    rfl
  · intro x hx
    have hmem : x ∈ ids.filter (· == x) := List.mem_filter.mpr ⟨hx, beq_self_eq_true x⟩
    obtain ⟨k, hk⟩ := Nat.exists_eq_succ_of_ne_zero (List.length_pos_of_mem hmem).ne'
    exact ⟨k, by rw [hsplit, hk]⟩

end ConcurrentManager

namespace Marked

variable {ids : List String} {what : Mark} {marks marks' : String → List Mark} {x : String}

theorem living (h : Marked ids what marks marks') (hx : x ∈ ids) :
    Living (marks' x) ↔ what = .made ∨ what = .revived := by
  obtain ⟨k, hk⟩ := h.these x hx
  rw [hk, List.replicate_succ, List.cons_append]
  cases what <;> simp [Living]

/-- Only a mark of a stop says that a container was stopped. -/
theorem stopped_iff (h : Marked ids what marks marks') (hwhat : what ≠ .stopped) :
    .stopped ∈ marks' x ↔ .stopped ∈ marks x := by
  by_cases hx : x ∈ ids
  · obtain ⟨k, hk⟩ := h.these x hx
    rw [hk, List.mem_append, List.mem_replicate]
    constructor
    · rintro (⟨-, heq⟩ | hmem)
      · exact absurd heq.symm hwhat
      · exact hmem
    · exact .inr
  · rw [h.others x hx]

theorem stopped_iff_of_stopped (h : Marked ids .stopped marks marks') :
    .stopped ∈ marks' x ↔ .stopped ∈ marks x ∨ x ∈ ids := by
  by_cases hx : x ∈ ids
  · obtain ⟨k, hk⟩ := h.these x hx
    rw [hk, List.replicate_succ]
    simp [hx]
  · rw [h.others x hx]
    simp [hx]

end Marked

/-- The marks tell which containers there are and which of them run. A container is made once. -/
structure Recorded (s : String → Option Status) (marks : String → List Mark) : Prop where
  living : ∀ id st, s id = some st → (st = .running ↔ Living (marks id))
  known : ∀ id, s id = none → marks id = []
  first : ∀ id rest, marks id = .made :: rest → .stopped ∉ rest

namespace Recorded

variable {s : String → Option Status} {marks marks' : String → List Mark}

theorem assignAll (h : Recorded s marks) {ids : List String} {st : Status} {what : Mark}
    (hm : Marked ids what marks marks')
    (hst : st = .running ↔ what = .made ∨ what = .revived)
    (hmade : what = .made → ∀ x ∈ ids, .stopped ∉ marks x) :
    Recorded (ContainerHost.assignAll s ids st) marks' := by
  refine ⟨?_, ?_, ?_⟩
  · intro id st' hid
    unfold ContainerHost.assignAll at hid
    split at hid
    · rename_i hmem
      cases hid
      rw [hm.living hmem]
      exact hst
    · rename_i hmem
      rw [hm.others id hmem]
      exact h.living id st' hid
  · intro id hid
    unfold ContainerHost.assignAll at hid
    split at hid
    · cases hid
    · rename_i hmem
      rw [hm.others id hmem]
      exact h.known id hid
  · intro id rest hid
    by_cases hmem : id ∈ ids
    · -- whoever is made now has no marks from before but those of its making
      obtain ⟨k, hk⟩ := hm.these id hmem
      rw [hid, List.replicate_succ, List.cons_append, List.cons.injEq] at hk
      obtain ⟨hwhat, hrest⟩ := hk
      subst hwhat
      rw [hrest, List.mem_append, List.mem_replicate]
      rintro (⟨-, heq⟩ | hstopped)
      · cases heq
      · exact hmade rfl id hmem hstopped
    · rw [hm.others id hmem] at hid
      exact h.first id rest hid

end Recorded

theorem isSome_assign {s : String → Option Status} {id : String} {st : Status}
    (hin : (s id).isSome = true) (x : String) :
    (assign s id st x).isSome = true ↔ (s x).isSome = true := by
  unfold assign
  split
  · rename_i hx
    rw [hx, hin]
    exact Iff.of_eq rfl
  · exact .rfl

theorem isSome_assignAll (s : String → Option Status) (ids : List String) (st : Status)
    (x : String) : (assignAll s ids st x).isSome = true ↔ (s x).isSome = true ∨ x ∈ ids := by
  unfold assignAll
  split
  · rename_i hx
    simp [hx]
  · rename_i hx
    simp [hx]

theorem not_isSome_of_fresh {s : String → Option Status} {ids : List String}
    (hfresh : ∀ x ∈ ids, s x = none) : ∀ x ∈ ids, ¬ (s x).isSome = true := by
  intro x hx
  rw [hfresh x hx]
  decide

theorem assign_eq_assignAll (s : String → Option Status) (id : String) (st : Status) :
    assign s id st = assignAll s [id] st := by
  funext x
  simp [assign, assignAll]

/-! ## The registry -/

/-- How the registered containers, those that there are, those that were stopped for good, and the
tasks under way belong together. -/
structure Filed (holds present gone : String → Prop) (tasks : List (Nat × Task)) : Prop where
  targets : ∀ e ∈ tasks, ∀ id, e.2.target? = some id → present id
  registered : ∀ id, holds id → present id ∧ ¬ gone id
  unregistered : ∀ id, present id → ¬ gone id → holds id ∨ ∃ ticket, (ticket, .sweep id) ∈ tasks
  swept : ∀ ticket id, (ticket, .sweep id) ∈ tasks → ¬ holds id

namespace Filed

variable {holds present gone holds' present' gone' : String → Prop}
  {tasks tasks' : List (Nat × Task)} {ticket : Nat} {task : Task} {id : String}

theorem congr (h : Filed holds present gone tasks) (hh : ∀ x, holds' x ↔ holds x)
    (hp : ∀ x, present' x ↔ present x) (hg : ∀ x, gone' x ↔ gone x)
    (ht : ∀ e, e ∈ tasks' ↔ e ∈ tasks) : Filed holds' present' gone' tasks' := by
  refine ⟨?_, ?_, ?_, ?_⟩
  · intro e he x hx
    exact (hp x).mpr (h.targets e ((ht e).mp he) x hx)
  · intro x hx
    rw [hp, hg]
    exact h.registered x ((hh x).mp hx)
  · intro x hx hgone
    rw [hp] at hx
    rw [hg] at hgone
    rw [hh]
    rcases h.unregistered x hx hgone with hx | ⟨ticket, hmem⟩
    · exact .inl hx
    · exact .inr ⟨ticket, (ht _).mpr hmem⟩
  · intro ticket x hmem
    rw [hh]
    exact h.swept ticket x ((ht _).mp hmem)

/-- A task ends; the stop of a cleanup does not end before its container was stopped. -/
theorem forget (h : Filed holds present gone ((ticket, task) :: tasks))
    (hs : ∀ x, task = .sweep x → gone x) : Filed holds present gone tasks := by
  refine ⟨?_, h.registered, ?_, ?_⟩
  · intro e he
    exact h.targets e (List.mem_cons_of_mem _ he)
  · intro x hx hgone
    rcases h.unregistered x hx hgone with hx | ⟨ticket', hmem⟩
    · exact .inl hx
    · rcases List.mem_cons.mp hmem with heq | hmem
      · -- the task that ends is the sweep, but then the container was stopped
        cases heq
        exact absurd (hs x rfl) hgone
      · exact .inr ⟨ticket', hmem⟩
  · intro ticket' x hmem
    exact h.swept ticket' x (List.mem_cons_of_mem _ hmem)

/-- Tasks begin, other than the stops of a cleanup. -/
theorem enlist (h : Filed holds present gone tasks) {new : List (Nat × Task)}
    (ht : ∀ e ∈ new, ∀ x, e.2.target? = some x → present x)
    (hs : ∀ e ∈ new, ∀ x, e.2 ≠ .sweep x) : Filed holds present gone (tasks ++ new) := by
  refine ⟨?_, h.registered, ?_, ?_⟩
  · intro e he
    rcases List.mem_append.mp he with he | he
    · exact h.targets e he
    · exact ht e he
  · intro x hx hgone
    rcases h.unregistered x hx hgone with hx | ⟨ticket', hmem⟩
    · exact .inl hx
    · exact .inr ⟨ticket', List.mem_append_left _ hmem⟩
  · intro ticket' x hmem
    rcases List.mem_append.mp hmem with hmem | hmem
    · exact h.swept ticket' x hmem
    · exact absurd rfl (hs _ hmem x)

/-- A container is stopped for good, and is not registered any more. -/
theorem stop (h : Filed holds present gone tasks) (id : String) :
    Filed (fun x => x ≠ id ∧ holds x) present (fun x => gone x ∨ x = id) tasks := by
  refine ⟨h.targets, ?_, ?_, ?_⟩
  · rintro x ⟨hne, hx⟩
    obtain ⟨hpresent, hgone⟩ := h.registered x hx
    exact ⟨hpresent, fun hor => hor.elim hgone hne⟩
  · intro x hx hgone
    rcases h.unregistered x hx (fun hg => hgone (.inl hg)) with hx | hswept
    · exact .inl ⟨fun heq => hgone (.inr heq), hx⟩
    · exact .inr hswept
  · rintro ticket x hmem ⟨-, hx⟩
    exact h.swept ticket x hmem hx

theorem make (h : Filed holds present gone tasks) {ids : List String}
    (hp : ∀ x ∈ ids, ¬ present x) (hg : ∀ x ∈ ids, ¬ gone x) :
    Filed (fun x => holds x ∨ x ∈ ids) (fun x => present x ∨ x ∈ ids) gone tasks := by
  refine ⟨?_, ?_, ?_, ?_⟩
  · intro e he x hx
    exact .inl (h.targets e he x hx)
  · rintro x (hx | hx)
    · obtain ⟨hpresent, hgone⟩ := h.registered x hx
      exact ⟨.inl hpresent, hgone⟩
    · exact ⟨.inr hx, hg x hx⟩
  · rintro x (hx | hx) hgone
    · rcases h.unregistered x hx hgone with hx | hswept
      · exact .inl (.inl hx)
      · exact .inr hswept
    · exact .inl (.inr hx)
  · rintro ticket x hmem (hx | hx)
    · exact h.swept ticket x hmem hx
    · -- a sweep is about a container that there was before
      exact hp x hx (h.targets _ hmem x rfl)

/-- Containers are made, and stopped for good before they are registered. -/
theorem fail (h : Filed holds present gone tasks) {ids : List String}
    (hp : ∀ x ∈ ids, ¬ present x) :
    Filed holds (fun x => present x ∨ x ∈ ids) (fun x => gone x ∨ x ∈ ids) tasks := by
  refine ⟨?_, ?_, ?_, h.swept⟩
  · intro e he x hx
    exact .inl (h.targets e he x hx)
  · intro x hx
    obtain ⟨hpresent, hgone⟩ := h.registered x hx
    exact ⟨.inl hpresent, fun hor => hor.elim hgone fun hmem => hp x hmem hpresent⟩
  · rintro x (hx | hx) hgone
    · exact h.unregistered x hx fun hg => hgone (.inl hg)
    · exact absurd (.inr hx) hgone

/-- All containers are taken out of the registry, and a task begins for each of them. -/
theorem drain (h : Filed holds present gone tasks) {new : List (Nat × Task)}
    (hnew : ∀ e ∈ new, ∀ x, e.2.target? = some x → holds x)
    (hall : ∀ x, holds x → ∃ ticket, (ticket, .sweep x) ∈ new) :
    Filed (fun _ => False) present gone (tasks ++ new) := by
  refine ⟨?_, fun _ hx => hx.elim, ?_, fun _ _ _ hx => hx⟩
  · intro e he x hx
    rcases List.mem_append.mp he with he | he
    · exact h.targets e he x hx
    · exact (h.registered x (hnew e he x hx)).1
  · intro x hx hgone
    rcases h.unregistered x hx hgone with hx | ⟨ticket, hmem⟩
    · obtain ⟨ticket, hmem⟩ := hall x hx
      exact .inr ⟨ticket, List.mem_append_right _ hmem⟩
    · exact .inr ⟨ticket, List.mem_append_left _ hmem⟩

end Filed

/-! ## The invariant -/

namespace ConcurrentManager

/-- The registry and the marks agree with the containers, for certain slots, statuses and tasks. -/
structure Agrees (t : ConcurrentManager) (slots : Slots) (s : String → Option Status)
    (tasks : List (Nat × Task)) : Prop where
  shows : t.manager.Shows slots s
  recorded : Recorded s t.marksOf
  filed : Filed (slots.holds · = true) (fun id => (s id).isSome = true)
    (fun id => .stopped ∈ t.marksOf id) tasks

/-- What every move of a concurrent manager keeps. -/
def Sane (t : ConcurrentManager) : Prop := ∃ slots s, t.Agrees slots s t.tasks

variable {t : ConcurrentManager} {slots slots' : Slots} {s : String → Option Status}
  {tasks : List (Nat × Task)} {m : Manager} {ticket : Nat} {task : Task}

theorem sane_opened (hslots : m.slots.registered = .empty) (hm : m.Shows m.slots fun _ => none) :
    (opened m).Sane := by
  refine ⟨m.slots, fun _ => none, hm, ⟨?_, ?_, ?_⟩, ⟨?_, ?_, ?_, ?_⟩⟩
  · intro id st h
    cases h
  · intro id _
    rfl
  · intro id rest h
    cases h
  · intro e he
    cases he
  · intro id hid
    rw [Slots.holds_iff, hslots] at hid
    cases hid
  · intro id h
    cases h
  · intro ticket id h
    cases h

namespace Agrees

/-- The manager did something that does not show, but for slots that hold the same ids. -/
theorem quiet (h : t.Agrees slots s tasks) (hm : m.Shows slots' s)
    (hholds : ∀ x, slots'.holds x = slots.holds x) : (t.withManager m).Agrees slots' s tasks := by
  refine ⟨hm, h.recorded, h.filed.congr ?_ (fun _ => .rfl) (fun _ => .rfl) (fun _ => .rfl)⟩
  intro x
  rw [hholds]

theorem answer (h : t.Agrees slots s tasks) (ticket : Nat) (r : Reply) :
    (t.answer ticket r).Agrees slots s tasks := ⟨h.shows, h.recorded, h.filed⟩

theorem forget (h : t.Agrees slots s ((ticket, task) :: tasks)) (hs : task.isSweep = false) :
    t.Agrees slots s tasks := by
  refine ⟨h.shows, h.recorded, h.filed.forget ?_⟩
  intro x heq
  rw [heq] at hs
  cases hs

theorem enlist (h : t.Agrees slots s t.tasks) (ticket : Nat) (task : Task)
    (ht : ∀ x, task.target? = some x → (s x).isSome) (hs : task.isSweep = false) :
    (t.enlist ticket task).Agrees slots s (t.enlist ticket task).tasks := by
  refine ⟨h.shows, h.recorded, h.filed.enlist (by simpa using ht) ?_⟩
  intro e he x heq
  rw [List.mem_singleton.mp he] at heq
  rw [show task = .sweep x from heq] at hs
  cases hs

/-- A restart that began, or ended, on a container that there is. -/
theorem enter (h : t.Agrees slots s tasks) {id : String} {st : Status} (what : Mark)
    (hin : (s id).isSome) (hm : m.Shows slots (assign s id st)) (hwhat : what ≠ .stopped)
    (hmade : what ≠ .made) (hst : st = .running ↔ what = .revived) :
    ((t.withManager m).mark [id] what).Agrees slots (assign s id st) tasks := by
  have hmarked := marked_mark (t.withManager m) [id] what
  refine ⟨hm, ?_, h.filed.congr (fun _ => .rfl) (isSome_assign hin) ?_ fun _ => .rfl⟩
  · rw [assign_eq_assignAll]
    refine h.recorded.assignAll hmarked ?_ fun heq => absurd heq hmade
    rw [hst]
    exact ⟨.inr, fun hor => hor.resolve_left hmade⟩
  · intro x
    exact hmarked.stopped_iff hwhat

/-- A container that there is was stopped for good. -/
theorem stop (h : t.Agrees slots s tasks) {id : String} (hin : (s id).isSome)
    (hm : m.Shows slots' (assign s id .stopped))
    (hholds : ∀ x, slots'.holds x = true ↔ x ≠ id ∧ slots.holds x = true) :
    ((t.withManager m).mark [id] .stopped).Agrees slots' (assign s id .stopped) tasks := by
  have hmarked := marked_mark (t.withManager m) [id] .stopped
  refine ⟨hm, ?_, (h.filed.stop id).congr hholds (isSome_assign hin) ?_ fun _ => .rfl⟩
  · rw [assign_eq_assignAll]
    refine h.recorded.assignAll hmarked (by decide) fun heq => ?_
    cases heq
  · intro x
    rw [hmarked.stopped_iff_of_stopped, List.mem_singleton]
    exact .rfl

/-- New containers run and are registered. -/
theorem make (h : t.Agrees slots s tasks) (ids : List String) (hfresh : ∀ x ∈ ids, s x = none)
    (hm : m.Shows slots' (assignAll s ids .running))
    (hholds : ∀ x, slots'.holds x = true ↔ slots.holds x = true ∨ x ∈ ids) :
    ((t.withManager m).mark ids .made).Agrees slots' (assignAll s ids .running) tasks := by
  have hmarked := marked_mark (t.withManager m) ids .made
  have hclean : ∀ x ∈ ids, .stopped ∉ t.marksOf x := by
    intro x hx
    rw [h.recorded.known x (hfresh x hx)]
    exact List.not_mem_nil
  have hmade := h.filed.make (not_isSome_of_fresh hfresh) hclean
  refine ⟨hm, h.recorded.assignAll hmarked (by decide) fun _ => hclean,
    hmade.congr hholds (isSome_assignAll s ids _) ?_ fun _ => .rfl⟩
  intro x
  exact hmarked.stopped_iff (by decide)

/-- New containers were stopped again, and nobody registers them. -/
theorem fail (h : t.Agrees slots s tasks) {ids : List String} (hfresh : ∀ x ∈ ids, s x = none)
    (hm : m.Shows slots' (assignAll s ids .stopped))
    (hholds : ∀ x, slots'.holds x = slots.holds x) {new : List String}
    (hnew : ∀ x, x ∈ new ↔ x ∈ ids) :
    ((t.withManager m).mark new .stopped).Agrees slots' (assignAll s ids .stopped) tasks := by
  have hmarked := marked_mark (t.withManager m) new .stopped
  have hsame : assignAll s ids .stopped = assignAll s new .stopped := by
    funext x
    simp only [assignAll, hnew]
  have hfailed := h.filed.fail (not_isSome_of_fresh hfresh)
  refine ⟨hm, ?_, hfailed.congr ?_ (isSome_assignAll s ids _) ?_ fun _ => .rfl⟩
  · rw [hsame]
    refine h.recorded.assignAll hmarked (by decide) fun heq => ?_
    cases heq
  · intro x
    rw [hholds]
  · intro x
    rw [hmarked.stopped_iff_of_stopped, hnew]
    exact .rfl

/-- A run ended, whatever came of it. -/
theorem ran (h : t.Agrees slots s tasks) {r : Reservation} {result : Except Failure String}
    (hran : Manager.Ran slots s r (result, m)) (ticket : Nat) :
    ∃ slots' s', (t.ran ticket result m).Agrees slots' s' tasks := by
  cases result with
  | error e =>
    have hquiet := h.quiet hran (Slots.holds_drop slots r)
    exact ⟨_, _, hquiet.answer ticket _⟩
  | ok id =>
    obtain ⟨hfresh, hm⟩ := hran
    rw [assign_eq_assignAll] at hm
    have hmade := h.make [id] (by simpa using hfresh) hm fun _ => Slots.holds_commit
    exact ⟨_, _, hmade.answer ticket _⟩

theorem mem_appeared {m' : Manager} {ids : List String} {st : Status} (hm : m.Shows slots s)
    (hm' : m'.Shows slots' (assignAll s ids st)) (hfresh : ∀ x ∈ ids, s x = none) (x : String) :
    x ∈ appeared m m' ↔ x ∈ ids := by
  have hcontains {y : Pool} {s : String → Option Status} (hy : y.Shows s) :
      y.containers.contains x = (s x).isSome := by
    rw [← hy.status, Pool.statusOf, Option.isSome_map]
    rfl
  unfold appeared
  rw [List.mem_filter, ← Table.contains_iff, hcontains hm.pool, hcontains hm'.pool,
    isSome_assignAll]
  constructor
  · rintro ⟨hpresent | hmem, hnew⟩
    · simp [hpresent] at hnew
    · exact hmem
  · intro hmem
    refine ⟨.inr hmem, ?_⟩
    rw [hfresh x hmem]
    rfl

/-- Scaling ended, whatever came of it. -/
theorem scaled (h : t.Agrees slots s tasks) {r : Reservation} {n : Nat} {ids : List String}
    {result : Except Failure (List String)} (hfresh : ∀ x ∈ ids, s x = none)
    (hscaled : Manager.Scaled slots s r n ids (result, m)) (ticket : Nat) :
    ∃ slots' s', (t.scaled ticket result m).Agrees slots' s' tasks := by
  cases result with
  | error e =>
    have hfailed := h.fail hfresh hscaled (Slots.holds_drop slots r)
      (mem_appeared h.shows hscaled hfresh)
    exact ⟨_, _, hfailed.answer ticket _⟩
  | ok made =>
    obtain ⟨rfl, -, hm⟩ := hscaled
    have hmade := h.make made hfresh hm fun _ => Slots.holds_commit
    exact ⟨_, _, hmade.answer ticket _⟩

theorem find (h : t.Agrees slots s t.tasks) (ticket : Nat) (id : String)
    {task : Container → Task} (ht : ∀ c, (task c).target? = some id)
    (hs : ∀ c, (task c).isSweep = false) : (t.find ticket id task).Sane := by
  unfold ConcurrentManager.find
  cases hlookup : t.manager.lookup id with
  | error e => exact ⟨slots, s, h.answer ticket _⟩
  | ok c =>
    obtain ⟨-, hin⟩ := Manager.lookup_ok h.shows hlookup
    refine ⟨slots, s, h.enlist ticket (task c) ?_ (hs c)⟩
    intro x hx
    rw [ht c] at hx
    cases hx
    exact hin

/-- The tasks that an operation on all containers begins with: one for each of them, and the one
that gathers. -/
def scattered (ticket first : Nat) (ids : List String) (part : String → Task) (cleans : Bool) :
    List (Nat × Task) :=
  (List.range' first ids.length).zip (ids.map part) ++
    [(ticket, .gather (List.range' first ids.length) cleans)]

theorem of_mem_scattered {first : Nat} {ids : List String} {part : String → Task} {cleans : Bool}
    {e : Nat × Task} (he : e ∈ scattered ticket first ids part cleans) :
    (∃ id ∈ ids, e.2 = part id) ∨ ∃ parts, e.2 = .gather parts cleans := by
  rcases List.mem_append.mp he with he | he
  · obtain ⟨id, hid, heq⟩ := List.mem_map.mp (List.of_mem_zip he).2
    exact .inl ⟨id, hid, heq.symm⟩
  · rw [List.mem_singleton] at he
    exact .inr ⟨_, congrArg Prod.snd he⟩

theorem mem_scattered (ticket first : Nat) {ids : List String} (part : String → Task)
    (cleans : Bool) {id : String} (hid : id ∈ ids) :
    ∃ k, (k, part id) ∈ scattered ticket first ids part cleans := by
  have hparts : ((List.range' first ids.length).zip (ids.map part)).map Prod.snd = ids.map part :=
    List.map_snd_zip (by simp)
  have hmem : part id ∈ ids.map part := List.mem_map_of_mem hid
  rw [← hparts] at hmem
  obtain ⟨e, he, heq⟩ := List.mem_map.mp hmem
  exact ⟨e.1, List.mem_append_left _ (heq ▸ he)⟩

theorem tasks_scatter (t : ConcurrentManager) (ticket : Nat) (ids : List String)
    (part : String → Task)
    (cleans : Bool) : (t.scatter ticket ids part cleans).tasks =
      t.tasks ++ scattered ticket t.tickets ids part cleans := List.append_assoc ..

theorem restartAll (h : t.Agrees slots s t.tasks) (ticket : Nat) :
    (t.scatter ticket t.manager.slots.ids .restart false).Sane := by
  have hfiled : Filed (slots.holds · = true) (fun id => (s id).isSome = true)
      (fun id => .stopped ∈ t.marksOf id)
      (t.tasks ++ scattered ticket t.tickets t.manager.slots.ids .restart false) := by
    refine h.filed.enlist ?_ ?_
    · intro e he x hx
      rcases of_mem_scattered he with ⟨id, hid, heq⟩ | ⟨parts, heq⟩
      · rw [heq] at hx
        cases hx
        rw [h.shows.slots] at hid
        exact (h.filed.registered _ (Slots.holds_iff.mpr hid)).1
      · rw [heq] at hx
        cases hx
    · intro e he x hx
      rcases of_mem_scattered he with ⟨id, -, heq⟩ | ⟨parts, heq⟩
      · rw [heq] at hx
        cases hx
      · rw [heq] at hx
        cases hx
  refine ⟨slots, s, h.shows, h.recorded, ?_⟩
  rw [tasks_scatter]
  exact hfiled

theorem cleanup (h : t.Agrees slots s t.tasks) (ticket : Nat) :
    ((t.withManager { t.manager with slots := slots.drain.2 }).scatter ticket slots.ids
      .sweep true).Sane := by
  have hfiled : Filed (fun _ => False) (fun id => (s id).isSome = true)
      (fun id => .stopped ∈ t.marksOf id)
      (t.tasks ++ scattered ticket t.tickets slots.ids .sweep true) := by
    refine h.filed.drain ?_ ?_
    · intro e he x hx
      rcases of_mem_scattered he with ⟨id, hid, heq⟩ | ⟨parts, heq⟩
      · rw [heq] at hx
        cases hx
        exact Slots.holds_iff.mpr hid
      · rw [heq] at hx
        cases hx
    · intro x hx
      exact mem_scattered ticket t.tickets .sweep true (Slots.holds_iff.mp hx)
  have hempty (x : String) : slots.drain.2.holds x = true ↔ False := by
    rw [Slots.holds_iff]
    exact Iff.of_eq (by simp [Slots.drain, Table.keys, Table.empty])
  refine ⟨slots.drain.2, s, ⟨rfl, h.shows.pool⟩, h.recorded, ?_⟩
  rw [tasks_scatter]
  exact hfiled.congr hempty (fun _ => .rfl) (fun _ => .rfl) fun _ => .rfl

end Agrees

/-! ## Moves -/

theorem sane_ask (h : t.Sane) (q : Request) : (t.ask q).Sane := by
  obtain ⟨slots, s, h⟩ := h
  have hnext : { t with tickets := t.tickets + 1 }.Agrees slots s
      { t with tickets := t.tickets + 1 }.tasks := ⟨h.shows, h.recorded, h.filed⟩
  cases q with
  | run name config =>
    simp only [ask]
    rcases hnext.shows.beginRun name config with ⟨e, -, hb⟩ | ⟨r, held, hreserve, hb⟩
    · rw [hb]
      exact ⟨slots, s, (hnext.quiet h.shows fun _ => rfl).answer _ _⟩
    · have hholds (x : String) : held.holds x = slots.holds x := Slots.holds_reserve hreserve
      generalize t.manager.beginRun name config = begun at hb ⊢
      obtain ⟨result | ⟨r', name, config, bytes⟩, m⟩ := begun
      · -- the module is at hand or cannot be had, and the run ends before it waits
        have hheld := hnext.quiet (m := { t.manager with slots := held }) ⟨rfl, h.shows.pool⟩ hholds
        obtain ⟨slots', s', hran⟩ := hheld.ran hb t.tickets
        exact ⟨slots', s', hran⟩
      · refine ⟨held, s, (hnext.quiet hb.2 hholds).enlist _ _ ?_ rfl⟩
        intro x hx
        cases hx
  | scale id n =>
    have hb := hnext.shows.beginScale id n
    simp only [ask]
    generalize t.manager.beginScale id n = begun at hb ⊢
    obtain ⟨e | r, m⟩ := begun
    · exact ⟨slots, s, (hnext.quiet hb fun _ => rfl).answer _ _⟩
    · obtain ⟨hin, held, hreserve, hm⟩ := hb
      refine ⟨held, s, (hnext.quiet hm fun _ => Slots.holds_reserve hreserve).enlist _ _ ?_ rfl⟩
      intro x hx
      cases hx
      exact hin
  | stop id => exact hnext.find _ id (fun _ => rfl) fun _ => rfl
  | restart id => exact hnext.find _ id (fun _ => rfl) fun _ => rfl
  | hotReload id => exact hnext.find _ id (fun _ => rfl) fun _ => rfl
  | restartAll => exact hnext.restartAll _
  | cleanup =>
    have hcleanup := hnext.cleanup t.tickets
    rw [← h.shows.slots] at hcleanup
    exact hcleanup

/-- A task goes on. -/
theorem sane_proceed (h : t.Agrees slots s ((ticket, task) :: t.tasks)) :
    (t.proceed ticket task).Sane := by
  cases task with
  | run r name config bytes =>
    have hrest := h.forget rfl
    obtain ⟨slots', s', hran⟩ := hrest.ran (hrest.shows.endRun r name config bytes) ticket
    exact ⟨slots', s', hran⟩
  | scale r id n =>
    have hrest := h.forget rfl
    obtain ⟨ids, hfresh, hend⟩ := hrest.shows.endScale r id n
    obtain ⟨slots', s', hscaled⟩ := hrest.scaled hfresh hend ticket
    refine ⟨slots', s', ?_⟩
    rw [proceed, tasks_scaled]
    exact hscaled
  | stop id =>
    have hin := h.filed.targets _ List.mem_cons_self id rfl
    have hrest := h.forget rfl
    have hstopped := hrest.stop hin (hrest.shows.remove hin) fun _ => Slots.holds_remove
    exact ⟨_, _, hstopped.answer ticket _⟩
  | restart id =>
    have hin := h.filed.targets _ List.mem_cons_self id rfl
    have hrest := h.forget rfl
    have hrested := hrest.enter .rested hin (hrest.shows.beginRestart hin)
      (by decide) (by decide) (by decide)
    refine ⟨_, _, hrested.enlist ticket (.rest id _) ?_ rfl⟩
    intro x hx
    cases hx
    simp [assign]
  | rest id snapshot =>
    have hin := h.filed.targets _ List.mem_cons_self id rfl
    have hrest := h.forget rfl
    have hend := hrest.shows.endRestart hin snapshot
    simp only [proceed]
    generalize t.manager.endRestart id snapshot = ended at hend ⊢
    obtain ⟨e | u, m⟩ := ended
    · have hbroken := hrest.enter .broken hin hend (by decide) (by decide) (by decide)
      exact ⟨_, _, hbroken.answer ticket _⟩
    · have hrevived := hrest.enter .revived hin hend (by decide) (by decide) (by decide)
      exact ⟨_, _, hrevived.answer ticket _⟩
  | fetch id name key =>
    have hin := h.filed.targets _ List.mem_cons_self id rfl
    have hrest := h.forget rfl
    have hfetch := hrest.shows.fetchAndCompile name
    simp only [proceed]
    generalize t.manager.fetchAndCompile name = fetched at hfetch ⊢
    obtain ⟨e | module, m⟩ := fetched
    · exact ⟨slots, s, (hrest.quiet hfetch fun _ => rfl).answer ticket _⟩
    · refine ⟨slots, s, (hrest.quiet hfetch fun _ => rfl).enlist ticket _ ?_ rfl⟩
      intro x hx
      cases hx
      exact hin
  | reload id key module =>
    have hrest := h.forget rfl
    exact ⟨slots, s, (hrest.quiet (hrest.shows.putIn id key module) fun _ => rfl).answer ticket _⟩
  | sweep id =>
    -- the cleanup took the container out of the registry, so that the stop leaves the slots alone
    have hin := h.filed.targets _ List.mem_cons_self id rfl
    have hout := h.filed.swept ticket id List.mem_cons_self
    have hstopped := h.stop hin (h.shows.halt hin) fun x => by
      constructor
      · intro hx
        refine ⟨?_, hx⟩
        rintro rfl
        exact hout hx
      · exact And.right
    have hgone := (marked_mark (t.withManager (t.manager.halt id)) [id]
      .stopped).stopped_iff_of_stopped.mpr (.inr (List.mem_singleton_self id))
    -- only now may the sweep go: until the stop, it stood for the container that is not registered
    have hended : Agrees _ slots (assign s id .stopped) t.tasks :=
      ⟨hstopped.shows, hstopped.recorded, hstopped.filed.forget fun x heq => by
        cases heq
        exact hgone⟩
    exact ⟨_, _, hended.answer ticket _⟩
  | gather parts cleans =>
    have hrest := h.forget rfl
    have hm : Manager.Shows (if cleans then t.manager.endCleanup
        (BulkSummary.ofResults (parts.filterMap t.resultOf?)) else t.manager.endRestartAll
        (BulkSummary.ofResults (parts.filterMap t.resultOf?))) slots s := by
      cases cleans with
      | false => exact hrest.shows.endRestartAll _
      | true => exact hrest.shows.endCleanup _
    exact ⟨slots, s, (hrest.quiet hm fun _ => rfl).answer ticket _⟩

theorem Agrees.at_place (h : t.Agrees slots s t.tasks) {i : Nat} {e : Nat × Task}
    (he : t.tasks[i]? = some e) :
    { t with tasks := t.tasks.eraseIdx i }.Agrees slots s (e :: t.tasks.eraseIdx i) := by
  obtain ⟨hlt, rfl⟩ := List.getElem?_eq_some_iff.mp he
  refine ⟨h.shows, h.recorded, h.filed.congr (fun _ => .rfl) (fun _ => .rfl) (fun _ => .rfl) ?_⟩
  intro e
  exact (List.getElem_cons_eraseIdx_perm hlt).mem_iff

theorem sane_go (h : t.Sane) (i : Nat) : (t.go i).Sane := by
  have hsane := h
  obtain ⟨slots, s, h⟩ := h
  unfold go
  split
  · exact hsane
  · rename_i ticket task he
    split
    · exact sane_proceed (h.at_place he)
    · exact hsane

theorem sane_abandon (h : t.Sane) (i : Nat) : (t.abandon i).Sane := by
  have hsane := h
  obtain ⟨slots, s, h⟩ := h
  unfold abandon
  split
  · exact hsane
  · rename_i r hr
    obtain ⟨⟨ticket, task⟩, he, hreservation⟩ := Option.bind_eq_some_iff.mp hr
    have hsweep : task.isSweep = false := by
      cases task with
      | sweep id => cases hreservation
      | _ => rfl
    have hrest := (h.at_place he).forget hsweep
    have hdropped := hrest.quiet (hrest.shows.drop r) (Slots.holds_drop slots r)
    exact ⟨slots.drop r, s, hdropped.shows, hdropped.recorded, hdropped.filed⟩

/-- What is done with a container besides the operations of its life leaves its id and status. -/
theorem still_interact (c : Container) (now : Nat) (x : Interaction) : c.Still (c.interact now x) :=
  by
  cases x with
  | call function args => exact c.still_beginCall function args now
  | settle function result took => exact c.still_settleCall function result now took
  | update u =>
    exact Container.still_of_aside (Container.aside_of_updated (c.updated_updateState u))
  | subscribe tag fails replies =>
    exact Container.still_of_aside (c.aside_subscribe tag fails replies)
  | unsubscribe id => exact Container.still_of_aside (c.aside_unsubscribe id)
  | query q =>
    exact Container.still_of_aside (Container.aside_of_observed (c.observed_query now q))

/-- Nothing that happens makes the registry and the marks disagree with the containers. -/
theorem sane_move (h : t.Sane) (x : Move) : (t.move x).Sane := by
  have hsane := h
  obtain ⟨slots, s, h⟩ := h
  cases x with
  | ask q => exact sane_ask hsane q
  | go i => exact sane_go hsane i
  | abandon i => exact sane_abandon hsane i
  | interact id x =>
    have hm := h.shows.act_still id ()
      (f := fun c => ((), c.interact t.manager.pool.clock.wall x))
      (fun c => (still_interact c _ x).id) (fun c => (still_interact c _ x).status)
    exact ⟨slots, s, h.quiet hm fun _ => rfl⟩
  | observe event who =>
    exact ⟨slots, s, h.quiet (m := t.manager.observe event who) ⟨h.shows.slots, h.shows.pool⟩
      fun _ => rfl⟩
  | sleep d => exact ⟨slots, s, h.quiet (h.shows.sleep d) fun _ => rfl⟩
  | pass d =>
    exact ⟨slots, s, h.quiet (m := { t.manager with pool := t.manager.pool.pass d })
      ⟨h.shows.slots, Pool.shows_pass h.shows.pool d⟩ fun _ => rfl⟩
  | surround source network outside =>
    have hyard : { t.manager.pool with outside := outside }.Shows s :=
      h.shows.pool.of_same rfl (Nat.le_refl _) (Nat.le_refl _)
    exact ⟨slots, s, h.quiet (m := { t.manager with
      source := source, network := network, pool := { t.manager.pool with outside := outside } })
      ⟨h.shows.slots, hyard⟩ fun _ => rfl⟩

theorem sane_run (h : t.Sane) (xs : List Move) : (t.run xs).Sane :=
  run_induction (P := Sane) (fun _ x h => sane_move h x) h xs

end ConcurrentManager
end ContainerHost
