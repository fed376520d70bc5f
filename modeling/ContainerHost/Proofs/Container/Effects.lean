import ContainerHost.Container.Call
import ContainerHost.Container.Lifecycle
/-!
# What container operations change

Each operation on a container, said once and completely. An update changes the state, the replies
that subscribers have left, and the outbox (`Updated`); a look at the memory changes the peak, the
warning and the outbox (`Observed`). What they put into the outbox is under topics of their own, so
that the counts of all other announcements stay (`announced_of_updated`, `announced_of_observed`).
The end of a call changes the counters and the outbox (`settleCall_eq`). Nothing changes the id and
the name (`SameIdentity`).
-/

namespace ContainerHost

def Notice.isOf (t : Topic) : Notice → Bool
  | .event e => e.kind == t.name
  | .delivered .. => false

namespace Container

def announced (c : Container) (t : Topic) : Nat := c.outbox.countP (·.isOf t)

/-! ## Announcements -/

theorem isOf_event {s t : Topic} {id : Option String} {payload : Json.Value} :
    (Notice.event ⟨s.name, id, payload⟩).isOf t = decide (s = t) := by
  unfold Notice.isOf
  by_cases h : s = t
  · simp [h]
  · have hne : s.name ≠ t.name := fun heq => h (Topic.name_injective heq)
    simp [h, hne]

theorem announced_announce (c : Container) (s t : Topic) (p : List (String × Json.Value)) :
    (c.announce s p).announced t = c.announced t + if s = t then 1 else 0 := by
  unfold announced announce
  rw [List.countP_append, List.countP_singleton, isOf_event]
  simp

@[simp] theorem announced_announce_self (c : Container) (t : Topic)
    (p : List (String × Json.Value)) : (c.announce t p).announced t = c.announced t + 1 := by
  rw [announced_announce, if_pos rfl]

theorem announced_announce_of_ne (c : Container) {s t : Topic} (p : List (String × Json.Value))
    (h : s ≠ t) : (c.announce s p).announced t = c.announced t := by
  rw [announced_announce, if_neg h, Nat.add_zero]

/-- Notices that are all under other topics do not count. -/
theorem countP_isOf_eq_zero {news : List Notice} {ts : List Topic} {t : Topic}
    (h : ∀ n ∈ news, ∀ s, n.isOf s = true → s ∈ ts) (ht : t ∉ ts) :
    news.countP (·.isOf t) = 0 := by
  rw [List.countP_eq_zero]
  intro n hn hof
  exact ht (h n hn t hof)

theorem topics_announcement {s : Topic} {id : Option String} {payload : Json.Value} :
    ∀ n ∈ [Notice.event ⟨s.name, id, payload⟩], ∀ t, n.isOf t = true → t ∈ [s] := by
  intro n hn t hof
  rw [List.mem_singleton] at hn
  subst hn
  rw [isOf_event, decide_eq_true_eq] at hof
  simp [hof]

/-! ## Updates of the state -/

/-- `d` is `c` after updates of its state. -/
def Updated (c d : Container) : Prop :=
  ∃ state subscribers news,
    d = { c with state := state, subscribers := subscribers, outbox := c.outbox ++ news } ∧
    ∀ n ∈ news, ∀ t, n.isOf t = true → t ∈ [Topic.stateChange]

namespace Updated

theorem refl (c : Container) : Updated c c := ⟨c.state, c.subscribers, [], by simp, by simp⟩

theorem trans {c d e : Container} (h : Updated c d) (g : Updated d e) : Updated c e := by
  obtain ⟨s, subs, news, rfl, hn⟩ := h
  obtain ⟨s', subs', news', rfl, hn'⟩ := g
  refine ⟨s', subs', news ++ news', by simp, ?_⟩
  intro n hmem
  rcases List.mem_append.mp hmem with hmem | hmem
  · exact hn n hmem
  · exact hn' n hmem

end Updated

theorem updated_merge (c : Container) (u : State) : Updated c (c.merge u) :=
  ⟨_, c.subscribers, _, rfl, topics_announcement⟩

theorem updated_notify (c : Container) (id : Nat) (s : State) : Updated c (c.notify id s) := by
  unfold notify
  split
  · refine ⟨c.state, c.subscribers, _, rfl, ?_⟩
    intro n hn t hof
    rw [List.mem_singleton] at hn
    subst hn
    simp [Notice.isOf] at hof
  · exact Updated.refl c

theorem updated_takeReply (c : Container) (id : Nat) : Updated c (c.takeReply id).2 := by
  unfold takeReply
  split
  · split
    · exact Updated.refl c
    · exact ⟨c.state, _, [], by rw [List.append_nil], by simp⟩
  · exact Updated.refl c

theorem updated_deliver (fuel : Nat) (ds : List (Nat × State)) (c : Container) :
    Updated c (deliver fuel ds c) := by
  induction fuel generalizing ds c with
  | zero => exact Updated.refl c
  | succ fuel ih =>
    cases ds with
    | nil => exact Updated.refl c
    | cons d rest =>
      obtain ⟨id, state⟩ := d
      have hnotify := updated_notify c id state
      have htake := updated_takeReply (c.notify id state) id
      simp only [deliver]
      split
      · rename_i d hd
        rw [hd] at htake
        exact (hnotify.trans htake).trans (ih rest d)
      · rename_i reply d hd
        rw [hd] at htake
        exact ((hnotify.trans htake).trans (updated_merge d reply)).trans (ih _ _)

theorem updated_updateState (c : Container) (u : State) : Updated c (c.updateState u) :=
  (updated_merge c u).trans (updated_deliver _ _ _)

theorem announced_of_updated {c d : Container} (h : Updated c d) {t : Topic}
    (ht : t ≠ .stateChange) : d.announced t = c.announced t := by
  obtain ⟨s, subs, news, rfl, hn⟩ := h
  unfold announced
  rw [List.countP_append, countP_isOf_eq_zero hn (by simpa using ht), Nat.add_zero]

/-! ## Looks at the memory -/

/-- `d` is `c` after looks at its memory and reports of its metrics. -/
def Observed (c d : Container) : Prop :=
  ∃ peak warned ticker news,
    d = { c with
      counters := { c.counters with peak := peak }, memoryWarned := warned, ticker := ticker,
      outbox := c.outbox ++ news } ∧
    ∀ n ∈ news, ∀ t, n.isOf t = true → t ∈ [Topic.memoryWarning, Topic.containerMetrics]

namespace Observed

theorem refl (c : Container) : Observed c c :=
  ⟨c.counters.peak, c.memoryWarned, c.ticker, [], by simp, by simp⟩

theorem trans {c d e : Container} (h : Observed c d) (g : Observed d e) : Observed c e := by
  obtain ⟨p, w, k, news, rfl, hn⟩ := h
  obtain ⟨p', w', k', news', rfl, hn'⟩ := g
  refine ⟨p', w', k', news ++ news', by simp, ?_⟩
  intro n hmem
  rcases List.mem_append.mp hmem with hmem | hmem
  · exact hn n hmem
  · exact hn' n hmem

end Observed

theorem observed_observeMemory (c : Container) : Observed c c.observeMemory.2 := by
  unfold observeMemory
  split
  · exact Observed.refl c
  · dsimp only
    split
    · split
      · exact ⟨_, c.memoryWarned, c.ticker, [], by rw [List.append_nil], by simp⟩
      · refine ⟨_, true, c.ticker, _, rfl, ?_⟩
        intro n hn t hof
        exact List.mem_append_left [Topic.containerMetrics] (topics_announcement n hn t hof)
    · exact ⟨_, false, c.ticker, [], by rw [List.append_nil], by simp⟩

theorem observed_metrics (c : Container) (now : Nat) : Observed c (c.metrics now).2 :=
  observed_observeMemory c

theorem observed_collectMetrics (c : Container) (now : Nat) :
    Observed c (c.collectMetrics now).2 := by
  refine (observed_metrics c now).trans ?_
  refine ⟨_, _, _, _, rfl, ?_⟩
  intro n hn t hof
  exact List.mem_cons_of_mem _ (topics_announcement n hn t hof)

theorem observed_health (c : Container) (now : Nat) : Observed c (c.health now).2 := by
  unfold health
  dsimp only
  split <;> exact observed_observeMemory c

theorem observed_startTicker (c : Container) (timer interval : Nat) :
    Observed c (c.startTicker timer interval) :=
  ⟨c.counters.peak, c.memoryWarned, _, [], by rw [startTicker, List.append_nil], by simp⟩

theorem observed_strike (c : Container) (now : Nat) : Observed c (c.strike now) := by
  unfold strike
  split
  · exact Observed.refl c
  · refine (observed_collectMetrics c now).trans ?_
    exact ⟨_, _, _, [], by rw [List.append_nil], by simp⟩

theorem announced_of_observed {c d : Container} (h : Observed c d) {t : Topic}
    (hw : t ≠ .memoryWarning) (hm : t ≠ .containerMetrics) : d.announced t = c.announced t := by
  obtain ⟨p, w, k, news, rfl, hn⟩ := h
  unfold announced
  rw [List.countP_append, countP_isOf_eq_zero hn (by simp [hw, hm]), Nat.add_zero]

/-! ## Ends of calls -/

/-- The end of a call changes what was counted and what was announced. -/
theorem settleCall_eq (c : Container) (function : String)
    (result : Except Error (List Wasm.Value)) (now : Nat) (took : Duration) :
    ∃ counters outbox, c.settleCall function result now took =
      { c with counters := counters, outbox := outbox } := by
  cases result with
  | error e => exact ⟨_, _, rfl⟩
  | ok vs =>
    unfold settleCall
    dsimp only
    split
    · exact ⟨_, _, rfl⟩
    · exact ⟨_, c.outbox, rfl⟩

/-! ## What nothing changes -/

/-- `d` is what became of `c`: it goes by the same id and the same name. -/
structure SameIdentity (c d : Container) : Prop where
  id : d.id = c.id
  name : d.name = c.name

variable {c d e : Container}

theorem SameIdentity.trans (h : SameIdentity c d) (g : SameIdentity d e) : SameIdentity c e :=
  ⟨g.id.trans h.id, g.name.trans h.name⟩

theorem sameIdentity_of_updated (h : Updated c d) : SameIdentity c d := by
  obtain ⟨_, _, _, rfl, -⟩ := h
  exact ⟨rfl, rfl⟩

theorem sameIdentity_stop (c : Container) : SameIdentity c c.stop := by
  unfold stop
  split <;> exact ⟨rfl, rfl⟩

theorem sameIdentity_start (c : Container) (env : Surroundings) : SameIdentity c (c.start env).2 := by
  unfold start boot
  cases c.sandbox.instantiate env c.module c.id <;> exact ⟨rfl, rfl⟩

theorem sameIdentity_endRestart (c : Container) (snapshot : State) (env : Surroundings) :
    SameIdentity c (c.endRestart snapshot env).2 := by
  have hstarted := sameIdentity_start (c.setStatus .starting) env
  have hstart : SameIdentity c ((c.setStatus .starting).start env).2 := ⟨hstarted.id, hstarted.name⟩
  unfold endRestart revive
  generalize (c.setStatus .starting).start env = started at hstart ⊢
  obtain ⟨e | u, d⟩ := started
  · exact hstart
  · have hupdate := hstart.trans (sameIdentity_of_updated (updated_updateState d snapshot))
    exact ⟨hupdate.id, hupdate.name⟩

theorem sameIdentity_hotReload (c : Container) (m : Guest.Compiled) (digest : Option String)
    (env : Surroundings) : SameIdentity c (c.hotReload m digest env).2 := by
  unfold hotReload
  cases c.reloadedGuest m env with
  | error e => exact ⟨rfl, rfl⟩
  | ok g =>
    have hupdate := sameIdentity_of_updated (updated_updateState (c.swap g m digest) c.state)
    dsimp only [endReload]
    split
    · exact ⟨hupdate.id, hupdate.name⟩
    · exact ⟨rfl, rfl⟩

/-! ## Containers like this one -/

/-- What every container that is made like this one has, and has still when it is stopped, all have
that scaling makes. -/
theorem forall_scale {P : Container → Prop}
    (hreplica : ∀ id env r, c.replica id env = .ok r → P r) (hstop : ∀ d, P d → P d.stop)
    (tries : List (Stamp × Surroundings)) : ∀ r ∈ (c.scale tries).2, P r := by
  suffices hmade : ∀ made, (∀ r ∈ made, P r) → ∀ r ∈ (c.replicas tries made).2, P r from
    hmade [] (by simp)
  induction tries with
  | nil =>
    intro made hmade r hr
    exact hmade r (List.mem_reverse.mp hr)
  | cons t tries ih =>
    obtain ⟨stamp, env⟩ := t
    intro made hmade
    simp only [replicas]
    cases hr : c.replica (generateId c.name stamp) env with
    | error e =>
      intro r hmem
      obtain ⟨d, hd, rfl⟩ := List.mem_map.mp hmem
      exact hstop d (hmade d (List.mem_reverse.mp hd))
    | ok r =>
      refine ih (r :: made) ?_
      intro d hd
      rcases List.mem_cons.mp hd with rfl | hd
      · exact hreplica _ _ _ hr
      · exact hmade d hd

end Container
end ContainerHost
