import ContainerHost.Proofs.Fragments
import ContainerHost.Proofs.Manager.Descent
import ContainerHost.Proofs.Manager.Scaling
/-!
# The keys of modules

The key of a module tells the name and the configuration that it was made with, up to the part of
the CPU time below milliseconds (`key_eq_iff`). A run looks its module up under the key of what it
was asked for, and a reload puts the new module under the key of its container as it finds it. That
these are the same key is a matter of the whole course of operations: each container goes back to
one run, by which it was made or from whose container it was scaled, maybe by way of others
(`LookedUp`). After any moves each container has the key that was looked up there
(`Traced.keyed`), and each registered one goes back to a run.
-/

namespace ContainerHost

/-! ## What a key tells -/

namespace ContainerConfig

variable {c c' : ContainerConfig}

/-- The CPU time in whole milliseconds is a number of sixty-four bits. -/
def Timed (c : ContainerConfig) : Prop := ∀ d ∈ c.maxCpuTime, d.wholeMillis < 1 <<< 64

theorem fragment_eq_iff (h : c.WellFormed) (h' : c'.WellFormed) (hcpu : c.Timed)
    (hcpu' : c'.Timed) : c.fragment = c'.fragment ↔ c.inMillis = c'.inMillis := by
  have hread {d : ContainerConfig} (hd : d.WellFormed) (ht : d.Timed) :
      read? d.fragment = some d.inMillis := by
    rw [read?, fragment, Json.read?_text (legible_toJson hd), Option.bind_some,
      ofDocument?_toJson hd ht]
  constructor
  · intro heq
    refine Option.some.inj ?_
    rw [← hread h hcpu, heq, hread h' hcpu']
  · intro heq
    rw [← fragment_inMillis hcpu, heq, fragment_inMillis hcpu']

end ContainerConfig

/-- Keys tell names and configurations apart. -/
theorem ModuleCache.key_eq_iff {name name' : String} {c c' : ContainerConfig}
    (hname : ValidName name) (hname' : ValidName name') (h : c.WellFormed) (h' : c'.WellFormed)
    (hcpu : c.Timed) (hcpu' : c'.Timed) :
    key name c = key name' c' ↔ name = name' ∧ c.inMillis = c'.inMillis := by
  constructor
  · intro heq
    obtain rfl := name_of_key hname hname' heq
    have hlists : name.toList ++ c.fragment.toList = name.toList ++ c'.fragment.toList := by
      rw [← String.toList_append, ← String.toList_append]
      exact congrArg String.toList heq
    have hfragment : c.fragment = c'.fragment :=
      String.toList_inj.mp (List.append_cancel_left hlists)
    exact ⟨rfl, (ContainerConfig.fragment_eq_iff h h' hcpu hcpu').mp hfragment⟩
  · rintro ⟨rfl, heq⟩
    exact congrArg (name ++ ·) ((ContainerConfig.fragment_eq_iff h h' hcpu hcpu').mpr heq)

namespace ConcurrentManager

variable {t t₀ s s' : ConcurrentManager} {xs : List Move} {x : Move} {q q' : Request}
  {id key key' : String}

theorem run_concat (t : ConcurrentManager) (xs : List Move) (x : Move) :
    t.run (xs ++ [x]) = (t.run xs).move x := List.foldl_concat ..

/-! ## Operations and their tickets -/

/-- In the course of the moves, an operation is asked for, in the state `s`. -/
def Asked (t₀ : ConcurrentManager) (xs : List Move) (s : ConcurrentManager) (q : Request) : Prop :=
  ∃ before after, xs = before ++ .ask q :: after ∧ s = t₀.run before

theorem Asked.concat (h : t₀.Asked xs s q) (x : Move) : t₀.Asked (xs ++ [x]) s q := by
  obtain ⟨before, after, rfl, hs⟩ := h
  exact ⟨before, after ++ [x], by simp, hs⟩

theorem asked_last (t₀ : ConcurrentManager) (xs : List Move) (q : Request) :
    t₀.Asked (xs ++ [.ask q]) (t₀.run xs) q := ⟨xs, [], rfl, rfl⟩

theorem tickets_ask_lt (t : ConcurrentManager) (q : Request) : t.tickets < (t.ask q).tickets := by
  have hnext : t.tickets < t.tickets + 1 := Nat.lt_succ_self _
  have hfind (id : String) (task : Container → Task) :
      t.tickets < ({ t with tickets := t.tickets + 1 }.find t.tickets id task).tickets := by
    unfold find
    split <;> exact hnext
  cases q with
  | run name c =>
    simp only [ask]
    split <;> exact hnext
  | scale id n =>
    simp only [ask]
    split <;> exact hnext
  | stop id => exact hfind ..
  | restart id => exact hfind ..
  | hotReload id => exact hfind ..
  | restartAll => exact hnext.trans_le (Nat.le_add_right ..)
  | cleanup => exact hnext.trans_le (Nat.le_add_right ..)

theorem tickets_proceed (t : ConcurrentManager) (ticket : Nat) (task : Task) :
    (t.proceed ticket task).tickets = t.tickets := by
  cases task with
  | scale r id n => rw [proceed, tickets_scaled]
  | fetch id name key =>
    simp only [proceed]
    split <;> rfl
  | _ => rfl

theorem tickets_move_le (t : ConcurrentManager) (x : Move) : t.tickets ≤ (t.move x).tickets := by
  cases x with
  | ask q => exact (tickets_ask_lt t q).le
  | go i =>
    simp only [move, go]
    split
    · exact Nat.le_refl _
    · rename_i ticket task _
      split
      · exact (tickets_proceed { t with tasks := t.tasks.eraseIdx i } ticket task).ge
      · exact Nat.le_refl _
  | abandon i =>
    simp only [move, abandon]
    split <;> exact Nat.le_refl _
  | _ => exact Nat.le_refl _

theorem tickets_run_le (t : ConcurrentManager) (xs : List Move) : t.tickets ≤ (t.run xs).tickets :=
  run_induction (P := fun u => t.tickets ≤ u.tickets)
    (fun u x h => h.trans (u.tickets_move_le x)) (Nat.le_refl _) xs

theorem Asked.unique (h : t₀.Asked xs s q) (h' : t₀.Asked xs s' q')
    (htickets : s.tickets = s'.tickets) : s = s' ∧ q = q' := by
  have hlater (before between : List Move) (q : Request) :
      (t₀.run before).tickets < (t₀.run (before ++ .ask q :: between)).tickets := by
    have hsplit : t₀.run (before ++ .ask q :: between) =
        ((t₀.run before).ask q).run between := List.foldl_append ..
    rw [hsplit]
    exact (tickets_ask_lt _ q).trans_le (tickets_run_le _ between)
  obtain ⟨before, after, hxs, rfl⟩ := h
  obtain ⟨before', after', hxs', rfl⟩ := h'
  rw [hxs] at hxs'
  -- one of the two comes first, and the other has a later ticket unless it is the same
  rcases List.append_eq_append_iff.mp hxs' with ⟨between, rfl, hrest⟩ | ⟨between, rfl, hrest⟩
  · cases between with
    | nil =>
      rw [List.append_nil]
      cases hrest
      exact ⟨rfl, rfl⟩
    | cons y between =>
      cases hrest
      exact absurd htickets (hlater before between q).ne
  · cases between with
    | nil =>
      rw [List.append_nil]
      cases hrest
      exact ⟨rfl, rfl⟩
    | cons y between =>
      cases hrest
      exact absurd htickets (hlater before' between q').ne'

/-! ## Where containers come from -/

/-- The run that the container goes back to looked its module up under the key: the run that made
the container, or the one that the container goes back to that it was scaled from. -/
inductive LookedUp (t₀ : ConcurrentManager) (xs : List Move) : String → String → Prop where
  | run {s : ConcurrentManager} {name id : String} {c : ContainerConfig}
      (hasked : t₀.Asked xs s (.run name c)) (hlooks : s.manager.LooksUp name)
      (hanswer : (s.tickets, .ran (.ok id)) ∈ (t₀.run xs).answers) :
      LookedUp t₀ xs id (ModuleCache.key name c)
  | scale {s : ConcurrentManager} {source id key : String} {n : Nat} {ids : List String}
      (hasked : t₀.Asked xs s (.scale source n))
      (hanswer : (s.tickets, .scaled (.ok ids)) ∈ (t₀.run xs).answers) (hid : id ∈ ids)
      (hsource : LookedUp t₀ xs source key) : LookedUp t₀ xs id key

/-- The container goes back to a run that looked up the key that the container has. -/
structure Rooted (t₀ : ConcurrentManager) (xs : List Move) (id key : String) : Prop where
  lookedUp : t₀.LookedUp xs id key
  keyed : (t₀.run xs).manager.Keyed id key

def TaskFrom (t₀ : ConcurrentManager) (xs : List Move) : Nat × Task → Prop
  | (ticket, .run _ name c _) => ∃ s, t₀.Asked xs s (.run name c) ∧ s.tickets = ticket ∧
    s.manager.LooksUp name
  | (ticket, .scale _ source n) => ∃ s key, t₀.Asked xs s (.scale source n) ∧
    s.tickets = ticket ∧ t₀.Rooted xs source key
  | (_, .fetch id _ key) | (_, .reload id key _) => t₀.Rooted xs id key
  | _ => True

/-- What an answer that tells of containers has come from. -/
def AnswerFrom (t₀ : ConcurrentManager) (xs : List Move) : Nat × Reply → Prop
  | (ticket, .ran (.ok id)) => ∃ s name c, t₀.Asked xs s (.run name c) ∧ s.tickets = ticket ∧
    s.manager.LooksUp name ∧ (t₀.run xs).manager.Keyed id (ModuleCache.key name c)
  | (ticket, .scaled (.ok ids)) => ∃ s source n key, t₀.Asked xs s (.scale source n) ∧
    s.tickets = ticket ∧ t₀.Rooted xs source key ∧
    ∀ id ∈ ids, (t₀.run xs).manager.Keyed id key
  | _ => True

/-- All tasks, answers and registered containers are traced to where they come from. -/
structure Traced (t₀ : ConcurrentManager) (xs : List Move) : Prop where
  tasks : ∀ e ∈ (t₀.run xs).tasks, t₀.TaskFrom xs e
  answers : ∀ a ∈ (t₀.run xs).answers, t₀.AnswerFrom xs a
  registered : ∀ id, (t₀.run xs).manager.slots.holds id = true → ∃ key, t₀.Rooted xs id key

theorem traced_opened {m : Manager} (hslots : m.slots.registered = .empty) :
    (opened m).Traced [] where
  tasks _ he := nomatch he
  answers _ ha := nomatch ha
  registered id hin := by
    rw [Slots.holds_iff, show ((opened m).run []).manager.slots = m.slots from rfl, hslots] at hin
    cases hin

/-- Whoever an answer tells of goes back to a run. -/
theorem rooted_of_answer {a : Nat × Reply} (h : t₀.AnswerFrom xs a)
    (ha : a ∈ (t₀.run xs).answers) (hid : id ∈ a.2.ids) : ∃ key, t₀.Rooted xs id key := by
  obtain ⟨ticket, reply⟩ := a
  cases reply with
  | ran result =>
    cases result with
    | error e => cases hid
    | ok made =>
      obtain ⟨s, name, c, hasked, rfl, hlooks, hkeyed⟩ := h
      obtain rfl : id = made := List.mem_singleton.mp hid
      exact ⟨_, .run hasked hlooks ha, hkeyed⟩
  | scaled result =>
    cases result with
    | error e => cases hid
    | ok ids =>
      obtain ⟨s, source, n, key, hasked, rfl, hrooted, hkeyed⟩ := h
      exact ⟨key, .scale hasked ha hid hrooted.lookedUp, hkeyed id hid⟩
  | done result => cases hid
  | summed summary => cases hid

namespace Traced

/-- Each container has the key that was looked up by the run that it goes back to. -/
theorem keyed (h : t₀.Traced xs) (hlookedUp : t₀.LookedUp xs id key) :
    (t₀.run xs).manager.Keyed id key := by
  induction hlookedUp with
  | run hasked hlooks hanswer =>
    -- the answer has come from some run; by its ticket it is the one that was asked for
    obtain ⟨s', name', c', hasked', htickets, -, hkeyed⟩ := h.answers _ hanswer
    obtain ⟨-, heq⟩ := hasked.unique hasked' htickets.symm
    obtain ⟨rfl, rfl⟩ := Request.run.inj heq
    exact hkeyed
  | scale hasked hanswer hid hsource ih =>
    obtain ⟨s', source', n', key', hasked', htickets, hrooted, hkeyed⟩ := h.answers _ hanswer
    obtain ⟨-, heq⟩ := hasked.unique hasked' htickets.symm
    obtain ⟨rfl, rfl⟩ := Request.scale.inj heq
    obtain rfl := ih.unique hrooted.keyed
    exact hkeyed _ hid

/-- A container goes back to one key only. -/
theorem lookedUp_iff (h : t₀.Traced xs) (hrooted : t₀.Rooted xs id key) :
    t₀.LookedUp xs id key' ↔ key' = key := by
  constructor
  · intro hlookedUp
    exact (h.keyed hlookedUp).unique hrooted.keyed
  · rintro rfl
    exact hrooted.lookedUp

end Traced

/-! ## The next move -/

section

variable (x) (h : (t₀.run xs).Sane)

include h

theorem LookedUp.concat (hlookedUp : t₀.LookedUp xs id key) : t₀.LookedUp (xs ++ [x]) id key := by
  have hkept := (brings_move h x).kept
  rw [← run_concat] at hkept
  induction hlookedUp with
  | run hasked hlooks hanswer => exact .run (hasked.concat x) hlooks (hkept _ hanswer)
  | scale hasked hanswer hid hsource ih => exact .scale (hasked.concat x) (hkept _ hanswer) hid ih

theorem keyed_concat (hkeyed : (t₀.run xs).manager.Keyed id key) :
    (t₀.run (xs ++ [x])).manager.Keyed id key := by
  rw [run_concat]
  exact keyed_move h x hkeyed

theorem Rooted.concat (hrooted : t₀.Rooted xs id key) : t₀.Rooted (xs ++ [x]) id key :=
  ⟨hrooted.lookedUp.concat x h, keyed_concat x h hrooted.keyed⟩

theorem TaskFrom.concat {e : Nat × Task} (hfrom : t₀.TaskFrom xs e) :
    t₀.TaskFrom (xs ++ [x]) e := by
  obtain ⟨ticket, task⟩ := e
  cases task with
  | run r name c bytes =>
    obtain ⟨s, hasked, htickets, hlooks⟩ := hfrom
    exact ⟨s, hasked.concat x, htickets, hlooks⟩
  | scale r source n =>
    obtain ⟨s, key, hasked, htickets, hrooted⟩ := hfrom
    exact ⟨s, key, hasked.concat x, htickets, hrooted.concat x h⟩
  | fetch id name key => exact Rooted.concat x h hfrom
  | reload id key module => exact Rooted.concat x h hfrom
  | _ => trivial

theorem AnswerFrom.concat {a : Nat × Reply} (hfrom : t₀.AnswerFrom xs a) :
    t₀.AnswerFrom (xs ++ [x]) a := by
  obtain ⟨ticket, reply⟩ := a
  cases reply with
  | ran result =>
    cases result with
    | error e => trivial
    | ok id =>
      obtain ⟨s, name, c, hasked, htickets, hlooks, hkeyed⟩ := hfrom
      exact ⟨s, name, c, hasked.concat x, htickets, hlooks, keyed_concat x h hkeyed⟩
  | scaled result =>
    cases result with
    | error e => trivial
    | ok ids =>
      obtain ⟨s, source, n, key, hasked, htickets, hrooted, hkeyed⟩ := hfrom
      exact ⟨s, source, n, key, hasked.concat x, htickets, hrooted.concat x h,
        fun id hid => keyed_concat x h (hkeyed id hid)⟩
  | done result => trivial
  | summed summary => trivial

theorem taskFrom_of_begins (htraced : t₀.Traced xs) {e : Nat × Task}
    (hbegins : (t₀.run xs).Begins x e) : t₀.TaskFrom (xs ++ [x]) e := by
  cases hbegins with
  | stays he => exact (htraced.tasks e he).concat x h
  | run hlooks r bytes => exact ⟨_, asked_last .., rfl, hlooks⟩
  | scale hin r n =>
    -- the source is registered when scaling is asked for, though maybe not when it goes on
    obtain ⟨key, hrooted⟩ := htraced.registered _ hin
    exact ⟨_, key, asked_last .., rfl, hrooted.concat _ h⟩
  | fetch hc ticket =>
    -- a reload takes its key from the container that it finds
    obtain ⟨hin, hget⟩ := Manager.holds_of_get? hc
    obtain ⟨key, hrooted⟩ := htraced.registered _ hin
    obtain rfl := hrooted.keyed.unique ⟨_, hget, rfl⟩
    exact hrooted.concat x h
  | reload htask module => exact Rooted.concat x h (htraced.tasks _ htask)
  | plain hplain =>
    obtain ⟨ticket, task⟩ := e
    cases task with
    | run | scale | fetch | reload => cases hplain
    | _ => trivial

theorem answerFrom_of_gives (htraced : t₀.Traced xs) {a : Nat × Reply}
    (hgives : (t₀.run xs).Gives (t₀.run (xs ++ [x])) x a) : t₀.AnswerFrom (xs ++ [x]) a := by
  cases hgives with
  | stays ha => exact (htraced.answers a ha).concat x h
  | began hlooks hmade => exact ⟨_, _, _, asked_last .., rfl, hlooks, hmade⟩
  | ran htask hmade =>
    obtain ⟨s, hasked, htickets, hlooks⟩ := htraced.tasks _ htask
    exact ⟨s, _, _, hasked.concat x, htickets, hlooks, hmade⟩
  | scaled htask hsource hmade =>
    -- the container that was copied is the one that was looked at, since ids are not used again
    obtain ⟨s, key, hasked, htickets, hrooted⟩ := htraced.tasks _ htask
    obtain rfl := hrooted.keyed.unique hsource
    exact ⟨s, _, _, _, hasked.concat x, htickets, hrooted.concat x h, hmade⟩
  | none hnone =>
    obtain ⟨ticket, reply⟩ := a
    cases reply with
    | ran result =>
      cases result with
      | error e => trivial
      | ok id => cases hnone
    | scaled result =>
      cases result with
      | error e => trivial
      | ok ids => cases hnone
    | done result => trivial
    | summed summary => trivial

theorem traced_concat (htraced : t₀.Traced xs) : t₀.Traced (xs ++ [x]) := by
  have hbrings := brings_move h x
  rw [← run_concat] at hbrings
  have hanswers : ∀ a ∈ (t₀.run (xs ++ [x])).answers, t₀.AnswerFrom (xs ++ [x]) a :=
    fun a ha => answerFrom_of_gives x h htraced (hbrings.answers a ha)
  refine ⟨fun e he => taskFrom_of_begins x h htraced (hbrings.tasks e he), hanswers, ?_⟩
  intro id hin
  rcases hbrings.registered id hin with hin | ⟨a, ha, hid⟩
  · obtain ⟨key, hrooted⟩ := htraced.registered id hin
    exact ⟨key, hrooted.concat x h⟩
  · exact rooted_of_answer (hanswers a ha) ha hid

end

/-- After any moves all is traced. -/
theorem traced_run (hsane : t₀.Sane) (h : t₀.Traced []) (xs : List Move) : t₀.Traced xs := by
  induction xs using List.reverseRecOn with
  | nil => exact h
  | append_singleton xs x ih => exact traced_concat x (sane_run hsane xs) ih

/-! ## What is refreshed -/

/-- How a move keeps to the keys: a run that gets to it looks its module up under the key of what it
was asked for; a reload offers its module to the cache under the one key that was looked up by the
run that its container goes back to. -/
structure KeepsKeys (t₀ : ConcurrentManager) (before : List Move) (x : Move) : Prop where
  looks : ∀ name c, x = .ask (.run name c) → (t₀.run before).manager.LooksUp name →
    ((t₀.run before).move x).manager.cache =
      ((t₀.run before).manager.cache.lookup (ModuleCache.key name c)).2
  reloads : ∀ ticket id key module,
    (t₀.run before).goesOn x = some (ticket, .reload id key module) →
    (∀ key', t₀.LookedUp before id key' ↔ key' = key) ∧
    ((t₀.run before).move x).manager.cache =
      match ((t₀.run before).manager.putIn id key module).1 with
      | .ok () => ((t₀.run before).manager.cache.keep key module).2
      | .error _ => (t₀.run before).manager.cache

theorem cache_ask_run (t : ConcurrentManager) (name : String) (c : ContainerConfig) :
    (t.ask (.run name c)).manager.cache = (t.manager.beginRun name c).2.cache := by
  simp only [ask]
  generalize t.manager.beginRun name c = begun
  obtain ⟨result | ⟨r, name, c, bytes⟩, m⟩ := begun
  · rfl
  · rfl

theorem Traced.keepsKeys (h : t₀.Traced xs) (x : Move) : t₀.KeepsKeys xs x where
  looks := by
    rintro name c rfl hlooks
    exact (cache_ask_run ..).trans ((Manager.cache_beginRun _ name c).1 hlooks)
  reloads := by
    intro ticket id key module hgoes
    cases x with
    | go i =>
      obtain ⟨htask, -, hgo⟩ := go_of_goesOn hgoes
      have hrooted : t₀.Rooted xs id key := h.tasks _ (List.mem_of_getElem? htask)
      refine ⟨fun key' => h.lookedUp_iff hrooted, ?_⟩
      rw [move, hgo]
      exact Manager.cache_putIn ..
    | _ => cases hgoes

/-- Keys do not collide: those of valid names are the same if and only if the names are the same and
the configurations agree, their CPU times rounded down to milliseconds. And in every course of
operations on a manager a reload refreshes the key that was looked up by the run that made the
container, or the one that it was scaled from; for each registered container there is such a run,
and the key is that of the container's name and configuration. -/
theorem keys_faithful {config : ManagerConfig} {host : Guest.Host} {source : Source}
    {deployer : Deployer} {network : Http.Network} {outside : Outside} {m : Manager}
    (hm : Manager.opened config host source deployer network outside = .ok m) (moves : List Move) :
    (∀ name name' c c', ValidName name → ValidName name' → c.WellFormed → c'.WellFormed →
      c.Timed → c'.Timed →
      (ModuleCache.key name c = ModuleCache.key name' c' ↔
        name = name' ∧ c.inMillis = c'.inMillis)) ∧
    (∀ before x after, moves = before ++ x :: after → (opened m).KeepsKeys before x) ∧
    ∀ id c, ((opened m).run moves).manager.get? id = some c →
      ∀ key, (opened m).LookedUp moves id key ↔ key = ModuleCache.key c.name c.config := by
  have hsane : (opened m).Sane := sane_of_opened rfl (shows_of_opened hm) []
  have hslots : m.slots.registered = .empty := by
    rw [Manager.eq_of_opened hm]
    rfl
  have htraced := traced_run hsane (traced_opened hslots)
  refine ⟨fun _ _ _ _ => ModuleCache.key_eq_iff, fun before x _ _ => (htraced before).keepsKeys x,
    ?_⟩
  intro id c hc key
  obtain ⟨hin, hget⟩ := Manager.holds_of_get? hc
  obtain ⟨key', hrooted⟩ := (htraced moves).registered id hin
  obtain rfl : key' = ModuleCache.key c.name c.config := hrooted.keyed.unique ⟨c, hget, rfl⟩
  exact (htraced moves).lookedUp_iff hrooted

def lasting (nanos : Nat) : ContainerConfig :=
  { ContainerConfig.standard with maxCpuTime := some ⟨nanos⟩ }

/-- The id of the container that is scaled from the first one. -/
def copyId : String := "a-1700000000001-00000001"

/-- A container is run and scaled, and a reload of its copy has fetched the module. -/
def copied : List Move :=
  [.ask (.run "a" .standard), .go 0, .ask (.scale firstId 1), .go 0,
    .ask (.hotReload copyId), .go 0]

def isReload (id key : String) : Option (Nat × Task) → Bool
  | some (_, .reload id' key' _) => id' == id && key' == key
  | _ => false

/-- Half a millisecond more makes no other key, another name does; and the reload of the copy
refreshes the key that the only run looked up. -/
theorem keys_faithful_copied :
    Manager.opened roomy solo.host solo.source solo.deployer .silent (.ofDirs []) = .ok lodge ∧
    ModuleCache.key "a" (lasting 1000000) = ModuleCache.key "a" (lasting 1500000) ∧
    ModuleCache.key "a" (lasting 1000000) ≠ ModuleCache.key "b" (lasting 1000000) ∧
    isReload copyId (ModuleCache.key "a" .standard) (((opened lodge).run copied).goesOn (.go 0)) ∧
    ∀ key, (opened lodge).LookedUp copied copyId key ↔ key = ModuleCache.key "a" .standard := by
  have hopened :
      Manager.opened roomy solo.host solo.source solo.deployer .silent (.ofDirs []) = .ok lodge := rfl
  obtain ⟨hkeys, hkeeps, -⟩ := keys_faithful hopened (copied ++ [.go 0])
  have hwell (nanos : Nat) : (lasting nanos).WellFormed :=
    ⟨(by decide : Limits.maxMemory < 1 <<< 64), Table.ordered_empty⟩
  have htimed (nanos : Nat) (h : nanos / 1000000 < 1 <<< 64) : (lasting nanos).Timed := by
    rintro _ ⟨⟩
    exact h
  have hsame := hkeys "a" "a" _ _ rfl rfl (hwell 1000000) (hwell 1500000)
    (htimed _ (by decide)) (htimed _ (by decide))
  have hother := hkeys "a" "b" _ _ rfl rfl (hwell 1000000) (hwell 1000000)
    (htimed _ (by decide)) (htimed _ (by decide))
  have hgoes : isReload copyId (ModuleCache.key "a" .standard)
      (((opened lodge).run copied).goesOn (.go 0)) := by decide +kernel
  have hdiffers (heq : ModuleCache.key "a" (lasting 1000000) =
      ModuleCache.key "b" (lasting 1000000)) : False :=
    absurd (hother.mp heq).1 (by decide)
  refine ⟨hopened, hsame.mpr ⟨rfl, rfl⟩, hdiffers, hgoes, ?_⟩
  unfold isReload at hgoes
  split at hgoes
  · rename_i ticket id key module hnext
    obtain ⟨hid, hkey⟩ := Bool.and_eq_true_iff.mp hgoes
    obtain rfl := beq_iff_eq.mp hid
    obtain rfl := beq_iff_eq.mp hkey
    exact ((hkeeps copied (.go 0) [] rfl).reloads _ _ _ _ hnext).1
  · cases hgoes

end ConcurrentManager
end ContainerHost
