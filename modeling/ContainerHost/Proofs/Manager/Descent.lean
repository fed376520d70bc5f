import ContainerHost.Proofs.Manager.Removals
/-!
# How containers come to be

A container keeps its id, its name and its sandbox, and with that its configuration, whatever is
done to it (`Container.Handled.lasts`); nothing is ever put in its place, since new ids are not taken
(`lasts_move`). Only three things make containers: a run that ends when it is asked for, a run that
goes on, and scaling. What a move brings is said once for all of them (`Brings`): which tasks are
new, which answers, which containers these answers tell of, and that no other is registered.
-/

namespace ContainerHost

/-! ## What lasts -/

namespace Container

/-- `d` is what became of `c`: its id, its name and its sandbox are the same. -/
structure Lasts (c d : Container) : Prop where
  id : d.id = c.id
  name : d.name = c.name
  sandbox : d.sandbox = c.sandbox

variable {c d e : Container}

theorem Lasts.refl (c : Container) : Lasts c c := ⟨rfl, rfl, rfl⟩

theorem Lasts.trans (h : Lasts c d) (k : Lasts d e) : Lasts c e :=
  ⟨k.id.trans h.id, k.name.trans h.name, k.sandbox.trans h.sandbox⟩

theorem Lasts.config (h : Lasts c d) : d.config = c.config :=
  congrArg Guest.Sandbox.config h.sandbox

theorem SameModule.lasts (h : SameModule c d) : Lasts c d := ⟨h.id, h.name, h.sandbox⟩

theorem lasts_hotReload (c : Container) (m : Guest.Compiled) (digest : Option String)
    (env : Surroundings) : Lasts c (c.hotReload m digest env).2 := by
  have hspec := c.hotReload_made m digest env
  generalize c.hotReload m digest env = reloaded at hspec ⊢
  obtain ⟨e | u, d⟩ := reloaded
  · obtain ⟨-, rfl⟩ := hspec
    exact Lasts.refl _
  · obtain ⟨g, -, hd⟩ := hspec
    exact ⟨hd.id, hd.name, hd.sandbox⟩

theorem Handled.lasts (h : Handled c d) : Lasts c d := by
  cases h with
  | stopped => exact c.sameModule_stop.lasts
  | revived snapshot env => exact (c.sameModule_endRestart snapshot env).lasts
  | reloaded m digest env => exact c.lasts_hotReload m digest env
  | interacted now x => exact (c.sameModule_interact now x).lasts
  | observed h => exact (sameModule_of_observed h).lasts

end Container

namespace Pool

variable {y y' : Pool}

/-- A container that is made without an id takes no other's place. -/
theorem get?_create_of_some (h : y.Sound) {name : String} {box : Guest.Sandbox}
    {module : Guest.Compiled} {digest : Option String} {x : String} {c : Container}
    (hx : y.get? x = some c) : (y.create none name box module digest).2.get? x = some c := by
  simp only [create]
  cases hc : Container.create (generateId name y.stamp.1) name box module digest
      y.stamp.2.surroundings with
  | error e => exact hx
  | ok d =>
    have hfresh : y.statusOf d.id = none := by
      rw [(create_ok hc).1]
      exact statusOf_generateId h.shows name (Nat.le_refl _)
    have hne : d.id ≠ x := by
      rintro rfl
      rw [statusOf, hx] at hfresh
      cases hfresh
    show (y.stamp.2.put d).get? x = some c
    rw [get?_put, if_neg hne]
    exact hx

/-- Whatever one operation does, the containers that are there last, wherever the directories
are. -/
theorem enduresFrom_lasts (h : y.Sound) :
    EnduresFrom y fun y' => y.Tracks Container.Lasts { y' with outside := y.outside } := by
  have hlabelled : y.Labelled := h.named
  have htracks : Keeps Container.Lasts (y.Tracks Container.Lasts) :=
    keeps_tracks (fun _ _ h => h.id)
      (fun _ _ e h k => (h.trans k).trans e.alike_cleared.sameModule.lasts) y
  -- the directories may move, which `Tracks` would count as a change
  refine
    { same := fun hy hc _ => htracks.same hy hc rfl
      put := fun hy hc hd => htracks.put hy hc hd.lasts
      created := ?_
      scaled := ?_
      moved := fun _ => hlabelled.tracks Container.Lasts.refl }
  · intro name box module digest
    have hcreated : (y.create none name box module digest).2.Labelled :=
      hlabelled.create name box module digest
    exact ⟨hcreated.of_same rfl, rfl, fun x c hx => ⟨c, get?_create_of_some h hx, .refl c⟩⟩
  · intro y' id n result hs
    have hscaled : y'.Labelled := hlabelled.scale hs
    refine ⟨hscaled.of_same rfl, rfl, fun x c hx => ⟨c, ?_, .refl c⟩⟩
    obtain ⟨_, -, hkept⟩ := get?_scale h hs x
    rw [hx] at hkept
    exact hkept

end Pool

/-- The container of the id is there, and modules of its name and configuration have the key. -/
def Manager.Keyed (m : Manager) (id key : String) : Prop :=
  ∃ c, m.pool.get? id = some c ∧ ModuleCache.key c.name c.config = key

namespace ConcurrentManager

variable {t : ConcurrentManager}

/-- Whatever happens, a container that is there lasts. -/
theorem lasts_move (h : t.Sane) (x : Move) {id : String} {c : Container}
    (hc : t.manager.pool.get? id = some c) :
    ∃ d, (t.move x).manager.pool.get? id = some d ∧ c.Lasts d := by
  obtain ⟨slots, st, hagrees⟩ := h
  have hsound : t.manager.pool.Sound := hagrees.shows.pool.sound
  have hnow : t.manager.pool.Tracks Container.Lasts t.manager.pool :=
    Pool.Labelled.tracks hsound.named Container.Lasts.refl
  exact ((Pool.enduresFrom_lasts hsound).move hnow x).became id c hc

theorem keyed_move (h : t.Sane) (x : Move) {id key : String} (hkeyed : t.manager.Keyed id key) :
    (t.move x).manager.Keyed id key := by
  obtain ⟨c, hc, rfl⟩ := hkeyed
  obtain ⟨d, hd, hlasts⟩ := lasts_move h x hc
  exact ⟨d, hd, by rw [hlasts.name, hlasts.config]⟩

end ConcurrentManager

/-! ## Runs -/

namespace Manager

variable {m : Manager} {name name' id : String} {c c' : ContainerConfig} {r : Reservation}
  {bytes : Except Error Blob}

/-- A run of a name that begins gets to look its module up: there is a slot, and the name is
valid. -/
def LooksUp (m : Manager) (name : String) : Prop :=
  (∃ p, m.slots.reserve 1 = .ok p) ∧ ValidName name

/-- How a run begins: it does not get to look its module up, or it starts the one that it finds, or
it finds none, and waits for it or fails. -/
inductive BegunAs (m : Manager) (name : String) (c : ContainerConfig) :
    RunProgress × Manager → Prop where
  | refused (e : Failure) (m' : Manager) (hnot : ¬ m.LooksUp name) (hcache : m'.cache = m.cache) :
      BegunAs m name c (.ended (.error e), m')
  | found (r : Reservation) (slots : Slots) (module : CachedModule)
      (started : Except Failure String × Manager) (hlooks : m.LooksUp name)
      (hstarted : started = { m with
        slots := slots
        cache := (m.cache.lookup (ModuleCache.key name c)).2 }.startContainer r name c module) :
      BegunAs m name c (.ended started.1, started.2)
  | waits (r : Reservation) (bytes : Except Error Blob) (m' : Manager) (hlooks : m.LooksUp name)
      (hcache : m'.cache = (m.cache.lookup (ModuleCache.key name c)).2) :
      BegunAs m name c (.waiting r name c bytes, m')
  | fails (e : Failure) (m' : Manager) (hlooks : m.LooksUp name)
      (hcache : m'.cache = (m.cache.lookup (ModuleCache.key name c)).2) :
      BegunAs m name c (.ended (.error e), m')

theorem beginRun_cases (m : Manager) (name : String) (c : ContainerConfig) :
    m.BegunAs name c (m.beginRun name c) := by
  unfold beginRun
  cases hreserve : m.slots.reserve 1 with
  | error e =>
    have hnot : ¬ m.LooksUp name := fun ⟨⟨_, hp⟩, _⟩ => nomatch hreserve.symm.trans hp
    exact .refused e m hnot rfl
  | ok p =>
    obtain ⟨r, slots⟩ := p
    unfold resolve
    dsimp only
    cases hname : validateName name with
    | error reason =>
      have hnot : ¬ m.LooksUp name := fun ⟨_, hvalid⟩ => nomatch hname.symm.trans hvalid
      exact .refused _ _ hnot rfl
    | ok u =>
      have hlooks : m.LooksUp name := ⟨⟨_, hreserve⟩, hname⟩
      dsimp only
      have hfound (module started) := BegunAs.found (c := c) r slots module started hlooks
      have hwaits (bytes m') := BegunAs.waits (c := c) r bytes m' hlooks
      have hfails (e m') := BegunAs.fails (c := c) e m' hlooks
      generalize m.cache.lookup (ModuleCache.key name c) = looked at hfound hwaits hfails ⊢
      obtain ⟨_ | module, cache⟩ := looked
      · simp only [fetch]
        generalize m.source.fetch name m.network = fetched
        obtain ⟨e | bytes, network⟩ := fetched
        · by_cases hremote : m.source.isRemote = true
          · exact Eq.mpr (congrArg (m.BegunAs name c) (if_pos hremote)) (hwaits _ _ rfl)
          · exact Eq.mpr (congrArg (m.BegunAs name c) (if_neg hremote)) (hfails _ _ rfl)
        · exact hwaits _ _ rfl
      · exact hfound module _ rfl

/-- A run looks its module up in the cache under the key of the name and the configuration, if it
gets to that. -/
theorem cache_beginRun (m : Manager) (name : String) (c : ContainerConfig) :
    (m.LooksUp name →
      (m.beginRun name c).2.cache = (m.cache.lookup (ModuleCache.key name c)).2) ∧
    (¬ m.LooksUp name → (m.beginRun name c).2.cache = m.cache) := by
  have hcases := m.beginRun_cases name c
  generalize m.beginRun name c = begun at hcases ⊢
  cases hcases with
  | refused e m' hnot hcache => exact ⟨fun hlooks => absurd hlooks hnot, fun _ => hcache⟩
  | found r slots module started hlooks hstarted =>
    subst hstarted
    exact ⟨fun _ => cache_startContainer .., fun hnot => absurd hlooks hnot⟩
  | waits r bytes m' hlooks hcache => exact ⟨fun _ => hcache, fun hnot => absurd hlooks hnot⟩
  | fails e m' hlooks hcache => exact ⟨fun _ => hcache, fun hnot => absurd hlooks hnot⟩

theorem Keyed.unique {key key' : String} (h : m.Keyed id key) (h' : m.Keyed id key') :
    key = key' := by
  obtain ⟨c, hc, rfl⟩ := h
  obtain ⟨d, hd, rfl⟩ := h'
  obtain rfl := Option.some.inj (hc.symm.trans hd)
  rfl

theorem made_startContainer {module : CachedModule} (h : m.pool.Labelled)
    (hstart : (m.startContainer r name c module).1 = .ok id) :
    (m.startContainer r name c module).2.Keyed id (ModuleCache.key name c) := by
  obtain ⟨d, hd, hname, hsandbox, -, -⟩ := startContainer_ok hstart h
  have hconfig : d.config = c := congrArg Guest.Sandbox.config hsandbox
  exact ⟨d, (holds_of_get? hd).2, by rw [hname, hconfig]⟩

theorem made_beginRun (h : m.pool.Labelled) (hrun : (m.beginRun name c).1 = .ended (.ok id)) :
    m.LooksUp name ∧ (m.beginRun name c).2.Keyed id (ModuleCache.key name c) := by
  have hcases := m.beginRun_cases name c
  generalize m.beginRun name c = begun at hcases hrun ⊢
  cases hcases with
  | refused e m' hnot hcache => cases hrun
  | found r slots module started hlooks hstarted =>
    subst hstarted
    exact ⟨hlooks, made_startContainer (m := { m with slots := slots, cache := _ }) h
      (RunProgress.ended.inj hrun)⟩
  | waits r bytes m' hlooks hcache => cases hrun
  | fails e m' hlooks hcache => cases hrun

theorem of_beginRun_waiting (hrun : (m.beginRun name c).1 = .waiting r name' c' bytes) :
    m.LooksUp name ∧ name' = name ∧ c' = c := by
  have hcases := m.beginRun_cases name c
  generalize m.beginRun name c = begun at hcases hrun
  cases hcases with
  | refused e m' hnot hcache => cases hrun
  | found r slots module started hlooks hstarted => cases hrun
  | waits r' bytes' m' hlooks hcache =>
    cases hrun
    exact ⟨hlooks, rfl, rfl⟩
  | fails e m' hlooks hcache => cases hrun

theorem made_endRun (h : m.pool.Labelled)
    (hrun : (m.endRun (.waiting r name c bytes)).1 = .ok id) :
    (m.endRun (.waiting r name c bytes)).2.Keyed id (ModuleCache.key name c) := by
  simp only [endRun] at hrun ⊢
  cases hmodule : bytes.bind (m.compile name) with
  | error e =>
    rw [hmodule] at hrun
    cases hrun
  | ok module =>
    rw [hmodule] at hrun
    exact made_startContainer (m := m.keep (ModuleCache.key name c) module) h hrun

/-- Scaling begins with a container that is registered. -/
theorem holds_of_beginScale {n : Nat} (hscale : (m.beginScale id n).1 = .ok r) :
    m.slots.holds id = true := by
  unfold beginScale at hscale
  cases hlookup : m.lookup id with
  | error e =>
    rw [hlookup] at hscale
    cases hscale
  | ok c => exact (holds_of_get? (get?_of_lookup hlookup)).1

/-- Scaling that ends well has made containers with the key of the one that it was asked for. -/
theorem made_endScale (h : m.pool.Labelled) {n : Nat} {ids : List String}
    (hscale : (m.endScale r id n).1 = .ok ids) :
    ∃ key, m.Keyed id key ∧ ∀ x ∈ ids, (m.endScale r id n).2.Keyed x key := by
  obtain ⟨c, hc, hmade⟩ := endScale_ok h hscale
  refine ⟨ModuleCache.key c.name c.config, ⟨c, hc, rfl⟩, fun x hx => ?_⟩
  obtain ⟨d, hd, hcopied⟩ := hmade x hx
  have hconfig : d.config = c.config := congrArg Guest.Sandbox.config hcopied.sandbox
  exact ⟨d, (holds_of_get? hd).2, by rw [hcopied.name, hconfig]⟩

theorem cache_putIn (m : Manager) (id key : String) (module : CachedModule) :
    (m.putIn id key module).2.cache = match (m.putIn id key module).1 with
      | .ok () => (m.cache.keep key module).2
      | .error _ => m.cache := by
  have hback := m.moduleSupply_act id (.ok ()) fun c =>
    c.hotReload module.module (some module.digest) m.pool.surroundings
  simp only [putIn]
  generalize m.act id (.ok ()) (fun c =>
    c.hotReload module.module (some module.digest) m.pool.surroundings) = acted at hback ⊢
  have hcache : acted.2.cache = m.cache := congrArg ModuleSupply.cache hback
  obtain ⟨e | u, m'⟩ := acted
  · exact hcache
  · exact congrArg (fun cache : ModuleCache => (cache.keep key module).2) hcache

end Manager

/-! ## What a move brings -/

/-- The containers that an operation says that it has made. -/
def Reply.ids : Reply → List String
  | .ran (.ok id) => [id]
  | .scaled (.ok ids) => ids
  | _ => []

/-- The operation has made containers, as it says. -/
def Reply.makes : Reply → Bool
  | .ran (.ok _) | .scaled (.ok _) => true
  | _ => false

def Task.isPlain : Task → Bool
  | .stop _ | .restart _ | .rest .. | .sweep _ | .gather .. => true
  | _ => false

namespace ConcurrentManager

variable {t t' u : ConcurrentManager} {x : Move}

/-- How a task comes to be there after a move: it was there, or an operation goes on as it. -/
inductive Begins (t : ConcurrentManager) : Move → Nat × Task → Prop where
  | stays {x : Move} {e : Nat × Task} (h : e ∈ t.tasks) : Begins t x e
  | run {name : String} {c : ContainerConfig} (hlooks : t.manager.LooksUp name) (r : Reservation)
      (bytes : Except Error Blob) : Begins t (.ask (.run name c)) (t.tickets, .run r name c bytes)
  | scale {id : String} (hin : t.manager.slots.holds id = true) (r : Reservation) (n : Nat) :
      Begins t (.ask (.scale id n)) (t.tickets, .scale r id n)
  | fetch {x : Move} {id : String} {c : Container} (hc : t.manager.get? id = some c)
      (ticket : Nat) : Begins t x (ticket, .fetch id c.name (ModuleCache.key c.name c.config))
  | reload {x : Move} {ticket : Nat} {id name key : String}
      (h : (ticket, .fetch id name key) ∈ t.tasks) (module : CachedModule) :
      Begins t x (ticket, .reload id key module)
  | plain {x : Move} {e : Nat × Task} (h : e.2.isPlain = true) : Begins t x e

/-- How an answer comes to be there after a move to `t'`: it was there, a run is done where it
begins, a run or scaling is done later, or no containers were made. -/
inductive Gives (t t' : ConcurrentManager) : Move → Nat × Reply → Prop where
  | stays {x : Move} {a : Nat × Reply} (h : a ∈ t.answers) : Gives t t' x a
  | began {name id : String} {c : ContainerConfig} (hlooks : t.manager.LooksUp name)
      (hmade : t'.manager.Keyed id (ModuleCache.key name c)) :
      Gives t t' (.ask (.run name c)) (t.tickets, .ran (.ok id))
  | ran {x : Move} {ticket : Nat} {r : Reservation} {name id : String} {c : ContainerConfig}
      {bytes : Except Error Blob} (htask : (ticket, .run r name c bytes) ∈ t.tasks)
      (hmade : t'.manager.Keyed id (ModuleCache.key name c)) :
      Gives t t' x (ticket, .ran (.ok id))
  | scaled {x : Move} {ticket : Nat} {r : Reservation} {source key : String} {n : Nat}
      {ids : List String} (htask : (ticket, .scale r source n) ∈ t.tasks)
      (hsource : t.manager.Keyed source key) (hmade : ∀ id ∈ ids, t'.manager.Keyed id key) :
      Gives t t' x (ticket, .scaled (.ok ids))
  | none {x : Move} {a : Nat × Reply} (h : a.2.makes = false) : Gives t t' x a

/-- What a move brings: where the tasks and the answers come from, and that no container is
registered but those that were and those that an answer tells of. -/
structure Brings (t : ConcurrentManager) (x : Move) (t' : ConcurrentManager) : Prop where
  tasks : ∀ e ∈ t'.tasks, t.Begins x e
  answers : ∀ a ∈ t'.answers, t.Gives t' x a
  kept : ∀ a ∈ t.answers, a ∈ t'.answers
  registered : ∀ id, t'.manager.slots.holds id = true →
    t.manager.slots.holds id = true ∨ ∃ a ∈ t'.answers, id ∈ a.2.ids

/-- All that there is in `u` was there, and no answer is missing. -/
structure Carries (t u : ConcurrentManager) : Prop where
  tasks : ∀ e ∈ u.tasks, e ∈ t.tasks
  answers : u.answers = t.answers
  holds : ∀ id, u.manager.slots.holds id = true → t.manager.slots.holds id = true

theorem carries_of_same (htasks : ∀ e ∈ u.tasks, e ∈ t.tasks) (hanswers : u.answers = t.answers)
    (hslots : u.manager.slots = t.manager.slots) : t.Carries u :=
  ⟨htasks, hanswers, fun _ hin => hslots ▸ hin⟩

/-- An operation ends, with the containers that it has made, if any. -/
theorem brings_of_answer {ticket : Nat} (htasks : ∀ e ∈ t'.tasks, e ∈ t.tasks) {reply : Reply}
    (hanswers : t'.answers = t.answers ++ [(ticket, reply)])
    (hgives : t.Gives t' x (ticket, reply))
    (hholds : ∀ id, t'.manager.slots.holds id = true →
      t.manager.slots.holds id = true ∨ id ∈ reply.ids) : t.Brings x t' where
  tasks e he := .stays (htasks e he)
  answers a ha := by
    rw [hanswers] at ha
    rcases List.mem_append.mp ha with ha | ha
    · exact .stays ha
    · rw [List.mem_singleton.mp ha]
      exact hgives
  kept _ ha := hanswers ▸ List.mem_append_left _ ha
  registered id hin := (hholds id hin).imp_right fun hid =>
    ⟨(ticket, reply), hanswers ▸ List.mem_append_right _ List.mem_cons_self, hid⟩

namespace Carries

variable {ticket : Nat}

theorem brings (h : t.Carries u) (x : Move) : t.Brings x u where
  tasks e he := .stays (h.tasks e he)
  answers _ ha := .stays (h.answers ▸ ha)
  kept _ ha := h.answers ▸ ha
  registered id hin := .inl (h.holds id hin)

theorem enlist (h : t.Carries u) {task : Task} (hbegins : t.Begins x (ticket, task)) :
    t.Brings x (u.enlist ticket task) where
  tasks e he := by
    rcases List.mem_append.mp he with he | he
    · exact .stays (h.tasks e he)
    · rw [List.mem_singleton.mp he]
      exact hbegins
  answers _ ha := .stays (h.answers ▸ ha)
  kept _ ha := h.answers ▸ ha
  registered id hin := .inl (h.holds id hin)

theorem answer (h : t.Carries u) {reply : Reply} (hnone : reply.makes = false) :
    t.Brings x (u.answer ticket reply) :=
  brings_of_answer h.tasks (congrArg (· ++ _) h.answers) (.none hnone) fun id hin =>
    .inl (h.holds id hin)

theorem find (h : t.Carries u) {id : String} {task : Container → Task}
    (hbegins : ∀ c, u.manager.get? id = some c → t.Begins x (ticket, task c)) :
    t.Brings x (u.find ticket id task) := by
  unfold ConcurrentManager.find
  cases hlookup : u.manager.lookup id with
  | error e => exact h.answer rfl
  | ok c => exact h.enlist (hbegins c (Manager.get?_of_lookup hlookup))

theorem scatter (h : t.Carries u) {ids : List String} {part : String → Task} (cleans : Bool)
    (hpart : ∀ id, (part id).isPlain = true) : t.Brings x (u.scatter ticket ids part cleans) where
  tasks e he := by
    rw [Agrees.tasks_scatter] at he
    rcases List.mem_append.mp he with he | he
    · exact .stays (h.tasks e he)
    · refine .plain ?_
      rcases Agrees.of_mem_scattered he with ⟨id, -, heq⟩ | ⟨parts, heq⟩
      · exact heq ▸ hpart id
      · exact heq ▸ rfl
  answers _ ha := .stays (h.answers ▸ ha)
  kept _ ha := h.answers ▸ ha
  registered id hin := .inl (h.holds id hin)

variable {st : String → Option Status} {slots : Slots} {r : Reservation} {m : Manager}

/-- A run ends. -/
theorem ran (h : t.Carries u)
    (hslots : ∀ id, slots.holds id = true → t.manager.slots.holds id = true)
    {result : Except Failure String} (hran : Manager.Ran slots st r (result, m))
    (hgives : ∀ id, result = .ok id →
      t.Gives (u.ran ticket result m) x (ticket, .ran (.ok id))) :
    t.Brings x (u.ran ticket result m) := by
  cases result with
  | error e =>
    refine brings_of_answer h.tasks (congrArg (· ++ _) h.answers) (.none rfl) fun id hin => .inl ?_
    have hdropped : (slots.drop r).holds id = true := hran.slots ▸ hin
    exact hslots id (Slots.holds_drop slots r id ▸ hdropped)
  | ok made =>
    refine brings_of_answer h.tasks (congrArg (· ++ _) h.answers) (hgives made rfl) fun id hin => ?_
    have hcommitted : (slots.commit r [made]).2.holds id = true := hran.2.slots ▸ hin
    exact (Slots.holds_commit.mp hcommitted).imp_left (hslots id)

/-- Scaling ends. -/
theorem scaled (h : t.Carries u) {n : Nat} {ids : List String}
    {result : Except Failure (List String)}
    (hscaled : Manager.Scaled t.manager.slots st r n ids (result, m))
    (hgives : ∀ ids, result = .ok ids →
      t.Gives (u.scaled ticket result m) x (ticket, .scaled (.ok ids))) :
    t.Brings x (u.scaled ticket result m) := by
  cases result with
  | error e =>
    refine brings_of_answer h.tasks (congrArg (· ++ _) h.answers) (.none rfl) fun id hin => .inl ?_
    have hdropped : (t.manager.slots.drop r).holds id = true := hscaled.slots ▸ hin
    exact Slots.holds_drop t.manager.slots r id ▸ hdropped
  | ok made =>
    obtain ⟨rfl, -, hm⟩ := hscaled
    refine brings_of_answer h.tasks (congrArg (· ++ _) h.answers) (hgives made rfl) fun id hin => ?_
    have hcommitted : (t.manager.slots.commit r made).2.holds id = true := hm.slots ▸ hin
    exact Slots.holds_commit.mp hcommitted

end Carries

theorem brings_ask (h : t.Sane) (q : Request) : t.Brings (.ask q) (t.ask q) := by
  obtain ⟨slots, st, hagrees⟩ := h
  have hshows : t.manager.Shows t.manager.slots st := ⟨rfl, hagrees.shows.pool⟩
  have hnext : t.Carries { t with tickets := t.tickets + 1 } :=
    carries_of_same (fun _ he => he) rfl rfl
  cases q with
  | run name config =>
    have hmade (id : String) (hrun : (t.manager.beginRun name config).1 = .ended (.ok id)) :
        t.manager.LooksUp name ∧
          (t.manager.beginRun name config).2.Keyed id (ModuleCache.key name config) :=
      Manager.made_beginRun hshows.pool.sound.named hrun
    have hwaits (r : Reservation) (name' : String) (config' : ContainerConfig)
        (bytes : Except Error Blob)
        (hrun : (t.manager.beginRun name config).1 = .waiting r name' config' bytes) :
        t.manager.LooksUp name ∧ name' = name ∧ config' = config :=
      Manager.of_beginRun_waiting hrun
    simp only [ask]
    rcases hshows.beginRun name config with ⟨e, -, hb⟩ | ⟨r, held, hreserve, hb⟩
    · rw [hb]
      exact hnext.answer rfl
    · have hheld (id : String) (hin : held.holds id = true) : t.manager.slots.holds id = true :=
        Slots.holds_reserve hreserve ▸ hin
      generalize t.manager.beginRun name config = begun at hb hmade hwaits ⊢
      -- the run is done with the module from the cache, or has to wait for it
      obtain ⟨result | ⟨r', name', config', bytes⟩, m⟩ := begun
      · refine hnext.ran hheld hb fun id hok => ?_
        obtain ⟨hlooks, hkeyed⟩ := hmade id (congrArg RunProgress.ended hok)
        subst hok
        exact .began hlooks hkeyed
      · obtain ⟨rfl, hm⟩ := hb
        obtain ⟨hlooks, rfl, rfl⟩ := hwaits _ _ _ _ rfl
        have hwaiting : t.Carries ({ t with tickets := t.tickets + 1 }.withManager m) :=
          ⟨fun _ he => he, rfl, fun id hin => hheld id (hm.slots ▸ hin)⟩
        exact hwaiting.enlist (.run hlooks ..)
  | scale id n =>
    have hb := hshows.beginScale id n
    have hsource (r : Reservation) (hscale : (t.manager.beginScale id n).1 = .ok r) :
        t.manager.slots.holds id = true := Manager.holds_of_beginScale hscale
    simp only [ask]
    generalize t.manager.beginScale id n = begun at hb hsource ⊢
    obtain ⟨e | r, m⟩ := begun
    · have hrefused : t.Carries ({ t with tickets := t.tickets + 1 }.withManager m) :=
        carries_of_same (fun _ he => he) rfl hb.slots
      exact hrefused.answer rfl
    · obtain ⟨-, held, hreserve, hm⟩ := hb
      have hwaiting : t.Carries ({ t with tickets := t.tickets + 1 }.withManager m) :=
        ⟨fun _ he => he, rfl, fun id hin => Slots.holds_reserve hreserve ▸ (hm.slots ▸ hin)⟩
      exact hwaiting.enlist (.scale (hsource r rfl) ..)
  | stop id => exact hnext.find fun _ _ => .plain rfl
  | restart id => exact hnext.find fun _ _ => .plain rfl
  | hotReload id => exact hnext.find fun _ hc => Begins.fetch (t := t) hc _
  | restartAll => exact hnext.scatter false fun _ => rfl
  | cleanup =>
    have hdrained : t.Carries ({ t with tickets := t.tickets + 1 }.withManager
        { t.manager with slots := t.manager.slots.drain.2 }) :=
      ⟨fun _ he => he, rfl, fun _ hin => absurd hin Bool.false_ne_true⟩
    exact hdrained.scatter true fun _ => rfl

theorem brings_proceed (h : t.Sane) {i ticket : Nat} {task : Task}
    (htask : (ticket, task) ∈ t.tasks) (x : Move) :
    t.Brings x ({ t with tasks := t.tasks.eraseIdx i }.proceed ticket task) := by
  obtain ⟨slots, st, hagrees⟩ := h
  have hshows : t.manager.Shows t.manager.slots st := ⟨rfl, hagrees.shows.pool⟩
  have hlabelled : t.manager.pool.Labelled := hshows.pool.sound.named
  -- most tasks leave the registry alone, and then the others are what they were
  have hrest (m : Manager) (marks : List (String × Mark)) (hslots : m.slots = t.manager.slots) :
      t.Carries { t with tasks := t.tasks.eraseIdx i, manager := m, marks := marks } :=
    carries_of_same (fun _ he => List.mem_of_mem_eraseIdx he) rfl hslots
  cases task with
  | run r name config bytes =>
    refine (hrest t.manager t.marks rfl).ran (fun _ hin => hin) (hshows.endRun r name config bytes)
      fun id hok => ?_
    have hkeyed := Manager.made_endRun hlabelled hok
    exact .ran htask hkeyed
  | scale r source n =>
    obtain ⟨ids, -, hend⟩ := hshows.endScale r source n
    refine (hrest t.manager t.marks rfl).scaled hend fun ids hok => ?_
    obtain ⟨key, hsource, hmade⟩ := Manager.made_endScale hlabelled hok
    refine .scaled htask hsource fun id hid => ?_
    rw [manager_scaled]
    exact hmade id hid
  | stop id =>
    have hslots : (t.manager.remove id).slots = t.manager.slots.remove id :=
      congrArg (Slots.remove · id) (t.manager.slots_act id () fun c => ((), c.stop))
    refine brings_of_answer (fun _ he => List.mem_of_mem_eraseIdx he) rfl (.none rfl)
      fun x hin => .inl ?_
    have hremoved : (t.manager.slots.remove id).holds x = true := hslots ▸ hin
    exact (Slots.holds_remove.mp hremoved).2
  | restart id =>
    have hslots : (t.manager.beginRestart id).2.slots = t.manager.slots :=
      t.manager.slots_act id Table.empty Container.beginRestart
    exact (hrest _ _ hslots).enlist (.plain rfl)
  | rest id snapshot =>
    have hslots : (t.manager.endRestart id snapshot).2.slots = t.manager.slots :=
      (Manager.slots_afterRestart ..).trans (t.manager.slots_act ..)
    exact (hrest _ _ hslots).answer rfl
  | fetch id name key =>
    have hslots := slots_fetchAndCompile t.manager name
    simp only [proceed]
    generalize t.manager.fetchAndCompile name = fetched at hslots ⊢
    obtain ⟨e | module, m⟩ := fetched
    · exact (hrest _ t.marks hslots).answer rfl
    · exact (hrest _ t.marks hslots).enlist (.reload htask module)
  | reload id key module =>
    exact (hrest _ t.marks (slots_putIn t.manager id key module)).answer rfl
  | sweep id =>
    exact (hrest _ _ (t.manager.slots_act id () fun c => ((), c.stop))).answer rfl
  | gather parts cleans =>
    cases cleans with
    | false => exact (hrest (t.manager.endRestartAll _) t.marks rfl).answer rfl
    | true => exact (hrest (t.manager.endCleanup _) t.marks rfl).answer rfl

theorem brings_move (h : t.Sane) (x : Move) : t.Brings x (t.move x) := by
  have hquiet (m : Manager) (hslots : m.slots = t.manager.slots) (x : Move) :
      t.Brings x (t.withManager m) :=
    Carries.brings (t := t) (u := t.withManager m) (carries_of_same (fun _ he => he) rfl hslots) x
  cases x with
  | ask q => exact brings_ask h q
  | go i =>
    cases hgoes : t.goesOn (.go i) with
    | none =>
      rw [move, go_of_goesOn_none hgoes]
      exact (carries_of_same (fun _ he => he) rfl rfl).brings _
    | some e =>
      obtain ⟨htask, -, hgo⟩ := go_of_goesOn hgoes
      rw [move, hgo]
      exact brings_proceed h (List.mem_of_getElem? htask) _
  | abandon i =>
    simp only [move, abandon]
    split
    · exact (carries_of_same (fun _ he => he) rfl rfl).brings _
    · rename_i r _
      have hdropped : t.Carries { t with
          tasks := t.tasks.eraseIdx i, manager := t.manager.drop r } :=
        ⟨fun _ he => List.mem_of_mem_eraseIdx he, rfl,
          fun id hin => Slots.holds_drop t.manager.slots r id ▸ hin⟩
      exact hdropped.brings _
  | interact id y =>
    exact hquiet _ (t.manager.slots_act id () fun c =>
      ((), c.interact t.manager.pool.clock.wall y)) _
  | observe event who => exact hquiet (t.manager.observe event who) rfl _
  | sleep d => exact hquiet _ (t.manager.slots_sleep d) _
  | pass d => exact hquiet { t.manager with pool := t.manager.pool.pass d } rfl _
  | surround source network outside =>
    exact hquiet { t.manager with
      source := source, network := network, pool := { t.manager.pool with outside := outside } } rfl _

end ConcurrentManager
end ContainerHost
