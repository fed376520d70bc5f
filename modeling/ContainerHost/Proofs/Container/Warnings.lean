import ContainerHost.Proofs.Container.Origin
import ContainerHost.Proofs.Guest.Shared
/-!
# Looks at the memory over the life of a container

Calls that begin, reports and checks of the health look at the memory of the guest. A look is a
`Sighting`: which guest it found, counted in the order in which they were put in, and how large it
was. The largest size is the peak, and the first look at each guest that finds it near its limit is
announced (`alarms`). The container itself has only a mark that it has warned; that the mark stands
for the looks at the guest which is there follows from the growth of guests, since no guest becomes
smaller again (`Vigilant`).

A look may come while calls are inside the guest. It finds the size then that was noted before, so
that a call shows nothing of what it does until it comes out: `Occurrence` adds calls that begin and
calls that come out to the actions of a session, in which both are one.

What is proved: `warned_once`.
-/

namespace ContainerHost

/-- A look at the memory: the number of the guest that was put in last, and how large it was. -/
structure Sighting where
  guest : Nat
  used : Nat
  deriving DecidableEq, Repr

def peakOf (seen : List Sighting) : Nat := (seen.map (·.used)).foldl max 0

def alarms (limit : Nat) : List Sighting → List Sighting
  | [] => []
  | x :: seen =>
    if Container.nearLimit x.used limit then x :: (alarms limit seen).filter (·.guest != x.guest)
    else alarms limit seen

def alarmed (limit : Nat) (seen : List Sighting) (n : Nat) : Bool :=
  seen.any fun x => x.guest == n && Container.nearLimit x.used limit

section

variable {limit : Nat} {seen : List Sighting} {x : Sighting}

theorem peakOf_append (seen : List Sighting) (x : Sighting) :
    peakOf (seen ++ [x]) = max (peakOf seen) x.used := by
  simp [peakOf]

theorem peakOf_le_append (seen more : List Sighting) : peakOf seen ≤ peakOf (seen ++ more) := by
  induction more generalizing seen with
  | nil => simp
  | cons x more ih =>
    have hrest := ih (seen ++ [x])
    rw [peakOf_append, List.append_assoc] at hrest
    exact Nat.le_trans (Nat.le_max_left _ _) hrest

/-- Of each guest, the alarms are the first look that found it near the limit, if there is one. -/
theorem alarms_of_guest (limit n : Nat) (seen : List Sighting) :
    (alarms limit seen).filter (·.guest == n) =
      ((seen.filter (·.guest == n)).find? (Container.nearLimit ·.used limit)).toList := by
  induction seen with
  | nil => rfl
  | cons x seen ih =>
    by_cases hnear : Container.nearLimit x.used limit = true
    · rw [alarms, if_pos hnear]
      by_cases hn : x.guest = n
      · -- the other alarms are of other guests
        have hothers : (alarms limit seen).filter
            (fun y => y.guest == n && y.guest != x.guest) = [] := by
          rw [List.filter_eq_nil_iff, hn]
          intro y _
          simp
        rw [List.filter_cons_of_pos (by simpa using hn), List.filter_filter, hothers,
          List.filter_cons_of_pos (by simpa using hn), List.find?_cons, hnear]
        rfl
      · have hsame : (alarms limit seen).filter (fun y => y.guest == n && y.guest != x.guest) =
            (alarms limit seen).filter (·.guest == n) := by
          apply List.filter_congr
          intro y _
          by_cases hy : y.guest = n
          · simp [hy, Ne.symm hn]
          · simp [hy]
        rw [List.filter_cons_of_neg (by simpa using hn), List.filter_filter, hsame, ih,
          List.filter_cons_of_neg (by simpa using hn)]
    · rw [alarms, if_neg hnear, ih]
      by_cases hn : x.guest = n
      · rw [List.filter_cons_of_pos (by simpa using hn),
          List.find?_cons_of_neg (by simpa using hnear)]
      · rw [List.filter_cons_of_neg (by simpa using hn)]

@[simp] theorem alarmed_append (limit n : Nat) (seen : List Sighting) (x : Sighting) :
    alarmed limit (seen ++ [x]) n =
      (alarmed limit seen n || (x.guest == n && Container.nearLimit x.used limit)) := by
  simp [alarmed]

/-- One more look is an alarm if it is the first one that finds its guest near the limit. -/
theorem alarms_append (limit : Nat) (seen : List Sighting) (x : Sighting) :
    alarms limit (seen ++ [x]) =
      alarms limit seen ++
        if Container.nearLimit x.used limit && !alarmed limit seen x.guest then [x] else [] := by
  induction seen with
  | nil => simp [alarms, alarmed]
  | cons y seen ih =>
    have hcons : alarmed limit (y :: seen) x.guest =
        (y.guest == x.guest && Container.nearLimit y.used limit || alarmed limit seen x.guest) :=
      rfl
    rw [List.cons_append, alarms, alarms, ih, hcons]
    by_cases hnear : Container.nearLimit y.used limit = true
    · rw [if_pos hnear, if_pos hnear, List.filter_append, List.cons_append]
      congr 2
      by_cases hy : y.guest = x.guest
      · -- its guest has had an alarm
        simp only [hy, hnear, beq_self_eq_true, Bool.and_true, Bool.true_or, Bool.not_true,
          Bool.and_false]
        split <;> simp
      · have hne : (x.guest != y.guest) = true := by simpa using Ne.symm hy
        simp only [beq_eq_false_iff_ne.mpr hy, Bool.false_and, Bool.false_or]
        split <;> simp [hne]
    · rw [if_neg hnear, if_neg hnear, Bool.eq_false_iff.mpr hnear, Bool.and_false, Bool.false_or]

end

namespace Container

open Guest (Instance)
open Guest.Shared (opened)

variable {c d e : Container} {x : Sighting} {seen : List Sighting} {label : String}
  {box : Guest.Sandbox}

/-- What a look at the memory finds now. -/
def sighting? (c : Container) : Option Sighting := c.guest.map fun g => ⟨c.installs, g.memorySize⟩

def warnings (c : Container) : List Notice := c.outbox.filter (·.isOf .memoryWarning)

/-- The warning that a look leads to. -/
def warning (id : String) (limit : Nat) (x : Sighting) : Notice :=
  .event ⟨Topic.memoryWarning.name, some id,
    .obj [("containerId", .str id), ("used", .nat x.used), ("limit", .nat limit),
      ("ratio", floatJson (Limits.memoryWarningPercent.toFloat / 100.0))]⟩

/-! ## What is no look -/

/-- `d` is `c` after something that is no look at the memory. -/
structure Unseen (c d : Container) : Prop where
  id : d.id = c.id
  sandbox : d.sandbox = c.sandbox
  peak : d.counters.peak = c.counters.peak
  warnings : d.warnings = c.warnings

/-- The guest is the same, and the mark stands for it still. -/
structure Steady (c d : Container) : Prop extends Unseen c d where
  guest : d.guest = c.guest
  installs : d.installs = c.installs
  mark : d.memoryWarned = c.memoryWarned

/-- The guest is gone. -/
structure Emptied (c d : Container) : Prop extends Unseen c d where
  guest : d.guest = none
  installs : d.installs = c.installs

/-- Another guest was put in. -/
structure Renewed (c d : Container) : Prop extends Unseen c d where
  guest : ∀ g, d.guest = some g → ∃ bound, (opened g).Sound bound
  installs : d.installs = c.installs + 1
  mark : d.memoryWarned = false

theorem Unseen.trans (h : Unseen c d) (k : Unseen d e) : Unseen c e :=
  ⟨k.id.trans h.id, k.sandbox.trans h.sandbox, k.peak.trans h.peak, k.warnings.trans h.warnings⟩

theorem Steady.refl (c : Container) : Steady c c := ⟨⟨rfl, rfl, rfl, rfl⟩, rfl, rfl, rfl⟩

theorem Steady.trans (h : Steady c d) (k : Steady d e) : Steady c e :=
  ⟨h.toUnseen.trans k.toUnseen, k.guest.trans h.guest, k.installs.trans h.installs,
    k.mark.trans h.mark⟩

theorem Renewed.steady (h : Renewed c d) (k : Steady d e) : Renewed c e := by
  refine ⟨h.toUnseen.trans k.toUnseen, ?_, k.installs.trans h.installs, k.mark.trans h.mark⟩
  intro g hg
  exact h.guest g (k.guest ▸ hg)

/-- What is announced under other topics is no warning. -/
theorem filter_warnings_eq_nil {news : List Notice} {ts : List Topic}
    (h : ∀ n ∈ news, ∀ t, n.isOf t = true → t ∈ ts) (ht : .memoryWarning ∉ ts) :
    news.filter (·.isOf .memoryWarning) = [] := by
  rw [List.filter_eq_nil_iff]
  intro n hn hof
  exact ht (h n hn _ hof)

theorem steady_announce (c : Container) {t : Topic} (p : List (String × Json.Value))
    (ht : t ≠ .memoryWarning) : Steady c (c.announce t p) := by
  refine ⟨⟨rfl, rfl, rfl, ?_⟩, rfl, rfl, rfl⟩
  unfold warnings announce
  rw [List.filter_append, filter_warnings_eq_nil topics_announcement (by simpa using ht.symm),
    List.append_nil]

theorem steady_of_updated (h : Updated c d) : Steady c d := by
  obtain ⟨_, _, news, rfl, hnews⟩ := h
  refine ⟨⟨rfl, rfl, rfl, ?_⟩, rfl, rfl, rfl⟩
  unfold warnings
  rw [List.filter_append, filter_warnings_eq_nil hnews (by decide), List.append_nil]

theorem steady_setStatus (c : Container) (s : Status) : Steady c (c.setStatus s) :=
  ⟨⟨rfl, rfl, rfl, rfl⟩, rfl, rfl, rfl⟩

theorem steady_settleCall (c : Container) (function : String)
    (result : Except Error (List Wasm.Value)) (now : Nat) (took : Duration) :
    Steady c (c.settleCall function result now took) := by
  have hcount (k : Counters) (hk : k.peak = c.counters.peak) : Steady c { c with counters := k } :=
    ⟨⟨rfl, rfl, hk, rfl⟩, rfl, rfl, rfl⟩
  cases result with
  | error e =>
    have herror := hcount { c.counters with errors := c.counters.errors + 1 } rfl
    exact herror.trans (steady_announce _ _ (by decide))
  | ok vs =>
    have hreturned := hcount
      { c.counters with calls := c.counters.calls + 1, lastCall := some (now, took) } rfl
    unfold settleCall
    dsimp only
    split
    · exact hreturned.trans (steady_announce _ _ (by decide))
    · exact hreturned

theorem emptied_stop (h : c.status ≠ .stopped) : Emptied c c.stop := by
  unfold stop
  rw [if_neg h]
  have hwarnings := (steady_announce
    { c.setStatus .stopping with subscribers := [], ticker := none, guest := none }
    (t := .containerStop) [] (by decide)).warnings
  exact ⟨⟨rfl, rfl, rfl, hwarnings⟩, rfl, rfl⟩

theorem start_watched (c : Container) (env : Surroundings) :
    match c.start env with
    | (.error _, d) => Steady c d
    | (.ok (), d) => Renewed c d := by
  unfold start boot
  cases hguest : c.sandbox.instantiate env c.module c.id with
  | error e => exact c.steady_setStatus .error
  | ok g =>
    refine ⟨⟨rfl, rfl, rfl, rfl⟩, ?_, rfl, rfl⟩
    rintro g' ⟨⟩
    exact ⟨_, Guest.Shared.sound_opened hguest⟩

theorem revive_watched (c : Container) (snapshot : State) (env : Surroundings) :
    match c.revive snapshot env with
    | (.error _, d) => Steady c d
    | (.ok (), d) => Renewed c d := by
  have hstart := c.start_watched env
  unfold revive
  generalize c.start env = started at hstart ⊢
  obtain ⟨e | u, d⟩ := started
  · exact hstart
  · have hput := steady_of_updated (updated_updateState d snapshot)
    exact hstart.steady (hput.trans (steady_announce _ _ (by decide)))

theorem renewed_swap {m : Guest.Compiled} {env : Surroundings} {g : Instance}
    (h : c.reloadedGuest m env = .ok g) (digest : Option String) :
    Renewed c (c.swap g m digest) := by
  refine ⟨⟨rfl, rfl, rfl, rfl⟩, ?_, rfl, rfl⟩
  rintro g' ⟨⟩
  unfold reloadedGuest at h
  cases hguest : c.sandbox.instantiate env m c.id with
  | error e =>
    rw [hguest] at h
    cases h
  | ok g₀ =>
    rw [hguest] at h
    cases h
    exact ⟨_, Guest.Shared.sound_opened hguest⟩

theorem steady_endReload (c : Container) (r : Reload) : Steady c (c.endReload r) := by
  have hput := (steady_of_updated (updated_updateState c r.snapshot)).trans
    (steady_setStatus _ .running)
  unfold endReload
  dsimp only
  split
  · exact hput.trans (steady_announce _ _ (by decide))
  · exact steady_announce _ _ (by decide)

/-! ## Looks -/

/-- `d` is `c` after a look at its memory. -/
structure Looked (x : Sighting) (c d : Container) : Prop where
  id : d.id = c.id
  sandbox : d.sandbox = c.sandbox
  guest : d.guest = c.guest
  installs : d.installs = c.installs
  peak : d.counters.peak = max c.counters.peak x.used
  mark : d.memoryWarned = nearLimit x.used c.config.maxMemory
  warnings : d.warnings = c.warnings ++
    if nearLimit x.used c.config.maxMemory && !c.memoryWarned then
      [warning c.id c.config.maxMemory x]
    else []

theorem looked_observeMemory (h : c.sighting? = some x) : Looked x c c.observeMemory.2 := by
  obtain ⟨g, hg, rfl⟩ := Option.map_eq_some_iff.mp h
  unfold observeMemory
  rw [hg]
  dsimp only
  by_cases hnear : nearLimit g.memorySize c.config.maxMemory = true
  · rw [if_pos hnear]
    by_cases hmark : c.memoryWarned = true
    · rw [if_pos hmark]
      refine ⟨rfl, rfl, hg.symm, rfl, rfl, hmark.trans hnear.symm, ?_⟩
      simp [hnear, hmark, warnings]
    · rw [if_neg hmark]
      refine ⟨rfl, rfl, hg.symm, rfl, rfl, hnear.symm, ?_⟩
      simp [hnear, hmark, warnings, announce, warning, Notice.isOf]
  · rw [if_neg hnear]
    refine ⟨rfl, rfl, hg.symm, rfl, rfl, (Bool.eq_false_iff.mpr hnear).symm, ?_⟩
    simp [hnear, warnings]

theorem observeMemory_of_sighting (h : c.sighting? = none) : c.observeMemory.2 = c := by
  have hg : c.guest = none := Option.map_eq_none_iff.mp h
  unfold observeMemory
  rw [hg]

/-- A call that begins looks at the memory unless its time is over. -/
theorem accept_snd (c : Container) (function : String) (now : Nat) :
    (c.accept function now).2 =
      if (c.outOfTime now).isNone then c.observeMemory.2 else c := by
  unfold accept
  cases c.outOfTime now with
  | some e => rfl
  | none =>
    rw [Option.isNone_none, if_pos rfl]
    generalize c.observeMemory = looked
    obtain ⟨_ | usage, d⟩ := looked
    · rfl
    · dsimp only
      repeat' split
      all_goals rfl

/-! ## The invariant -/

/-- The container shows what the looks at it have found: the peak, a warning for each alarm, and a
mark that stands for the guest which is there. No look has found that guest larger than it is. -/
structure Vigilant (label : String) (box : Guest.Sandbox) (seen : List Sighting) (c : Container) :
    Prop where
  id : c.id = label
  sandbox : c.sandbox = box
  peak : c.counters.peak = peakOf seen
  warnings : c.warnings =
    (alarms box.config.maxMemory seen).map (warning label box.config.maxMemory)
  put : ∀ x ∈ seen, x.guest ≤ c.installs
  mark : c.guest.isSome → c.memoryWarned = alarmed box.config.maxMemory seen c.installs
  grown : ∀ g, c.guest = some g → ∀ x ∈ seen, x.guest = c.installs → x.used ≤ g.memorySize
  sound : ∀ g, c.guest = some g → ∃ bound, (opened g).Sound bound

theorem Vigilant.steady (h : Vigilant label box seen c) (k : Steady c d) :
    Vigilant label box seen d := by
  refine ⟨k.id.trans h.id, k.sandbox.trans h.sandbox, k.peak.trans h.peak,
    k.warnings.trans h.warnings, ?_, ?_, ?_, ?_⟩
  · rw [k.installs]
    exact h.put
  · rw [k.guest, k.mark, k.installs]
    exact h.mark
  · rw [k.guest, k.installs]
    exact h.grown
  · rw [k.guest]
    exact h.sound

theorem Vigilant.emptied (h : Vigilant label box seen c) (k : Emptied c d) :
    Vigilant label box seen d := by
  refine ⟨k.id.trans h.id, k.sandbox.trans h.sandbox, k.peak.trans h.peak,
    k.warnings.trans h.warnings, ?_, ?_, ?_, ?_⟩
  · rw [k.installs]
    exact h.put
  · rw [k.guest]
    exact fun hsome => nomatch hsome
  · rw [k.guest]
    exact fun g hg => nomatch hg
  · rw [k.guest]
    exact fun g hg => nomatch hg

/-- Nobody has looked at a guest that was just put in. -/
theorem Vigilant.renewed (h : Vigilant label box seen c) (k : Renewed c d) :
    Vigilant label box seen d := by
  have hold : ∀ x ∈ seen, x.guest ≠ d.installs := by
    intro x hx
    have hle := h.put x hx
    have hput := k.installs
    omega
  refine ⟨k.id.trans h.id, k.sandbox.trans h.sandbox, k.peak.trans h.peak,
    k.warnings.trans h.warnings, ?_, ?_, ?_, k.guest⟩
  · intro x hx
    have hle := h.put x hx
    have hput := k.installs
    omega
  · intro _
    rw [k.mark]
    apply Eq.symm
    rw [alarmed, List.any_eq_false]
    intro x hx
    simp [hold x hx]
  · intro g _ x hx hguest
    exact absurd hguest (hold x hx)

/-- A guest that has taken calls has not become smaller. -/
theorem Vigilant.later (h : Vigilant label box seen c) {g g' : Instance} (hg : c.guest = some g)
    (hlater : g.Later g') : Vigilant label box seen { c with guest := some g' } := by
  obtain ⟨bound, hsound⟩ := h.sound g hg
  have honward := Guest.Shared.onward_later hsound.limit hlater
  have hsize : g.memorySize ≤ g'.memorySize := hsound.size_le honward
  refine ⟨h.id, h.sandbox, h.peak, h.warnings, h.put, ?_, ?_, ?_⟩
  · intro _
    exact h.mark (Option.isSome_iff_exists.mpr ⟨g, hg⟩)
  · rintro _ ⟨⟩ x hx hguest
    exact Nat.le_trans (h.grown g hg x hx hguest) hsize
  · rintro _ ⟨⟩
    exact ⟨bound, hsound.onward honward⟩

theorem nearLimit_mono {m n limit : Nat} (h : m ≤ n) (hm : nearLimit m limit = true) :
    nearLimit n limit = true := by
  unfold nearLimit at hm ⊢
  rw [decide_eq_true_eq] at hm ⊢
  omega

theorem Vigilant.looked (h : Vigilant label box seen c) (hx : c.sighting? = some x)
    (k : Looked x c d) : Vigilant label box (seen ++ [x]) d := by
  obtain ⟨g, hg, rfl⟩ := Option.map_eq_some_iff.mp hx
  have hmark := h.mark (Option.isSome_iff_exists.mpr ⟨g, hg⟩)
  have hlimit : c.config.maxMemory = box.config.maxMemory :=
    congrArg (·.config.maxMemory) h.sandbox
  refine ⟨k.id.trans h.id, k.sandbox.trans h.sandbox, ?_, ?_, ?_, ?_, ?_, ?_⟩
  · rw [k.peak, h.peak, peakOf_append]
  · rw [k.warnings, h.warnings, h.id, hlimit, hmark, alarms_append, List.map_append]
    congr 1
    split <;> rfl
  · rw [k.installs]
    intro y hy
    rcases List.mem_append.mp hy with hy | hy
    · exact h.put y hy
    · obtain rfl := List.mem_singleton.mp hy
      exact Nat.le_refl _
  · -- the mark goes out only if the guest is not near its limit, and then it never was
    intro _
    rw [k.mark, k.installs, hlimit, alarmed_append]
    cases halarmed : alarmed box.config.maxMemory seen c.installs with
    | false => simp
    | true =>
      obtain ⟨y, hy, hnear⟩ := List.any_eq_true.mp halarmed
      rw [Bool.and_eq_true, beq_iff_eq] at hnear
      rw [Bool.true_or]
      exact nearLimit_mono (h.grown g hg y hy hnear.1) hnear.2
  · rw [k.guest, k.installs]
    intro g' hg' y hy hguest
    obtain rfl : g = g' := Option.some.inj (hg.symm.trans hg')
    rcases List.mem_append.mp hy with hy | hy
    · exact h.grown g hg y hy hguest
    · obtain rfl := List.mem_singleton.mp hy
      exact Nat.le_refl _
  · rw [k.guest]
    exact h.sound

theorem Vigilant.observe (h : Vigilant label box seen c) :
    Vigilant label box (seen ++ c.sighting?.toList) c.observeMemory.2 := by
  cases hx : c.sighting? with
  | none =>
    rw [observeMemory_of_sighting hx, Option.toList_none, List.append_nil]
    exact h
  | some x => exact h.looked hx (looked_observeMemory hx)

end Container

/-- Something that happens to a container: an action, or one of the two halves of a call whose guest
shows nothing of the call until it comes out. -/
inductive Occurrence where
  | act (a : Action)
  | enter (function : String) (args : List Wasm.Value) (now : Nat)
  | leave (function : String) (args : List Wasm.Value) (watch : Guest.Watch)

namespace Session

open Container

variable {s : Session} {label : String} {box : Guest.Sandbox} {seen : List Sighting}

def withGuest (s : Session) (guest : Option Guest.Instance) : Session :=
  { s with container := { s.container with guest := guest } }

/-- The next thing happens. -/
def occur (s : Session) : Occurrence → Session
  | .act a => s.act a
  | .enter function args now =>
    (s.act (.call function args now)).withGuest s.container.guest
  | .leave function args watch =>
    s.withGuest (s.container.guest.map fun g => (g.call function args watch).2)

/-- Things happen one after the other. -/
def go (s : Session) (hs : List Occurrence) : Session := hs.foldl occur s

theorem container_call (s : Session) (function : String) (args : List Wasm.Value) (now : Nat) :
    (s.act (.call function args now)).container =
      (s.container.beginCall function args now).2 := by
  simp only [act, call]
  generalize s.container.beginCall function args now = begun
  obtain ⟨_ | _, d⟩ := begun <;> rfl

/-- A call that goes into the guest is its two halves. -/
theorem go_halves {function : String} {now : Nat} {g : Guest.Instance}
    (hrun : s.container.status = .running) (h : (s.container.accept function now).1 = .ok g)
    (args : List Wasm.Value) :
    s.go [.enter function args now, .leave function args (s.container.watch g)] =
      s.act (.call function args now) := by
  have hg : s.container.guest = some g := guest_of_accept h
  have hguest : (s.act (.call function args now)).container.guest =
      some (g.call function args (s.container.watch g)).2 := by
    rw [container_call]
    unfold beginCall
    rw [if_neg (not_not_intro hrun)]
    obtain ⟨_, _, _, _, hd, -⟩ := s.container.observed_accept function now
    cases ha : s.container.accept function now with
    | mk result d =>
      rw [ha] at h hd
      cases h
      have hwatch : d.watch g = s.container.watch g := by rw [show d = _ from hd]; rfl
      show some (d.enterGuest g function args).2.1 = _
      unfold enterGuest
      rw [hwatch]
      dsimp only
      split <;> rfl
  show ((s.act (.call function args now)).withGuest s.container.guest).withGuest
    (s.container.guest.map fun g' => (g'.call function args (s.container.watch g)).2) = _
  rw [hg, Option.map_some, ← hguest]
  rfl

/-- A query looks at the memory; a ticker only does when it strikes. -/
def asks (c : Container) : Query → Bool
  | .memory | .metrics | .collect | .health => true
  | .strike => c.ticker.isSome
  | .startTicker .. => false

/-- Whether it comes to a look at the memory: a query does that asks for it, and a call does that
begins when the container runs and its time is not over. -/
def looks (c : Container) : Occurrence → Bool
  | .act (.call _ _ now) | .enter _ _ now => c.status == .running && (c.outOfTime now).isNone
  | .act (.query q _) => asks c q
  | _ => false

/-- What is found by the look that something leads to, if it leads to one and a guest is there. -/
def sighted (s : Session) (h : Occurrence) : List Sighting :=
  if looks s.container h then s.container.sighting?.toList else []

/-- What the looks of a run find, in order. -/
def sightings : Session → List Occurrence → List Sighting
  | _, [] => []
  | s, h :: hs => s.sighted h ++ (s.occur h).sightings hs

/-! ## One thing -/

/-- A call that begins looks if it is to, and then it is refused, or the guest has taken it. -/
theorem beginCall_watched {c : Container} (h : Vigilant label box seen c) (function : String)
    (args : List Wasm.Value) (now : Nat) :
    ∃ d, Vigilant label box (seen ++
        if c.status == .running && (c.outOfTime now).isNone then c.sighting?.toList else []) d ∧
      d.guest = c.guest ∧
      ((c.beginCall function args now).2 = d ∨ ∃ g g', d.guest = some g ∧ g.Later g' ∧
        (c.beginCall function args now).2 = { d with guest := some g' }) := by
  unfold beginCall
  by_cases hstatus : c.status = .running
  · have hsnd := c.accept_snd function now
    have hlooked : Vigilant label box (seen ++
        if c.status == .running && (c.outOfTime now).isNone then c.sighting?.toList else [])
        (c.accept function now).2 := by
      rw [hsnd, hstatus, beq_self_eq_true, Bool.true_and]
      split
      · exact h.observe
      · rw [List.append_nil]
        exact h
    have hguest : (c.accept function now).2.guest = c.guest := by
      obtain ⟨_, _, _, _, hd, -⟩ := c.observed_accept function now
      rw [hd]
    rw [if_neg (not_not_intro hstatus)]
    cases ha : c.accept function now with
    | mk result d =>
      rw [ha] at hlooked hguest
      cases result with
      | error e =>
        have hsettled := d.steady_settleCall function (.error e) now ⟨0⟩
        exact ⟨_, hlooked.steady hsettled, hsettled.guest.trans hguest, .inl rfl⟩
      | ok g =>
        have hg : c.guest = some g := guest_of_accept (congrArg Prod.fst ha)
        refine ⟨d, hlooked, hguest, .inr ⟨g, _, hguest.trans hg, ?_, rfl⟩⟩
        exact d.later_enterGuest g function args
  · have hidle : (c.status == .running) = false := by simpa using hstatus
    rw [if_pos hstatus, hidle]
    simp only [Bool.false_and, Bool.false_eq_true, if_false, List.append_nil]
    exact ⟨c, h, rfl, .inl rfl⟩

theorem vigilant_query {c : Container} (h : Vigilant label box seen c) (q : Query) (now : Nat) :
    Vigilant label box (seen ++ if asks c q then c.sighting?.toList else []) (c.query now q) := by
  have hcollected : Vigilant label box (seen ++ c.sighting?.toList) (c.collectMetrics now).2 :=
    h.observe.steady (steady_announce _ _ (by decide))
  cases q with
  | memory => exact h.observe
  | metrics => exact h.observe
  | collect => exact hcollected
  | health =>
    have hhealth : (c.health now).2 = c.observeMemory.2 := by
      unfold health
      dsimp only
      split <;> rfl
    show Vigilant label box _ (c.health now).2
    rw [hhealth]
    exact h.observe
  | strike =>
    cases hticker : c.ticker with
    | none =>
      simp only [asks, query, strike, hticker, Option.isSome_none, Bool.false_eq_true, if_false,
        List.append_nil]
      exact h
    | some t =>
      simp only [asks, query, strike, hticker, Option.isSome_some, if_true]
      exact hcollected.steady ⟨⟨rfl, rfl, rfl, rfl⟩, rfl, rfl, rfl⟩
  | startTicker timer interval =>
    rw [asks, if_neg (by decide), List.append_nil]
    exact h.steady ⟨⟨rfl, rfl, rfl, rfl⟩, rfl, rfl, rfl⟩

theorem vigilant_stop {c : Container} (h : Vigilant label box seen c) :
    Vigilant label box seen c.stop := by
  by_cases hstatus : c.status = .stopped
  · unfold Container.stop
    rw [if_pos hstatus]
    exact h
  · exact h.emptied (emptied_stop hstatus)

theorem vigilant_revive {c : Container} (h : Vigilant label box seen c) (snapshot : State)
    (env : Surroundings) : Vigilant label box seen (c.revive snapshot env).2 := by
  have hrevived := c.revive_watched snapshot env
  generalize c.revive snapshot env = revived at hrevived ⊢
  obtain ⟨_ | _, d⟩ := revived
  · exact h.steady hrevived
  · exact h.renewed hrevived

theorem vigilant_act (h : Vigilant label box seen s.container) (a : Action) :
    Vigilant label box (seen ++ s.sighted (.act a)) (s.act a).container := by
  have hnone {d : Container} (hd : Vigilant label box seen d) :
      Vigilant label box (seen ++ []) d := by
    rw [List.append_nil]
    exact hd
  have hfree {f : Session → Session} (hf : Vigilant label box seen (f s).container) :
      Vigilant label box (seen ++ []) (s.whenFree f).container := by
    unfold whenFree
    split
    · exact hnone h
    · exact hnone hf
  cases a with
  | call function args now =>
    obtain ⟨d, hd, -, hbegun | ⟨g, g', hg, hlater, hbegun⟩⟩ := beginCall_watched h function args now
    · rw [container_call, hbegun]
      exact hd
    · -- the guest has run since it was looked at
      rw [container_call, hbegun]
      exact hd.later hg hlater
  | query q now => exact vigilant_query h q now
  | answer i now =>
    apply hnone
    simp only [act, answer]
    cases s.inside[i]? with
    | none => exact h
    | some v => exact h.steady (steady_settleCall ..)
  | update u => exact hnone (h.steady (steady_of_updated (updated_updateState _ u)))
  | subscribe tag fails replies => exact hnone (h.steady ⟨⟨rfl, rfl, rfl, rfl⟩, rfl, rfl, rfl⟩)
  | unsubscribe id => exact hnone (h.steady ⟨⟨rfl, rfl, rfl, rfl⟩, rfl, rfl, rfl⟩)
  | stop => exact hfree (vigilant_stop h)
  | restart => exact hfree (vigilant_stop h)
  | wake =>
    apply hnone
    simp only [act, wake]
    split
    · exact h.steady (steady_setStatus _ .starting)
    · exact h
  | boot env =>
    apply hnone
    simp only [act, boot]
    split
    · exact vigilant_revive h _ env
    · exact h
  | reload m digest => exact hfree (f := fun s => s.reload m digest) h
  | swap env =>
    apply hnone
    simp only [act, swap]
    split
    · split
      · exact h
      · rename_i hguest
        exact h.renewed (renewed_swap hguest _)
    · exact h
  | restore =>
    apply hnone
    simp only [act, restore]
    split
    · exact h.steady (steady_endReload _ _)
    · exact h

theorem vigilant_occur (h : Vigilant label box seen s.container) (x : Occurrence) :
    Vigilant label box (seen ++ s.sighted x) (s.occur x).container := by
  cases x with
  | act a => exact vigilant_act h a
  | enter function args now =>
    -- the guest shows nothing of the call
    obtain ⟨d, hd, hsame, hbegun⟩ := beginCall_watched h function args now
    have hback : { (s.container.beginCall function args now).2 with
        guest := s.container.guest } = d := by
      rcases hbegun with hbegun | ⟨g, g', -, -, hbegun⟩
      · rw [hbegun, ← hsame]
      · rw [hbegun, ← hsame]
    show Vigilant label box _ { (s.act (.call function args now)).container with
      guest := s.container.guest }
    rw [container_call, hback]
    exact hd
  | leave function args watch =>
    show Vigilant label box (seen ++ []) { s.container with
      guest := s.container.guest.map fun g => (g.call function args watch).2 }
    rw [List.append_nil]
    cases hg : s.container.guest with
    | none =>
      have hsame : { s.container with guest := none } = s.container := by rw [← hg]
      exact hsame.symm ▸ h
    | some g => exact h.later hg (.call .same function args watch)

/-! ## Whole lives -/

theorem vigilant_go (h : Vigilant label box seen s.container) (hs : List Occurrence) :
    Vigilant label box (seen ++ s.sightings hs) (s.go hs).container := by
  -- what has been seen grows with the run
  induction hs generalizing s seen with
  | nil =>
    rw [sightings, List.append_nil]
    exact h
  | cons x hs ih =>
    rw [sightings, ← List.append_assoc]
    exact ih (vigilant_occur h x)

theorem vigilant_created (id name : String) (box : Guest.Sandbox) (module : Guest.Compiled)
    (digest : Option String) (env : Surroundings) :
    Vigilant id box [] (created id name box module digest env).container := by
  have hraw : Vigilant id box [] (.raw id name box module digest env.now) := by
    refine ⟨rfl, rfl, rfl, rfl, ?_, ?_, ?_, ?_⟩
    · exact fun x hx => nomatch hx
    · exact fun hsome => nomatch hsome
    · exact fun g hg => nomatch hg
    · exact fun g hg => nomatch hg
  have hstart := (Container.raw id name box module digest env.now).start_watched env
  unfold created Session.opened
  generalize (Container.raw id name box module digest env.now).start env = started at hstart ⊢
  obtain ⟨_ | _, d⟩ := started
  · exact hraw.steady hstart
  · exact hraw.renewed hstart

theorem observeMemory_usage {c : Container} {g : Guest.Instance} (hg : c.guest = some g) :
    c.observeMemory.1 = .ok ⟨g.memorySize, c.config.maxPages * Limits.pageSize,
      max c.counters.peak g.memorySize, c.config.maxMemory⟩ := by
  simp only [observeMemory, hg]
  split
  · split <;> rfl
  · rfl

/-- What a look reports: the size and the limits, with the peak of all looks. Metrics of a container
that has no guest report that peak, too. -/
theorem reports_of_vigilant {c : Container} (h : Vigilant label box seen c) (now : Nat) :
    (∀ g, c.guest = some g → c.observeMemory.1 =
      .ok ⟨g.memorySize, box.config.maxPages * Limits.pageSize,
        peakOf (seen ++ c.sighting?.toList), box.config.maxMemory⟩) ∧
    (c.metrics now).1.memory.peak = peakOf (seen ++ c.sighting?.toList) ∧
    (c.metrics now).1.memory.used ≤ (c.metrics now).1.memory.peak := by
  have hconfig : c.config = box.config := congrArg (·.config) h.sandbox
  cases hg : c.guest with
  | none =>
    have hnone : c.sighting? = none := by simp only [sighting?, hg, Option.map_none]
    have hmetrics : (c.metrics now).1.memory = ⟨0, 0, c.counters.peak, c.config.maxMemory⟩ := by
      simp only [metrics, observeMemory, hg]
    rw [hnone, hmetrics, Option.toList_none, List.append_nil, ← h.peak]
    refine ⟨?_, rfl, Nat.zero_le _⟩
    intro g hguest
    cases hguest
  | some g =>
    have hsome : c.sighting? = some ⟨c.installs, g.memorySize⟩ := by
      simp only [sighting?, hg, Option.map_some]
    have husage := observeMemory_usage hg
    have hmetrics : (c.metrics now).1.memory = ⟨g.memorySize, c.config.maxPages * Limits.pageSize,
        max c.counters.peak g.memorySize, c.config.maxMemory⟩ := by
      simp only [metrics, husage]
    rw [hsome, hmetrics, Option.toList_some, peakOf_append, ← h.peak]
    refine ⟨?_, rfl, Nat.le_max_right _ _⟩
    rintro _ ⟨⟩
    rw [husage, hconfig]

theorem sightings_append (s : Session) (hs more : List Occurrence) :
    s.sightings (hs ++ more) = s.sightings hs ++ (s.go hs).sightings more := by
  induction hs generalizing s with
  | nil => rfl
  | cons x hs ih =>
    rw [List.cons_append, sightings, sightings, ih, List.append_assoc]
    rfl

/-- Whatever happens to a container from its creation on, with looks that come before, inside of and
after calls: it has announced one warning for each guest that a look has found near its limit, with
what the first such look has found, and no other. A look reports the size as used and, as the peak,
the largest size that it or any look before it has found, so that the peak is not less than what is
used and never goes down; so do metrics, which report the same peak when there is no guest. -/
theorem warned_once (id name : String) (box : Guest.Sandbox) (module : Guest.Compiled)
    (digest : Option String) (env : Surroundings) (hs : List Occurrence) :
    let made := created id name box module digest env
    let s := made.go hs
    let seen := made.sightings hs
    let limit := box.config.maxMemory
    s.container.warnings = (alarms limit seen).map (warning id limit) ∧
    (∀ n, (alarms limit seen).filter (·.guest == n) =
      ((seen.filter (·.guest == n)).find? (nearLimit ·.used limit)).toList) ∧
    (∀ now, let peak := peakOf (seen ++ s.container.sighting?.toList)
      (∀ g, s.container.guest = some g → s.container.observeMemory.1 =
        .ok ⟨g.memorySize, box.config.maxPages * Limits.pageSize, peak, limit⟩) ∧
      (s.container.metrics now).1.memory.peak = peak ∧
      (s.container.metrics now).1.memory.used ≤ peak ∧
      (s.container.collectMetrics now).1 = (s.container.metrics now).1) ∧
    ∀ more, peakOf seen ≤ peakOf (made.sightings (hs ++ more)) := by
  intro made s seen limit
  have hvigilant : Vigilant id box seen s.container := by
    have hrun := vigilant_go (vigilant_created id name box module digest env) hs
    rwa [List.nil_append] at hrun
  refine ⟨hvigilant.warnings, ?_, ?_, ?_⟩
  · intro n
    exact alarms_of_guest limit n seen
  · intro now
    obtain ⟨husage, hpeak, hused⟩ := reports_of_vigilant hvigilant now
    exact ⟨husage, hpeak, hpeak ▸ hused, rfl⟩
  · intro more
    rw [sightings_append]
    exact peakOf_le_append seen _

/-- Looks before a call for one more page, while it is inside, and after it; and a restart. -/
def growthAndRestart : List Occurrence :=
  [.act (.query .memory 1), .enter "grow" [.i32 1] 2, .act (.query .memory 3),
   .leave "grow" [.i32 1] .quiet, .act (.query .metrics 4), .act (.query .health 5),
   .act .restart, .act .wake, .act (.boot ⟨.ofDirs [], 6⟩), .act (.query .memory 7)]

/-- Six looks, a single warning, and a peak that outlives the guest which has it. -/
theorem warned_of_growth :
    let made := created "unit-1" "unit" Guest.Shared.narrow ⟨1, Guest.Shared.growing⟩ none
      ⟨.ofDirs [], 0⟩
    let s := made.go growthAndRestart
    made.sightings growthAndRestart =
      [⟨1, 65536⟩, ⟨1, 65536⟩, ⟨1, 65536⟩, ⟨1, 131072⟩, ⟨1, 131072⟩, ⟨2, 65536⟩] ∧
    s.container.warnings = [warning "unit-1" 100000 ⟨1, 131072⟩] ∧
    (s.container.metrics 8).1.memory.peak = 131072 := by
  intro made s
  have hseen : made.sightings growthAndRestart =
      [⟨1, 65536⟩, ⟨1, 65536⟩, ⟨1, 65536⟩, ⟨1, 131072⟩, ⟨1, 131072⟩, ⟨2, 65536⟩] := by
    decide +kernel
  have hnow : s.container.sighting? = some ⟨2, 65536⟩ := by decide +kernel
  obtain ⟨hwarnings, -, hreports, -⟩ := warned_once "unit-1" "unit" Guest.Shared.narrow
    ⟨1, Guest.Shared.growing⟩ none ⟨.ofDirs [], 0⟩ growthAndRestart
  obtain ⟨-, hpeak, -⟩ := hreports 8
  rw [hseen] at hwarnings hpeak
  refine ⟨hseen, hwarnings, ?_⟩
  rw [hpeak, hnow]
  rfl

end Session
end ContainerHost
