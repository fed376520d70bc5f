import ContainerHost.Proofs.Container.Cascades
/-!
# What a subscriber is handed last

An update hands out the state that it merged, whatever was merged since. An update inside of a
listener, or of a subscriber that is called before, is therefore handed over in full, and then the
update around it hands out its own, older state. What a subscriber is handed last is the state of the
last merge that is made in no such callback (`reaches`): updates inside of its own callback, or of
one behind it, come when the update around them is done with it.

What is proved: `handed_last`.
-/

namespace ContainerHost

def Caller.follows (i : Nat) : Caller → Bool
  | .listener => false
  | .subscriber n => decide (i ≤ n)

/-- What is merged inside of these callbacks is not handed over late to the subscriber with a
number: none of them is a listener or a subscriber before it. -/
def reaches (i : Nat) (inside : List Caller) : Bool := inside.all (·.follows i)

namespace Step

def reaching? (i : Nat) : Step → Option State
  | .merged inside state _ => if reaches i inside then some state else none
  | .handed .. => none

def handed? (i : Nat) : Step → Option State
  | .merged .. => none
  | .handed x state => if x.id = i then some state else none

end Step

namespace Course

variable {inside : List Caller} {c : Container} {r : Container × List Step}

/-- No merge inside of a listener, or of a subscriber before, reaches the subscriber with a
number. -/
theorem latest_reaching_eq_none {x : Caller} {i : Nat} (h : Course (inside ++ [x]) c r)
    (hx : x.follows i = false) : latest (Step.reaching? i) r.2 = none := by
  apply latest_eq_none.mpr
  intro step hstep
  cases step with
  | handed => rfl
  | merged path state previous =>
    obtain ⟨rest, rfl⟩ := h.inside path state previous hstep
    have hlate : reaches i (inside ++ [x] ++ rest) = false := by simp [reaches, hx]
    simp only [Step.reaching?, hlate]
    rfl

end Course

/-- The number was given out by the time of `c`, and its subscriber is there in `d`. -/
structure Staying (i : Nat) (c d : Container) : Prop where
  rostered : c.Rostered
  given : i ≤ c.lastSubscriber
  there : d.Has i

namespace Staying

variable {i : Nat} {c : Container}

theorem tell {d : Container} (h : Staying i c d) (xs : List Subscriber) (state : State) :
    Staying i (c.tell xs state) d :=
  ⟨⟨h.rostered.ascending, h.rostered.given⟩, h.given, h.there⟩

/-- A subscriber that stays is there all the while, since nobody comes back. -/
theorem split {inside inside' : List Caller} {r q : Container × List Step}
    (hfirst : Course inside c r) (hrest : Course inside' r.1 q) (h : Staying i c q.1) :
    Staying i c r.1 ∧ Staying i r.1 q.1 := by
  have hgiven : i ≤ r.1.lastSubscriber := h.given.trans hfirst.last
  exact ⟨⟨h.rostered, h.given, hrest.old i hgiven h.there⟩,
    ⟨hfirst.rostered h.rostered, hgiven, h.there⟩⟩

end Staying

namespace Cascade

open Container Session

/-! ## What is handed over last -/

section

variable {i : Nat}

theorem latest_handed_of_not_mem {xs : List Subscriber} (h : ∀ x ∈ xs, x.id ≠ i)
    (state : State) : latest (Step.handed? i) (xs.map (.handed · state)) = none := by
  apply latest_eq_none.mpr
  intro step hstep
  obtain ⟨x, hx, rfl⟩ := List.mem_map.mp hstep
  simp only [Step.handed?, if_neg (h x hx)]

theorem latest_reaching_handed (xs : List Subscriber) (state : State) :
    latest (Step.reaching? i) (xs.map (.handed · state)) = none := by
  apply latest_eq_none.mpr
  intro step hstep
  obtain ⟨x, -, rfl⟩ := List.mem_map.mp hstep
  rfl

theorem latest_handed_of_mem {xs : List Subscriber} (h : ∃ x ∈ xs, x.id = i) (state : State) :
    latest (Step.handed? i) (xs.map (.handed · state)) = some state := by
  induction xs with
  | nil => simp at h
  | cons x xs ih =>
    rw [List.map_cons, latest_cons]
    by_cases hrest : ∃ y ∈ xs, y.id = i
    · rw [ih hrest]
      rfl
    · have hx : x.id = i := by
        obtain ⟨y, hy, hid⟩ := h
        rcases List.mem_cons.mp hy with rfl | hy
        · exact hid
        · exact absurd ⟨y, hy, hid⟩ hrest
      rw [latest_handed_of_not_mem (fun y hy hid => hrest ⟨y, hy, hid⟩)]
      simp [Step.handed?, hx]

mutual

/-- Where merges reach the subscriber with a number, what it is handed last is what was merged last
of what reaches it. -/
theorem last_run {inside : List Caller} (hinside : reaches i inside = true) :
    ∀ (t : Cascade) (c : Container), Staying i c (run inside t c).1 →
      latest (Step.handed? i) (run inside t c).2 = latest (Step.reaching? i) (run inside t c).2
  | .update u heard answered, c => by
    intro hstays
    have hmerge := Course.merge inside c u
    have htold := course_runAll (inside ++ [.listener]) heard (c.merge u)
    have hdone := course_handOut inside (c.merge u).state answered
      (runAll (inside ++ [.listener]) heard (c.merge u)).1.subscribers
      (runAll (inside ++ [.listener]) heard (c.merge u)).1
    obtain ⟨hthere, hstays⟩ := Staying.split (hmerge.append htold.within) hdone hstays
    have hlate := htold.latest_reaching_eq_none (i := i) rfl
    have hlast := last_handOut_at hinside (c.merge u).state answered _ _ hstays hthere.there
      hstays.rostered.pairwise
    simp only [run, latest_cons, latest_append, hlast, hlate, Step.reaching?, hinside, if_true,
      Step.handed?, Option.or_assoc, Option.some_or, Option.or_none]
  | .subscribe tag fails, c => fun _ => rfl
  | .unsubscribe n, c => fun _ => rfl

theorem last_runAll {inside : List Caller} (hinside : reaches i inside = true) :
    ∀ (ts : List Cascade) (c : Container), Staying i c (runAll inside ts c).1 →
      latest (Step.handed? i) (runAll inside ts c).2 =
        latest (Step.reaching? i) (runAll inside ts c).2
  | [], c => fun _ => rfl
  | t :: ts, c => by
    intro hstays
    obtain ⟨hfirst, hrest⟩ := Staying.split (course_run inside t c)
      (course_runAll inside ts _) hstays
    have hlast := last_run hinside t c hfirst
    have hlast' := last_runAll hinside ts _ hrest
    simp only [runAll, latest_append, hlast, hlast']

/-- Subscribers behind the one with a number. -/
theorem last_handOut_above {inside : List Caller} (hinside : reaches i inside = true)
    (state : State) :
    ∀ (answered : List (List Cascade)) (xs : List Subscriber) (c : Container),
      Staying i c (handOut inside state answered xs c).1 → (∀ x ∈ xs, i < x.id) →
      latest (Step.handed? i) (handOut inside state answered xs c).2 =
        latest (Step.reaching? i) (handOut inside state answered xs c).2
  | [], xs, c => by
    intro _ habove
    simp only [handOut]
    rw [latest_handed_of_not_mem (fun x hx => Nat.ne_of_gt (habove x hx)), latest_reaching_handed]
  | _ :: _, [], c => fun _ _ => rfl
  | ts :: answered, x :: xs, c => by
    intro hstays habove
    rw [List.forall_mem_cons] at habove
    obtain ⟨hx, habove⟩ := habove
    have hreach : reaches i (inside ++ [.subscriber x.id]) = true := by
      simpa [reaches, Caller.follows, Nat.le_of_lt hx] using hinside
    obtain ⟨hfirst, hrest⟩ := Staying.split
      (course_runAll (inside ++ [.subscriber x.id]) ts _)
      (course_handOut inside state answered xs _) (hstays.tell [x] state)
    have hlast := last_runAll hreach ts _ hfirst
    have hlast' := last_handOut_above hinside state answered xs _ hrest habove
    simp only [handOut, latest_cons, latest_append, hlast, hlast', Step.handed?, Step.reaching?,
      if_neg (Nat.ne_of_gt hx)]

/-- Subscribers with the one with a number among them. -/
theorem last_handOut_at {inside : List Caller} (hinside : reaches i inside = true)
    (state : State) :
    ∀ (answered : List (List Cascade)) (xs : List Subscriber) (c : Container),
      Staying i c (handOut inside state answered xs c).1 →
      (∃ x ∈ xs, x.id = i) → xs.Pairwise (·.id < ·.id) →
      latest (Step.handed? i) (handOut inside state answered xs c).2 =
        (latest (Step.reaching? i) (handOut inside state answered xs c).2).or (some state)
  | [], xs, c => by
    intro _ hthere _
    simp only [handOut]
    rw [latest_handed_of_mem hthere, latest_reaching_handed]
    rfl
  | _ :: _, [], c => by
    intro _ hthere
    simp at hthere
  | ts :: answered, x :: xs, c => by
    intro hstays hthere hascending
    rw [List.pairwise_cons] at hascending
    obtain ⟨habove, hascending⟩ := hascending
    have hcourse := course_runAll (inside ++ [.subscriber x.id]) ts (c.tell [x] state)
    obtain ⟨hfirst, hrest⟩ := Staying.split hcourse (course_handOut inside state answered xs _)
      (hstays.tell [x] state)
    by_cases hx : x.id = i
    · rw [hx] at habove
      have hreach : reaches i (inside ++ [.subscriber x.id]) = true := by
        simpa [reaches, Caller.follows, hx] using hinside
      have hlast := last_runAll hreach ts _ hfirst
      have hlast' := last_handOut_above hinside state answered xs _ hrest habove
      simp only [handOut, latest_cons, latest_append, hlast, hlast', Step.handed?, Step.reaching?,
        if_pos hx, Option.or_none]
    · -- it comes later, so that what it is handed in this callback is not the last
      have hthere : ∃ y ∈ xs, y.id = i := by
        obtain ⟨y, hy, hid⟩ := hthere
        rcases List.mem_cons.mp hy with rfl | hy
        · exact absurd hid hx
        · exact ⟨y, hy, hid⟩
      have hbefore : x.id < i := by
        obtain ⟨y, hy, rfl⟩ := hthere
        exact habove y hy
      have hearlier : Caller.follows i (.subscriber x.id) = false := by
        simpa [Caller.follows] using hbefore
      have hlate := hcourse.latest_reaching_eq_none hearlier
      have hlast := last_handOut_at hinside state answered xs _ hrest hthere hascending
      simp only [handOut, latest_cons, latest_append, hlast, hlate, Step.handed?, Step.reaching?,
        if_neg hx, Option.or_assoc, Option.some_or, Option.or_none]

end

end

/-! ## Whole lives -/

/-- An update always merges something, and the first merge is inside of no callback. -/
theorem latest_update (f : Step → Option State) (c : Container) (u : State)
    (heard : List Cascade) (answered : List (List Cascade)) {state : State}
    (hf : f (.merged [] (c.merge u).state c.state) = some state) :
    ∃ last, latest f (run [] (.update u heard answered) c).2 = some last := by
  simp only [run, latest_cons, hf]
  cases latest f _ with
  | none => exact ⟨state, rfl⟩
  | some last => exact ⟨last, rfl⟩

/-- Whatever has happened to a container since its creation, and whatever listeners and subscribers
do inside of an update of it: a subscriber that was there before and still is there afterwards has
been handed, as the last, the state that was merged last of what reaches it. The state in the end is
the one that was merged last of all, so that it is what the subscriber was handed last if that merge
reaches it. The outbox shows each merge and each delivery in turn. The updates of which the session
is made are such cascades. -/
theorem handed_last (id name : String) (sandbox : Guest.Sandbox) (module : Guest.Compiled)
    (digest : Option String) (env : Surroundings) (actions : List Action) (u : State) :
    let c := ((created id name sandbox module digest env).run actions).container
    (∃ answered, (c.updateState u).muted = (run [] (.update u [] answered) c.muted).1) ∧
    ∀ heard answered i,
      let told := run [] (.update u heard answered) c
      c.Has i → told.1.Has i →
      (∃ state, latest (Step.handed? i) told.2 = some state ∧
        latest (Step.reaching? i) told.2 = some state) ∧
      latest Step.state? told.2 = some told.1.state ∧
      told.1.outbox = c.outbox ++ told.2.map (Step.notice c.id) ∧
      ∀ front inside state previous back,
        told.2 = front ++ .merged inside state previous :: back →
        latest Step.state? back = none → reaches i inside = true →
        latest (Step.handed? i) told.2 = some told.1.state := by
  intro c
  have hrostered : c.Rostered :=
    rostered_run (rostered_created id name sandbox module digest env) actions
  refine ⟨updateState_isCascade hrostered u, ?_⟩
  intro heard answered i told hthere hstays
  have hcourse : Course [] c told := course_run [] (.update u heard answered) c
  have hlast : latest (Step.handed? i) told.2 = latest (Step.reaching? i) told.2 :=
    last_run rfl (.update u heard answered) c ⟨hrostered, hrostered.le_last hthere, hstays⟩
  obtain ⟨final, hfinal⟩ := latest_update Step.state? c u heard answered rfl
  obtain ⟨reached, hreached⟩ := latest_update (Step.reaching? i) c u heard answered rfl
  have hstate : told.1.state = final := by
    have hstate := hcourse.state
    rwa [hfinal] at hstate
  refine ⟨⟨reached, hlast.trans hreached, hreached⟩, hstate ▸ hfinal, hcourse.outbox, ?_⟩
  intro front inside state previous back hlog hback hinside
  -- what is merged behind would be the last, and there is nothing
  have hquiet : latest (Step.reaching? i) back = none := by
    apply latest_eq_none.mpr
    intro step hstep
    have hnone := latest_eq_none.mp hback step hstep
    cases step with
    | merged => cases hnone
    | handed => rfl
  have hmerged : latest Step.state? told.2 = some state := by
    rw [hlog, latest_append, latest_cons, hback]
    rfl
  have hreaching : latest (Step.reaching? i) told.2 = some state := by
    rw [hlog, latest_append, latest_cons, hquiet]
    simp [Step.reaching?, hinside]
  calc latest (Step.handed? i) told.2
    _ = latest (Step.reaching? i) told.2 := hlast
    _ = some state := hreaching
    _ = latest Step.state? told.2 := hmerged.symm
    _ = some told.1.state := hstate ▸ hfinal

def attended : Container :=
  (fresh.run [.subscribe "A" false [], .subscribe "B" false []]).container

/-- An update that the first subscriber answers with another one. -/
def overtaking : Cascade := .update firstValue [] [[.update secondValue [] []]]

/-- An update that the second subscriber answers with another one. -/
def following : Cascade := .update firstValue [] [[], [.update secondValue [] []]]

/-- The second subscriber is handed the second state first, and the first state last. So it is when
it is the running container that has a first subscriber which answers. -/
theorem not_handed_current :
    let told := run [] overtaking attended
    let c := (fresh.run [.subscribe "A" false [secondValue], .subscribe "B" false [],
      .update firstValue]).container
    attended.Has 2 ∧ told.1.Has 2 ∧
    latest (Step.handed? 2) told.2 ≠ some told.1.state ∧
    told.1.state = (Table.empty.merge firstValue).merge secondValue ∧
    c.state = told.1.state ∧ c.outbox = told.1.outbox ∧
    c.outbox.getLast? = some (.delivered "B" (Table.empty.merge firstValue)) := by
  refine ⟨⟨_, List.mem_cons_of_mem _ List.mem_cons_self, rfl⟩,
    ⟨_, List.mem_cons_of_mem _ List.mem_cons_self, rfl⟩, ?_, rfl, rfl, rfl, rfl⟩
  intro hsame
  have hname : some (Json.Value.nat 1) = some (.nat 2) :=
    congrArg (fun state => state.bind (·.get? "b")) hsame
  exact absurd (Json.Value.nat_injective (Option.some.inj hname)) (by decide)

/-- The first subscriber is handed the last state of all when the second one answers. -/
theorem handed_last_following :
    let told := run [] following attended
    attended.Has 1 ∧ told.1.Has 1 ∧
    latest (Step.handed? 1) told.2 = some ((Table.empty.merge firstValue).merge secondValue) ∧
    told.1.state = (Table.empty.merge firstValue).merge secondValue := by
  intro told
  have hthere : attended.Has 1 := ⟨_, List.mem_cons_self, rfl⟩
  have hstays : told.1.Has 1 := ⟨_, List.mem_cons_self, rfl⟩
  obtain ⟨-, hcascades⟩ := handed_last "unit-1" "unit" Session.unitSandbox
    ⟨1, .empty⟩ none ⟨.ofDirs [], 0⟩ [.subscribe "A" false [], .subscribe "B" false []] firstValue
  obtain ⟨-, -, -, hlast⟩ := hcascades [] [[], [.update secondValue [] []]] 1 hthere hstays
  -- the second merge is made in the second callback, and is handed over twice
  have hfinal := hlast (told.2.take 3) [.subscriber 2] _ _ (told.2.drop 4) rfl rfl rfl
  exact ⟨hthere, hstays, hfinal, rfl⟩

end Cascade
end ContainerHost
