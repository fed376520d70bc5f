import ContainerHost.Proofs.Container.Subscribers
/-!
# Updates inside of updates

An update merges its values, lets the listeners of the bus hear of the change, and then calls every
subscriber there is by then with the state that it merged. Listeners and subscribers may update the
state themselves and may come and go, so that whole updates run inside of others. A `Cascade` is an
update with all that its callbacks do, and `run` carries it out and keeps a record of the merges and
of what is handed to whom (`Step`). Each merge is recorded with the callbacks that it is made in,
the outermost first.

What is proved: a cascade brings no subscriber back, and its record says what the container says and
ends on the state (`course_run`); and an update of a container whose subscribers answer with the
replies that they were given is a cascade (`updateState_isCascade`).

Correspondence: `ContainerInstance::update_state`, whose listeners and subscribers may call it in
turn ↔ `Cascade.run`.
-/

namespace ContainerHost

/-- Who updates the state: a listener of the bus, or the subscriber with a number. -/
inductive Caller where
  | listener
  | subscriber (id : Nat)

/-- An update with what the listeners do when they hear of it and what each subscriber does when it
is called, or a subscriber that comes or goes. -/
inductive Cascade where
  | update (u : State) (heard : List Cascade) (answered : List (List Cascade))
  | subscribe (tag : String) (fails : Bool)
  | unsubscribe (id : Nat)

/-- A merge, with the callbacks that it is made in, or a state that is handed to a subscriber. -/
inductive Step where
  | merged (inside : List Caller) (state previous : State)
  | handed (x : Subscriber) (state : State)

namespace Container

def tell (c : Container) (xs : List Subscriber) (state : State) : Container :=
  { c with outbox := c.outbox ++ xs.map (Subscriber.handed state) }

/-- A subscriber has the number. -/
def Has (c : Container) (i : Nat) : Prop := ∃ x ∈ c.subscribers, x.id = i

end Container

namespace Cascade

/-! ## Carrying cascades out -/

mutual

/-- Carries out an update with all that happens in its callbacks. -/
def run (inside : List Caller) : Cascade → Container → Container × List Step
  | .update u heard answered, c =>
    let d := c.merge u
    let told := runAll (inside ++ [.listener]) heard d
    let done := handOut inside d.state answered told.1.subscribers told.1
    (done.1, .merged inside d.state c.state :: (told.2 ++ done.2))
  | .subscribe tag fails, c => ((c.subscribe tag fails []).2, [])
  | .unsubscribe id, c => ((c.unsubscribe id).2, [])

/-- Carries out what a callback does. -/
def runAll (inside : List Caller) : List Cascade → Container → Container × List Step
  | [], c => (c, [])
  | t :: ts, c =>
    let first := run inside t c
    let rest := runAll inside ts first.1
    (rest.1, first.2 ++ rest.2)

/-- Calls subscribers with a state; where nothing is said of one, its callback does nothing. -/
def handOut (inside : List Caller) (state : State) :
    List (List Cascade) → List Subscriber → Container → Container × List Step
  | [], xs, c => (c.tell xs state, xs.map (.handed · state))
  | _ :: _, [], c => (c, [])
  | ts :: answered, x :: xs, c =>
    let first := runAll (inside ++ [.subscriber x.id]) ts (c.tell [x] state)
    let rest := handOut inside state answered xs first.1
    (rest.1, .handed x state :: (first.2 ++ rest.2))

end

end Cascade

/-! ## Records -/

namespace Step

def state? : Step → Option State
  | .merged _ state _ => some state
  | .handed .. => none

/-- What the container lets others know. -/
def notice (id : String) : Step → Notice
  | .merged _ state previous => Container.stateChanged id state previous
  | .handed x state => x.handed state

end Step

def latest (f : Step → Option State) (log : List Step) : Option State :=
  (log.filterMap f).getLast?

section

variable {f : Step → Option State} {log more : List Step} {i : Nat}

theorem latest_append : latest f (log ++ more) = (latest f more).or (latest f log) := by
  unfold latest
  rw [List.filterMap_append, List.getLast?_append]

theorem latest_cons (step : Step) : latest f (step :: log) = (latest f log).or (f step) := by
  rw [← List.singleton_append, latest_append]
  unfold latest
  cases hf : f step <;> simp [hf]

theorem latest_eq_none : latest f log = none ↔ ∀ step ∈ log, f step = none := by
  unfold latest
  rw [List.getLast?_eq_none_iff, List.filterMap_eq_nil_iff]

end

/-! ## What a cascade keeps -/

namespace Container

variable {c d : Container} {i : Nat}

theorem rostered_subscribe (c : Container) (h : c.Rostered) (tag : String) (fails : Bool) :
    (c.subscribe tag fails []).2.Rostered :=
  Session.rostered_act (s := .opened c) h (.subscribe tag fails [])

theorem rostered_unsubscribe (c : Container) (h : c.Rostered) (id : Nat) :
    (c.unsubscribe id).2.Rostered :=
  Session.rostered_act (s := .opened c) h (.unsubscribe id)

theorem Rostered.le_last (h : c.Rostered) (hi : c.Has i) : i ≤ c.lastSubscriber := by
  obtain ⟨x, hx, rfl⟩ := hi
  exact h.given x.mute (List.mem_map_of_mem hx)

theorem Rostered.pairwise (h : c.Rostered) : c.subscribers.Pairwise (·.id < ·.id) := by
  have hascending := h.ascending
  rw [roster, List.pairwise_map] at hascending
  exact hascending

end Container

/-- `r` is what becomes of `c`, with the record of it, when callbacks inside of others are at work:
nobody gets a number again or comes back, the outbox says what the record says, and the state is the
one that was merged last. -/
structure Course (inside : List Caller) (c : Container) (r : Container × List Step) : Prop where
  rostered : c.Rostered → r.1.Rostered
  last : c.lastSubscriber ≤ r.1.lastSubscriber
  old : ∀ n ≤ c.lastSubscriber, r.1.Has n → c.Has n
  id : r.1.id = c.id
  outbox : r.1.outbox = c.outbox ++ r.2.map (Step.notice c.id)
  state : r.1.state = (latest Step.state? r.2).getD c.state
  inside : ∀ path state previous, .merged path state previous ∈ r.2 → inside <+: path

namespace Course

variable {inside : List Caller} {c : Container} {r q : Container × List Step}

theorem nil (inside : List Caller) (c : Container) : Course inside c (c, []) := by
  refine ⟨fun h => h, Nat.le_refl _, fun _ _ h => h, rfl, ?_, rfl, ?_⟩
  · simp
  · intro path state previous h
    cases h

/-- One after the other. -/
theorem append (h : Course inside c r) (k : Course inside r.1 q) :
    Course inside c (q.1, r.2 ++ q.2) := by
  refine ⟨fun hr => k.rostered (h.rostered hr), h.last.trans k.last, ?_, k.id.trans h.id, ?_, ?_,
    ?_⟩
  · intro n hn hthere
    exact h.old n hn (k.old n (hn.trans h.last) hthere)
  · rw [k.outbox, h.outbox, h.id, List.map_append, List.append_assoc]
  · rw [k.state, h.state, latest_append]
    cases latest Step.state? q.2 <;> rfl
  · intro path state previous hstep
    rcases List.mem_append.mp hstep with hstep | hstep
    · exact h.inside path state previous hstep
    · exact k.inside path state previous hstep

/-- What is inside of a callback is inside of those around it. -/
theorem within {x : Caller} (h : Course (inside ++ [x]) c r) : Course inside c r := by
  refine ⟨h.rostered, h.last, h.old, h.id, h.outbox, h.state, ?_⟩
  intro path state previous hstep
  exact (List.prefix_append inside [x]).trans (h.inside path state previous hstep)

theorem merge (inside : List Caller) (c : Container) (u : State) :
    Course inside c (c.merge u, [.merged inside (c.merge u).state c.state]) := by
  refine ⟨fun h => ⟨h.ascending, h.given⟩, Nat.le_refl _, fun _ _ h => h, rfl, rfl, rfl, ?_⟩
  intro path state previous hstep
  cases List.mem_singleton.mp hstep
  exact List.prefix_refl _

theorem tell (inside : List Caller) (c : Container) (xs : List Subscriber) (state : State) :
    Course inside c (c.tell xs state, xs.map (.handed · state)) := by
  have hnone : latest Step.state? (xs.map (.handed · state)) = none := by
    apply latest_eq_none.mpr
    intro step hstep
    obtain ⟨x, -, rfl⟩ := List.mem_map.mp hstep
    rfl
  refine ⟨fun h => ⟨h.ascending, h.given⟩, Nat.le_refl _, fun _ _ h => h, rfl, ?_, ?_, ?_⟩
  · rw [List.map_map]
    rfl
  · rw [hnone]
    rfl
  · intro path state previous hstep
    obtain ⟨x, -, hx⟩ := List.mem_map.mp hstep
    cases hx

theorem subscribe (inside : List Caller) (c : Container) (tag : String) (fails : Bool) :
    Course inside c ((c.subscribe tag fails []).2, []) := by
  refine ⟨fun h => c.rostered_subscribe h tag fails, Nat.le_succ _, ?_, rfl, ?_, rfl, ?_⟩
  · rintro n hn ⟨x, hx, rfl⟩
    rcases List.mem_append.mp hx with hx | hx
    · exact ⟨x, hx, rfl⟩
    · obtain rfl := List.mem_singleton.mp hx
      exact absurd hn (Nat.not_succ_le_self _)
  · exact (List.append_nil _).symm
  · intro path state previous h
    cases h

theorem unsubscribe (inside : List Caller) (c : Container) (id : Nat) :
    Course inside c ((c.unsubscribe id).2, []) := by
  refine ⟨fun h => c.rostered_unsubscribe h id, Nat.le_refl _, ?_, rfl, ?_, rfl, ?_⟩
  · rintro n - ⟨x, hx, rfl⟩
    exact ⟨x, List.mem_of_mem_filter hx, rfl⟩
  · exact (List.append_nil _).symm
  · intro path state previous h
    cases h

end Course

namespace Cascade

mutual

theorem course_run (inside : List Caller) :
    ∀ (t : Cascade) (c : Container), Course inside c (run inside t c)
  | .update u heard answered, c => by
    have hmerge := Course.merge inside c u
    have htold := (course_runAll (inside ++ [.listener]) heard (c.merge u)).within
    have hdone := course_handOut inside (c.merge u).state answered
      (runAll (inside ++ [.listener]) heard (c.merge u)).1.subscribers
      (runAll (inside ++ [.listener]) heard (c.merge u)).1
    exact hmerge.append (htold.append hdone)
  | .subscribe tag fails, c => .subscribe inside c tag fails
  | .unsubscribe id, c => .unsubscribe inside c id

theorem course_runAll (inside : List Caller) :
    ∀ (ts : List Cascade) (c : Container), Course inside c (runAll inside ts c)
  | [], c => .nil inside c
  | t :: ts, c => (course_run inside t c).append (course_runAll inside ts _)

theorem course_handOut (inside : List Caller) (state : State) :
    ∀ (answered : List (List Cascade)) (xs : List Subscriber) (c : Container),
      Course inside c (handOut inside state answered xs c)
  | [], xs, c => .tell inside c xs state
  | _ :: _, [], c => .nil inside c
  | ts :: answered, x :: xs, c => by
    have htell := Course.tell inside c [x] state
    have hfirst := (course_runAll (inside ++ [.subscriber x.id]) ts (c.tell [x] state)).within
    have hrest := course_handOut inside state answered xs
      (runAll (inside ++ [.subscriber x.id]) ts (c.tell [x] state)).1
    exact htell.append (hfirst.append hrest)

end

end Cascade

/-! ## The updates of a container -/

namespace Container

open Cascade

variable {c : Container}

def muted (c : Container) : Container := { c with subscribers := c.roster }

/-- How many updates the subscribers have left to answer with. -/
def repliesLeft (c : Container) : Nat := (c.subscribers.flatMap (·.replies)).length

theorem deliveries_eq (c : Container) :
    c.deliveries = c.roster.map (fun x => (x.id, c.state)) := by
  rw [roster, List.map_map]
  rfl

theorem muted_takeReply (c : Container) (id : Nat) : (c.takeReply id).2.muted = c.muted := by
  unfold muted
  rw [(c.sameRoster_takeReply id).roster]
  unfold takeReply
  split
  · split <;> rfl
  · rfl

theorem muted_notify (hr : c.Rostered) {x : Subscriber} (hx : x ∈ c.roster) (state : State) :
    (c.notify x.id state).muted = c.muted.tell [x] state := by
  obtain ⟨y, hy, rfl⟩ := List.mem_map.mp hx
  have hfind : c.subscribers.find? (·.id == y.mute.id) = some y := hr.find? hy
  simp only [notify, hfind]
  rfl

/-- A subscriber after it was called: the one with the number has answered. -/
def answered (n : Nat) (x : Subscriber) : Subscriber :=
  if x.id == n then { x with replies := x.replies.drop 1 } else x

theorem length_answered_le (n : Nat) (x : Subscriber) :
    (answered n x).replies.length ≤ x.replies.length := by
  unfold answered
  split
  · exact (List.drop_sublist 1 x.replies).length_le
  · exact Nat.le_refl _

theorem repliesLeft_answered_le (n : Nat) (l : List Subscriber) :
    ((l.map (answered n)).flatMap (·.replies)).length ≤ (l.flatMap (·.replies)).length := by
  induction l with
  | nil => exact Nat.le_refl _
  | cons x l ih =>
    simp only [List.map_cons, List.flatMap_cons, List.length_append]
    exact Nat.add_le_add (length_answered_le n x) ih

/-- Subscribers of whom one has answered have one reply less at least. -/
theorem repliesLeft_answered_lt {l : List Subscriber} {x : Subscriber} (hx : x ∈ l)
    (hreplies : x.replies ≠ []) :
    ((l.map (answered x.id)).flatMap (·.replies)).length <
      (l.flatMap (·.replies)).length := by
  induction l with
  | nil => cases hx
  | cons y l ih =>
    simp only [List.map_cons, List.flatMap_cons, List.length_append]
    rcases List.mem_cons.mp hx with rfl | hx
    · have hfirst : (answered x.id x).replies.length < x.replies.length := by
        have hpos := List.length_pos_of_ne_nil hreplies
        simp only [answered, beq_self_eq_true, if_true, List.length_drop]
        omega
      exact Nat.add_lt_add_of_lt_of_le hfirst (repliesLeft_answered_le x.id l)
    · exact Nat.add_lt_add_of_le_of_lt (length_answered_le x.id y) (ih hx)

theorem repliesLeft_takeReply (c : Container) (id : Nat) :
    (c.takeReply id).2.repliesLeft + (c.takeReply id).1.toList.length ≤ c.repliesLeft := by
  cases hfind : c.subscribers.find? (·.id == id) with
  | none => simp [takeReply, hfind]
  | some x =>
    have hmem := List.mem_of_find?_eq_some hfind
    have hid : x.id = id := by simpa using List.find?_some hfind
    have htaken : c.takeReply id = if x.fails then (none, c) else
        (x.replies.head?, { c with subscribers := c.subscribers.map (answered id) }) := by
      simp only [takeReply, hfind]
      rfl
    rw [htaken]
    split
    · exact Nat.le_refl _
    · cases hreplies : x.replies with
      | nil => exact repliesLeft_answered_le id c.subscribers
      | cons reply rest =>
        have hsome : x.replies ≠ [] := by simp [hreplies]
        exact hid ▸ repliesLeft_answered_lt hmem hsome

/-- A subscriber is handed a state, and answers with one of its replies or not. -/
theorem notify_takeReply (hr : c.Rostered) {x : Subscriber} (hx : x ∈ c.roster) (state : State) :
    ∃ reply d, (c.notify x.id state).takeReply x.id = (reply, d) ∧ SameRoster c d ∧
      d.muted = c.muted.tell [x] state ∧
      d.repliesLeft + reply.toList.length ≤ c.repliesLeft := by
  have hsame := (sameRoster_notify c x.id state).trans (sameRoster_takeReply _ x.id)
  have hmuted := (c.notify x.id state).muted_takeReply x.id
  have hleft := (c.notify x.id state).repliesLeft_takeReply x.id
  have hnotified : (c.notify x.id state).repliesLeft = c.repliesLeft := by
    unfold notify
    split <;> rfl
  rw [muted_notify hr hx] at hmuted
  rw [hnotified] at hleft
  exact ⟨_, _, rfl, hsame, hmuted, hleft⟩

/-- Deliveries of a state to subscribers, with others behind them, come to handing the state out in
a cascade, which makes `d` of `c` with the others and enough fuel left. -/
structure HandsOut (inside : List Caller) (state : State) (xs : List Subscriber)
    (rest : List (Nat × State)) (fuel : Nat) (c : Container) (answers : List (List Cascade))
    (d : Container) (left : Nat) : Prop where
  deliver : deliver fuel (xs.map (fun x => (x.id, state)) ++ rest) c = deliver left rest d
  fuel_le : left ≤ fuel
  room : rest.length + d.roster.length * d.repliesLeft ≤ left
  same : SameRoster c d
  muted : d.muted = (handOut inside state answers xs c.muted).1

namespace HandsOut

variable {d e e' : Container} {inside : List Caller} {state : State} {x : Subscriber}
  {xs : List Subscriber} {rest : List (Nat × State)} {fuel left left' : Nat}
  {answers answers' : List (List Cascade)}

/-- The first subscriber does not answer. -/
theorem silent (htaken : (c.notify x.id state).takeReply x.id = (none, d)) (hsame : SameRoster c d)
    (hmuted : d.muted = c.muted.tell [x] state)
    (h : HandsOut inside state xs rest fuel d answers e left) :
    HandsOut inside state (x :: xs) rest (fuel + 1) c ([] :: answers) e left := by
  refine ⟨?_, Nat.le_succ_of_le h.fuel_le, h.room, hsame.trans h.same, ?_⟩
  · rw [← h.deliver]
    simp only [List.map_cons, List.cons_append, Container.deliver, htaken]
  · rw [h.muted, hmuted]
    rfl

/-- The first subscriber answers: what the reply leads to comes before the others that are left. -/
theorem nested {reply : State} (htaken : (c.notify x.id state).takeReply x.id = (some reply, d))
    (hsame : SameRoster c d) (hmuted : d.muted = c.muted.tell [x] state)
    (hinner : HandsOut (inside ++ [.subscriber x.id]) (d.merge reply).state (d.merge reply).roster
      (xs.map (fun x => (x.id, state)) ++ rest) fuel (d.merge reply) answers e left)
    (houter : HandsOut inside state xs rest left e answers' e' left') :
    HandsOut inside state (x :: xs) rest (fuel + 1) c
      ([.update reply [] answers] :: answers') e' left' := by
  have hmerge : SameRoster d (d.merge reply) := sameRoster_of_subscribers rfl rfl
  refine ⟨?_, ?_, houter.room, ((hsame.trans hmerge).trans hinner.same).trans houter.same, ?_⟩
  · calc Container.deliver (fuel + 1) ((x :: xs).map (fun x => (x.id, state)) ++ rest) c
      _ = Container.deliver fuel
            ((d.merge reply).deliveries ++ (xs.map (fun x => (x.id, state)) ++ rest))
            (d.merge reply) := by
          simp only [List.map_cons, List.cons_append, Container.deliver, htaken]
      _ = Container.deliver left (xs.map (fun x => (x.id, state)) ++ rest) e := by
          rw [deliveries_eq]
          exact hinner.deliver
      _ = Container.deliver left' rest e' := houter.deliver
  · exact (houter.fuel_le.trans hinner.fuel_le).trans (Nat.le_succ _)
  · have hmerged : (d.merge reply).muted = (c.muted.tell [x] state).merge reply :=
      congrArg (·.merge reply) hmuted
    have hanswer : e.muted = (handOut (inside ++ [.subscriber x.id])
        (d.merge reply).muted.state answers (d.merge reply).muted.subscribers
        (d.merge reply).muted).1 := hinner.muted
    rw [houter.muted, hanswer, hmerged]
    rfl

end HandsOut

/-- The fuel suffices: a reply adds a delivery for each subscriber, and there are only so many
replies. -/
theorem handsOut_of_fuel (fuel : Nat) :
    ∀ (c : Container), c.Rostered → ∀ (inside : List Caller) (state : State)
      (xs : List Subscriber) (rest : List (Nat × State)), (∀ x ∈ xs, x ∈ c.roster) →
      xs.length + rest.length + c.roster.length * c.repliesLeft ≤ fuel →
      ∃ answers d left, HandsOut inside state xs rest fuel c answers d left := by
  induction fuel using Nat.strong_induction_on with
  | _ fuel ih =>
    intro c hr inside state xs rest hxs hfuel
    cases xs with
    | nil =>
      refine ⟨[[]], c, fuel, rfl, Nat.le_refl _, ?_, .refl c, rfl⟩
      simpa using hfuel
    | cons x xs =>
      obtain ⟨fuel, rfl⟩ : ∃ n, fuel = n + 1 := ⟨fuel - 1, by simp at hfuel; omega⟩
      rw [List.forall_mem_cons] at hxs
      obtain ⟨hx, hxs⟩ := hxs
      obtain ⟨reply, d, htaken, hsame, hmuted, hreplies⟩ := notify_takeReply hr hx state
      have hfewer := Nat.mul_le_mul_left c.roster.length hreplies
      rw [List.length_cons] at hfuel
      cases reply with
      | none =>
        have hroom : xs.length + rest.length + d.roster.length * d.repliesLeft ≤ fuel := by
          rw [hsame.roster]
          simp only [Option.toList_none, List.length_nil, Nat.add_zero] at hfewer
          omega
        obtain ⟨answers, e, left, h⟩ := ih fuel (Nat.lt_succ_self _) d (hsame.rostered hr) inside
          state xs rest (hsame.roster ▸ hxs) hroom
        exact ⟨_, _, _, h.silent htaken hsame hmuted⟩
      | some reply =>
        have hmerged : SameRoster c (d.merge reply) :=
          hsame.trans (sameRoster_of_subscribers rfl rfl)
        have hroom : (d.merge reply).roster.length +
            (xs.map (fun x => (x.id, state)) ++ rest).length +
            (d.merge reply).roster.length * (d.merge reply).repliesLeft ≤ fuel := by
          rw [hmerged.roster, List.length_append, List.length_map]
          show _ + _ + c.roster.length * d.repliesLeft ≤ fuel
          simp only [Option.toList_some, List.length_singleton, Nat.mul_succ] at hfewer
          omega
        -- the reply goes round first, and what is left of the fuel is for the others
        obtain ⟨answers, e, left, hinner⟩ := ih fuel (Nat.lt_succ_self _) (d.merge reply)
          (hmerged.rostered hr) (inside ++ [.subscriber x.id]) (d.merge reply).state
          (d.merge reply).roster (xs.map (fun x => (x.id, state)) ++ rest) (fun _ h => h) hroom
        have hkept := hmerged.trans hinner.same
        have hback := hinner.room
        rw [List.length_append, List.length_map] at hback
        obtain ⟨answers', e', left', houter⟩ := ih left (Nat.lt_succ_of_le hinner.fuel_le) e
          (hkept.rostered hr) inside state xs rest (hkept.roster ▸ hxs) hback
        exact ⟨_, _, _, hinner.nested htaken hsame hmuted houter⟩

/-- An update of a container is a cascade, in which each subscriber that is called answers with the
next of its replies. -/
theorem updateState_isCascade (h : c.Rostered) (u : State) :
    ∃ answered, (c.updateState u).muted = (run [] (.update u [] answered) c.muted).1 := by
  have hmerged : SameRoster c (c.merge u) := sameRoster_of_subscribers rfl rfl
  have hbound : (c.merge u).roster.length + 0 +
      (c.merge u).roster.length * (c.merge u).repliesLeft ≤ (c.merge u).deliveryBound := by
    rw [roster, List.length_map]
    show _ ≤ (c.merge u).subscribers.length * ((c.merge u).repliesLeft + 1)
    rw [Nat.mul_succ]
    omega
  obtain ⟨answered, d, left, hout⟩ := handsOut_of_fuel _ (c.merge u)
    (hmerged.rostered h) [] (c.merge u).state (c.merge u).roster [] (fun _ h => h) hbound
  have hend : deliver left [] d = d := by cases left <;> rfl
  have hdone : deliver (c.merge u).deliveryBound (c.merge u).deliveries (c.merge u) = d := by
    have hall := hout.deliver
    rwa [List.append_nil, ← deliveries_eq, hend] at hall
  refine ⟨answered, ?_⟩
  show (deliver (c.merge u).deliveryBound (c.merge u).deliveries (c.merge u)).muted = _
  rw [hdone, hout.muted]
  rfl

end Container

end ContainerHost
