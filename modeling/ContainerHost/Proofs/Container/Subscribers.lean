import ContainerHost.Proofs.Container.State
/-!
# Who hears of an update

A container gives each subscriber the next number and keeps the subscribers in the order in which
they came (`Rostered`). A subscriber goes when it is unsubscribed, or with all others when a stop, or
the stop inside of a restart, finds the container not stopped (`removes`). Subscribers that do not
call back are `Passive`; an update then hands the merged state to each of them in turn and does
nothing else, whoever of them fails (`updateState_eq`).

`standing` is said by history alone: it lists the subscriptions of a run that nothing takes off in
the rest of it. `relisted_act` is what one action does to the subscribers, and `roster_run` what a
run does.

What is proved: `heard_by_standing`.
-/

namespace ContainerHost

/-- The subscriber without the updates that it answers with. -/
def Subscriber.mute (x : Subscriber) : Subscriber := { x with replies := [] }

def Subscriber.handed (state : State) (x : Subscriber) : Notice := .delivered x.tag state

namespace Container

variable {c d e : Container}

def stateChanged (id : String) (state previous : State) : Notice :=
  .event ⟨Topic.stateChange.name, some id,
    .obj [("containerId", .str id), ("state", state.toJson), ("previousState", previous.toJson)]⟩

def reloaded (id : String) (snapshot : State) : Notice :=
  .event ⟨Topic.containerHotReload.name, some id,
    .obj [("containerId", .str id), ("preservedState", snapshot.toJson)]⟩

/-- Who listens, apart from what they answer. -/
def roster (c : Container) : List Subscriber := c.subscribers.map Subscriber.mute

/-- The numbers of the subscribers ascend, and none is ahead of the last that was given out. -/
structure Rostered (c : Container) : Prop where
  ascending : c.roster.Pairwise (·.id < ·.id)
  given : ∀ x ∈ c.roster, x.id ≤ c.lastSubscriber

/-- No subscriber updates the state itself. -/
def Passive (c : Container) : Prop := ∀ x ∈ c.subscribers, x.replies = []

theorem roster_of_passive (h : c.Passive) : c.roster = c.subscribers := by
  unfold roster
  conv_rhs => rw [← List.map_id c.subscribers]
  apply List.map_congr_left
  intro x hx
  have hnone : x.replies = [] := h x hx
  show { x with replies := [] } = x
  rw [← hnone]

/-! ## Deliveries -/

theorem Rostered.find? (h : c.Rostered) {x : Subscriber} (hx : x ∈ c.subscribers) :
    c.subscribers.find? (·.id == x.id) = some x := by
  have hascending := h.ascending
  rw [roster, List.pairwise_map] at hascending
  generalize c.subscribers = l at hx hascending
  induction l with
  | nil => cases hx
  | cons y l ih =>
    rw [List.pairwise_cons] at hascending
    obtain ⟨hfirst, hrest⟩ := hascending
    rcases List.mem_cons.mp hx with rfl | hx
    · simp
    · have hne : y.id ≠ x.id := Nat.ne_of_lt (hfirst x hx)
      rw [List.find?_cons_of_neg (by simpa using hne)]
      exact ih hx hrest

theorem takeReply_of_passive (h : c.Passive) (id : Nat) : c.takeReply id = (none, c) := by
  unfold takeReply
  cases hfind : c.subscribers.find? (·.id == id) with
  | none => rfl
  | some x =>
    have hnone : x.replies = [] := h x (List.mem_of_find?_eq_some hfind)
    have hsame : c.subscribers.map (fun t =>
        if t.id == id then { t with replies := t.replies.drop 1 } else t) = c.subscribers := by
      conv_rhs => rw [← List.map_id c.subscribers]
      apply List.map_congr_left
      intro t ht
      have hdone : t.replies = [] := h t ht
      split
      · show { t with replies := t.replies.drop 1 } = t
        rw [hdone, List.drop_nil, ← hdone]
      · rfl
    simp only [hnone, hsame, List.head?_nil, ite_self]

/-- Subscribers that do not call back are handed the state one after the other. -/
theorem deliver_of_passive (hr : c.Rostered) (hp : c.Passive) (state : State)
    {l : List Subscriber} (hl : ∀ x ∈ l, x ∈ c.subscribers) {fuel : Nat}
    (hfuel : l.length ≤ fuel) :
    deliver fuel (l.map fun x => (x.id, state)) c =
      { c with outbox := c.outbox ++ l.map (Subscriber.handed state) } := by
  induction l generalizing c fuel with
  | nil =>
    rw [List.map_nil, List.map_nil, List.append_nil]
    cases fuel <;> rfl
  | cons x l ih =>
    obtain ⟨fuel, rfl⟩ : ∃ n, fuel = n + 1 := ⟨fuel - 1, by simp at hfuel; omega⟩
    have hx : x ∈ c.subscribers := hl x List.mem_cons_self
    have hnotify : c.notify x.id state =
        { c with outbox := c.outbox ++ [x.handed state] } := by
      simp only [notify, hr.find? hx]
      rfl
    have htaken := takeReply_of_passive (c := c.notify x.id state) (hnotify ▸ hp) x.id
    have hless : l.length ≤ fuel := by simpa using hfuel
    have hrest := ih (c := c.notify x.id state) (hnotify ▸ ⟨hr.ascending, hr.given⟩)
      (hnotify ▸ hp) (hnotify ▸ fun y hy => hl y (List.mem_cons_of_mem _ hy))
      hless
    simp only [List.map_cons, deliver, htaken]
    rw [hrest, hnotify]
    simp

/-- An update of a container whose subscribers do not call back merges, announces the change, and
hands the merged state to each subscriber once, in their order. -/
theorem updateState_eq (hr : c.Rostered) (hp : c.Passive) (u : State) :
    c.updateState u =
      { c with
        state := c.state.merge u
        outbox := c.outbox ++ stateChanged c.id (c.state.merge u) c.state ::
          c.subscribers.map (Subscriber.handed (c.state.merge u)) } := by
  have hbound : c.subscribers.length ≤ (c.merge u).deliveryBound := by
    show c.subscribers.length ≤ c.subscribers.length * _
    exact Nat.le_mul_of_pos_right _ (Nat.succ_pos _)
  have hdeliver := deliver_of_passive (c := c.merge u) ⟨hr.ascending, hr.given⟩ hp
    (c.state.merge u) (l := c.subscribers) (fun x hx => hx) hbound
  unfold updateState
  show deliver _ (c.subscribers.map fun x => (x.id, c.state.merge u)) _ = _
  rw [hdeliver]
  show ({ c with
    state := c.state.merge u
    outbox := c.outbox ++ [stateChanged c.id (c.state.merge u) c.state] ++
      c.subscribers.map (Subscriber.handed (c.state.merge u)) } : Container) = _
  rw [List.append_assoc, List.singleton_append]

/-! ## What leaves the subscribers alone -/

/-- `d` has the subscribers of `c`, except for updates that they have answered with, and has given
out the same numbers. -/
structure SameRoster (c d : Container) : Prop where
  roster : d.roster = c.roster
  last : d.lastSubscriber = c.lastSubscriber
  passive : c.Passive → d.Passive

theorem SameRoster.refl (c : Container) : SameRoster c c := ⟨rfl, rfl, fun h => h⟩

theorem SameRoster.trans (h : SameRoster c d) (k : SameRoster d e) : SameRoster c e :=
  ⟨k.roster.trans h.roster, k.last.trans h.last, fun hp => k.passive (h.passive hp)⟩

theorem SameRoster.rostered (h : SameRoster c d) (hr : c.Rostered) : d.Rostered := by
  refine ⟨?_, ?_⟩
  · rw [h.roster]
    exact hr.ascending
  · rw [h.roster, h.last]
    exact hr.given

theorem sameRoster_of_subscribers (h : d.subscribers = c.subscribers)
    (hlast : d.lastSubscriber = c.lastSubscriber) : SameRoster c d := by
  refine ⟨congrArg (List.map Subscriber.mute) h, hlast, ?_⟩
  intro hp x hx
  rw [h] at hx
  exact hp x hx

theorem sameRoster_notify (c : Container) (id : Nat) (state : State) :
    SameRoster c (c.notify id state) := by
  unfold notify
  split <;> exact sameRoster_of_subscribers rfl rfl

theorem sameRoster_takeReply (c : Container) (id : Nat) : SameRoster c (c.takeReply id).2 := by
  refine ⟨?_, ?_, ?_⟩
  · unfold takeReply
    split
    · split
      · rfl
      · show (c.subscribers.map _).map Subscriber.mute = c.subscribers.map Subscriber.mute
        rw [List.map_map]
        apply List.map_congr_left
        intro x _
        show Subscriber.mute (if x.id == id then _ else x) = _
        split <;> rfl
    · rfl
  · unfold takeReply
    split
    · split <;> rfl
    · rfl
  · intro hp
    rw [takeReply_of_passive hp]
    exact hp

theorem sameRoster_deliver (fuel : Nat) (ds : List (Nat × State)) (c : Container) :
    SameRoster c (deliver fuel ds c) := by
  induction fuel generalizing ds c with
  | zero => exact .refl c
  | succ fuel ih =>
    cases ds with
    | nil => exact .refl c
    | cons d rest =>
      obtain ⟨id, state⟩ := d
      have htaken := (sameRoster_notify c id state).trans (sameRoster_takeReply _ id)
      simp only [deliver]
      generalize (c.notify id state).takeReply id = taken at htaken ⊢
      obtain ⟨_ | reply, d⟩ := taken
      · exact htaken.trans (ih rest d)
      · have hmerge : SameRoster d (d.merge reply) := sameRoster_of_subscribers rfl rfl
        exact (htaken.trans hmerge).trans (ih _ _)

theorem sameRoster_updateState (c : Container) (u : State) : SameRoster c (c.updateState u) := by
  have hmerge : SameRoster c (c.merge u) := sameRoster_of_subscribers rfl rfl
  exact hmerge.trans (sameRoster_deliver _ _ _)

theorem sameRoster_of_observed (h : Observed c d) : SameRoster c d := by
  obtain ⟨_, _, _, _, rfl, -⟩ := h
  exact sameRoster_of_subscribers rfl rfl

theorem sameRoster_settleCall (c : Container) (function : String)
    (result : Except Error (List Wasm.Value)) (now : Nat) (took : Duration) :
    SameRoster c (c.settleCall function result now took) := by
  obtain ⟨_, _, hc⟩ := c.settleCall_eq function result now took
  rw [hc]
  exact sameRoster_of_subscribers rfl rfl

theorem sameRoster_beginCall (c : Container) (function : String) (args : List Wasm.Value)
    (now : Nat) : SameRoster c (c.beginCall function args now).2 := by
  obtain ⟨_, _, _, _, _, hc⟩ := c.beginCall_eq function args now
  rw [hc]
  exact sameRoster_of_subscribers rfl rfl

theorem sameRoster_start (c : Container) (env : Surroundings) :
    SameRoster c (c.start env).2 := by
  unfold start boot
  cases c.sandbox.instantiate env c.module c.id <;> exact sameRoster_of_subscribers rfl rfl

theorem sameRoster_revive (c : Container) (snapshot : State) (env : Surroundings) :
    SameRoster c (c.revive snapshot env).2 := by
  have hstart := c.sameRoster_start env
  unfold revive
  generalize c.start env = started at hstart ⊢
  obtain ⟨e | u, d⟩ := started
  · exact hstart
  · have hput := d.sameRoster_updateState snapshot
    exact hstart.trans ⟨hput.roster, hput.last, hput.passive⟩

theorem sameRoster_endReload (c : Container) (r : Reload) : SameRoster c (c.endReload r) := by
  have hput := c.sameRoster_updateState r.snapshot
  unfold endReload
  split
  · exact ⟨hput.roster, hput.last, hput.passive⟩
  · exact sameRoster_of_subscribers rfl rfl

theorem subscribers_stop (c : Container) :
    c.stop.subscribers = (if c.status = .stopped then c.subscribers else []) ∧
      c.stop.lastSubscriber = c.lastSubscriber := by
  unfold stop
  split <;> exact ⟨rfl, rfl⟩

/-- A container that is revived puts its snapshot into an empty state, which is an update like any
other, and then says that it was restarted. -/
theorem outbox_revive (hr : c.Rostered) (hp : c.Passive) {snapshot : State} {env : Surroundings}
    (h : (c.revive snapshot env).1 = .ok ()) :
    (c.revive snapshot env).2.outbox =
      c.outbox ++ stateChanged c.id (Table.empty.merge snapshot) .empty ::
        c.subscribers.map (Subscriber.handed (Table.empty.merge snapshot)) ++
          [restarted c.id snapshot] := by
  have hstart := c.start_spec env
  have hsame := c.sameRoster_start env
  unfold revive at h ⊢
  generalize c.start env = started at h hstart hsame ⊢
  obtain ⟨e | u, d⟩ := started
  · cases h
  · obtain ⟨hstate, hid, hsubscribers, houtbox⟩ := hstart
    have hput := updateState_eq (hsame.rostered hr) (hsame.passive hp) snapshot
    rw [hstate, hid, hsubscribers, houtbox] at hput
    show (d.updateState snapshot).outbox ++ [restarted (d.updateState snapshot).id snapshot] = _
    rw [hput]

end Container

/-- A subscriber that comes does not update the state itself. -/
def Action.Quiet : Action → Prop
  | .subscribe _ _ replies => replies = []
  | _ => True

namespace Session

open Container

variable {s : Session}

/-! ## One action -/

def newcomers (s : Session) : Action → List Subscriber
  | .subscribe tag fails _ => [⟨s.container.lastSubscriber + 1, tag, fails, []⟩]
  | _ => []

theorem id_of_newcomer {a : Action} {x : Subscriber} (h : x ∈ s.newcomers a) :
    x.id = s.container.lastSubscriber + 1 := by
  cases a with
  | subscribe tag fails replies =>
    obtain rfl := List.mem_singleton.mp h
    rfl
  | _ => cases h

/-- An action takes the subscriber with a number off, if there is one: it is unsubscribed, or a stop
or a restart that is not kept waiting finds the container not stopped. -/
def removes (s : Session) (n : Nat) : Action → Bool
  | .unsubscribe m => n == m
  | .stop | .restart => s.holder.isNone && s.container.status != .stopped
  | _ => false

/-- Who listens after an action: those who did and are not taken off, and then who has come. -/
structure Relisted (s : Session) (a : Action) (t : Session) : Prop where
  roster : t.container.roster =
    s.container.roster.filter (fun x => !s.removes x.id a) ++ s.newcomers a
  last : t.container.lastSubscriber = s.container.lastSubscriber + (s.newcomers a).length
  passive : s.container.Passive → a.Quiet → t.container.Passive

/-- What is none of the subscribers' business. -/
theorem Relisted.of_same {a : Action} {t : Session} (h : SameRoster s.container t.container)
    (hremoves : ∀ n, s.removes n a = false) (hnew : s.newcomers a = []) : Relisted s a t := by
  refine ⟨?_, ?_, ?_⟩
  · simp [h.roster, hremoves, hnew]
  · simp [h.last, hnew]
  · intro hp _
    exact h.passive hp

theorem relisted_stop {f : Session → Session} (hf : (f s).container = s.container.stop)
    {a : Action} (ha : a = .stop ∨ a = .restart) : Relisted s a (s.whenFree f) := by
  obtain ⟨hsubscribers, hlast⟩ := s.container.subscribers_stop
  have hremoves (n : Nat) :
      s.removes n a = (s.holder.isNone && s.container.status != .stopped) := by
    rcases ha with rfl | rfl <;> rfl
  have hnew : s.newcomers a = [] := by rcases ha with rfl | rfl <;> rfl
  unfold whenFree
  cases hholder : s.holder with
  | some x => exact .of_same (.refl _) (by simp [hremoves, hholder]) hnew
  | none =>
    by_cases hstatus : s.container.status = .stopped
    · rw [if_pos hstatus] at hsubscribers
      refine .of_same ?_ (by simp [hremoves, hholder, hstatus]) hnew
      exact sameRoster_of_subscribers (hf ▸ hsubscribers) (hf ▸ hlast)
    · rw [if_neg hstatus] at hsubscribers
      refine ⟨?_, ?_, ?_⟩
      · show (f s).container.subscribers.map Subscriber.mute = _
        rw [hf, hsubscribers]
        simp [hremoves, hholder, hstatus, hnew]
      · show (f s).container.lastSubscriber = _
        rw [hf, hlast, hnew]
        rfl
      · intro _ _ x hx
        have hnone : x ∈ (f s).container.subscribers := hx
        rw [hf, hsubscribers] at hnone
        cases hnone

theorem relisted_act (s : Session) (a : Action) : Relisted s a (s.act a) := by
  cases a with
  | call function args now =>
    have hbegun := s.container.sameRoster_beginCall function args now
    refine .of_same ?_ (fun _ => rfl) rfl
    simp only [act, call]
    generalize s.container.beginCall function args now = begun at hbegun ⊢
    obtain ⟨_ | _, d⟩ := begun <;> exact hbegun
  | answer i now =>
    refine .of_same ?_ (fun _ => rfl) rfl
    simp only [act, answer]
    cases s.inside[i]? with
    | none => exact .refl _
    | some v => exact s.container.sameRoster_settleCall ..
  | update u => exact .of_same (s.container.sameRoster_updateState u) (fun _ => rfl) rfl
  | subscribe tag fails replies =>
    refine ⟨?_, rfl, ?_⟩
    · simp [act, subscribe, Container.roster, Subscriber.mute, removes, newcomers]
    · intro hp hquiet x hx
      rcases List.mem_append.mp hx with hx | hx
      · exact hp x hx
      · obtain rfl := List.mem_singleton.mp hx
        exact hquiet
  | unsubscribe id =>
    refine ⟨?_, rfl, ?_⟩
    · show (s.container.subscribers.filter (·.id != id)).map Subscriber.mute =
        s.container.roster.filter (fun x => !s.removes x.id (.unsubscribe id)) ++ []
      rw [List.append_nil, Container.roster, List.filter_map]
      rfl
    · intro hp _ x hx
      exact hp x (List.mem_of_mem_filter hx)
  | query q now =>
    exact .of_same (sameRoster_of_observed (observed_query _ now q)) (fun _ => rfl) rfl
  | stop => exact relisted_stop rfl (.inl rfl)
  | restart => exact relisted_stop rfl (.inr rfl)
  | wake =>
    refine .of_same ?_ (fun _ => rfl) rfl
    simp only [act, wake]
    split <;> exact sameRoster_of_subscribers rfl rfl
  | boot env =>
    refine .of_same ?_ (fun _ => rfl) rfl
    simp only [act, boot]
    split
    · exact sameRoster_revive _ _ env
    · exact .refl _
  | reload m digest =>
    refine .of_same ?_ (fun _ => rfl) rfl
    simp only [act, whenFree]
    split <;> exact .refl _
  | swap env =>
    refine .of_same ?_ (fun _ => rfl) rfl
    simp only [act, swap]
    split
    · split <;> exact sameRoster_of_subscribers rfl rfl
    · exact .refl _
  | restore =>
    refine .of_same ?_ (fun _ => rfl) rfl
    simp only [act, restore]
    split
    · exact sameRoster_endReload _ _
    · exact .refl _

theorem rostered_act (h : s.container.Rostered) (a : Action) : (s.act a).container.Rostered := by
  obtain ⟨hroster, hlast, -⟩ := s.relisted_act a
  have hold : ∀ x ∈ s.container.roster.filter (fun x => !s.removes x.id a),
      x.id ≤ s.container.lastSubscriber :=
    fun x hx => h.given x (List.mem_of_mem_filter hx)
  refine ⟨?_, ?_⟩
  · rw [hroster, List.pairwise_append]
    refine ⟨h.ascending.filter _, ?_, ?_⟩
    · cases a with
      | subscribe tag fails replies => exact List.pairwise_singleton _ _
      | _ => exact List.Pairwise.nil
    · intro x hx y hy
      have hle := hold x hx
      have hnew := id_of_newcomer hy
      omega
  · intro x hx
    rw [hroster] at hx
    rcases List.mem_append.mp hx with hx | hx
    · have hle := hold x hx
      omega
    · have hpos := List.length_pos_of_mem hx
      have hnew := id_of_newcomer hx
      omega

/-! ## Runs -/

theorem rostered_run (h : s.container.Rostered) (as : List Action) :
    (s.run as).container.Rostered :=
  run_induction (P := fun t => t.container.Rostered) (fun _ a h => rostered_act h a) h as

theorem passive_run (h : s.container.Passive) {as : List Action} (has : ∀ a ∈ as, a.Quiet) :
    (s.run as).container.Passive := by
  induction as generalizing s with
  | nil => exact h
  | cons a as ih =>
    rw [List.forall_mem_cons] at has
    exact ih ((s.relisted_act a).passive h has.1) has.2

/-- Nothing takes the subscriber with a number off in the course of a run. -/
def stays (n : Nat) : Session → List Action → Bool
  | _, [] => true
  | s, a :: as => !s.removes n a && stays n (s.act a) as

/-- The subscribers that come in the course of a run and are not taken off in the rest of it, in the
order in which they come. -/
def standing : Session → List Action → List Subscriber
  | _, [] => []
  | s, a :: as =>
    (s.newcomers a).filter (fun x => stays x.id (s.act a) as) ++ standing (s.act a) as

/-- The subscribers after a run are those of before whom nothing has taken off, and then those who
have come and stand. -/
theorem roster_run (s : Session) (as : List Action) :
    (s.run as).container.roster =
      s.container.roster.filter (fun x => stays x.id s as) ++ s.standing as := by
  induction as generalizing s with
  | nil => simp [stays, standing]
  | cons a as ih =>
    rw [run_cons, ih, (s.relisted_act a).roster, List.filter_append, List.filter_filter, standing,
      List.append_assoc]
    congr 1
    apply List.filter_congr
    intro x _
    rw [stays, Bool.and_comm]

theorem last_le_run (s : Session) (as : List Action) :
    s.container.lastSubscriber ≤ (s.run as).container.lastSubscriber := by
  induction as generalizing s with
  | nil => exact Nat.le_refl _
  | cons a as ih =>
    have hlast := (s.relisted_act a).last
    have hrest := ih (s.act a)
    rw [run_cons]
    omega

/-- Who comes in the course of a run gets a number that was not given out before. -/
theorem last_lt_of_standing (s : Session) (as : List Action) :
    ∀ x ∈ s.standing as, s.container.lastSubscriber < x.id := by
  induction as generalizing s with
  | nil => simp [standing]
  | cons a as ih =>
    have hlast := (s.relisted_act a).last
    intro x hx
    rcases List.mem_append.mp hx with hx | hx
    · have hnew := id_of_newcomer (List.mem_of_mem_filter hx)
      omega
    · have hrest := ih (s.act a) x hx
      omega

theorem subscribers_created (id name : String) (sandbox : Guest.Sandbox) (module : Guest.Compiled)
    (digest : Option String) (env : Surroundings) :
    (created id name sandbox module digest env).container.subscribers = [] := by
  unfold created opened Container.start Container.boot
  cases hguest : sandbox.instantiate env module id <;>
    simp [Container.raw, hguest, Container.install, Container.setStatus]

theorem roster_created (id name : String) (sandbox : Guest.Sandbox) (module : Guest.Compiled)
    (digest : Option String) (env : Surroundings) :
    (created id name sandbox module digest env).container.roster = [] :=
  congrArg (List.map Subscriber.mute) (subscribers_created id name sandbox module digest env)

theorem rostered_created (id name : String) (sandbox : Guest.Sandbox) (module : Guest.Compiled)
    (digest : Option String) (env : Surroundings) :
    (created id name sandbox module digest env).container.Rostered := by
  have hnone := roster_created id name sandbox module digest env
  refine ⟨?_, ?_⟩
  · rw [hnone]
    exact List.Pairwise.nil
  · rw [hnone]
    exact fun x hx => nomatch hx

theorem passive_created (id name : String) (sandbox : Guest.Sandbox) (module : Guest.Compiled)
    (digest : Option String) (env : Surroundings) :
    (created id name sandbox module digest env).container.Passive := by
  intro x hx
  rw [subscribers_created] at hx
  cases hx

/-- A number is given out once: whoever comes later gets a higher one. -/
theorem number_lt (s : Session) (tag tag' : String) (fails fails' : Bool)
    (replies replies' : List State) (mid : List Action) :
    (s.container.subscribe tag fails replies).1 <
      ((s.run (.subscribe tag fails replies :: mid)).container.subscribe tag' fails'
        replies').1 :=
  Nat.lt_succ_of_le ((s.act (.subscribe tag fails replies)).last_le_run mid)

/-- A subscriber is still there at the end of a run when nothing took it off since it came. -/
theorem there_iff_stays (s : Session) (tag : String) (fails : Bool) (replies : List State)
    (after : List Action) :
    let n := (s.container.subscribe tag fails replies).1
    (s.run (.subscribe tag fails replies :: after)).container.subscribers.any (·.id == n) =
      stays n (s.act (.subscribe tag fails replies)) after := by
  intro n
  let t := s.act (.subscribe tag fails replies)
  have hthere : t.container.roster = s.container.roster ++ [⟨n, tag, fails, []⟩] := by
    have hroster := (s.relisted_act (.subscribe tag fails replies)).roster
    simp only [removes, Bool.not_false, List.filter_true] at hroster
    exact hroster
  have hlater := t.last_lt_of_standing after
  have hmute : (t.run after).container.subscribers.any (·.id == n) =
      (t.run after).container.roster.any (·.id == n) := by
    rw [Container.roster, List.any_map]
    rfl
  show (t.run after).container.subscribers.any (·.id == n) = stays n t after
  rw [hmute, roster_run, hthere, Bool.eq_iff_iff, List.any_eq_true]
  constructor
  · rintro ⟨x, hx, hid⟩
    rw [beq_iff_eq] at hid
    rcases List.mem_append.mp hx with hx | hx
    · have hstays := (List.mem_filter.mp hx).2
      rwa [hid] at hstays
    · have hlt := hlater x hx
      have hle : n ≤ t.container.lastSubscriber := Nat.le_refl _
      omega
  · intro hstays
    refine ⟨⟨n, tag, fails, []⟩, ?_, beq_self_eq_true n⟩
    apply List.mem_append_left
    exact List.mem_filter.mpr ⟨List.mem_append_right _ (List.mem_singleton.mpr rfl), hstays⟩

/-! ## Whole lives -/

/-- Whatever happens to a container from its creation on, if its subscribers do not call back:
  - those who are there are those who have come and whom nothing has taken off since, in the order in
    which they came;
  - an update hands the whole merged state to each of them once and in this order, whether they fail
    or not, and so does the put-back of a restart or of a hot reload;
  - taking a subscriber off leaves all others, and finds it exactly when nothing has taken it off
    since it came; no other subscriber ever gets its number. -/
theorem heard_by_standing (id name : String) (sandbox : Guest.Sandbox) (module : Guest.Compiled)
    (digest : Option String) (env : Surroundings) (actions : List Action)
    (hquiet : ∀ a ∈ actions, a.Quiet) :
    let made := created id name sandbox module digest env
    let s := made.run actions
    let here := made.standing actions
    (s.container.subscribers = here ∧ here.Pairwise (·.id < ·.id)) ∧
    (∀ u, let merged := s.container.state.merge u
      (s.act (.update u)).container.state = merged ∧
      (s.act (.update u)).container.outbox =
        s.container.outbox ++ stateChanged s.container.id merged s.container.state ::
          here.map (Subscriber.handed merged)) ∧
    (∀ snapshot env, s.holder = some (.booting snapshot) →
      (s.container.revive snapshot env).1 = .ok () →
      (s.act (.boot env)).container.outbox =
        s.container.outbox ++ stateChanged s.container.id (Table.empty.merge snapshot) .empty ::
          here.map (Subscriber.handed (Table.empty.merge snapshot)) ++
            [restarted s.container.id snapshot]) ∧
    (∀ r, s.holder = some (.reloaded r) → r.wasRunning = true →
      let merged := s.container.state.merge r.snapshot
      (s.act .restore).container.outbox =
        s.container.outbox ++ stateChanged s.container.id merged s.container.state ::
          here.map (Subscriber.handed merged) ++ [reloaded s.container.id r.snapshot]) ∧
    (∀ n, (s.container.unsubscribe n).2.subscribers = here.filter (·.id != n)) ∧
    ∀ before tag fails replies after, actions = before ++ .subscribe tag fails replies :: after →
      let t := made.run before
      let n := (t.container.subscribe tag fails replies).1
      (s.container.unsubscribe n).1 = stays n (t.act (.subscribe tag fails replies)) after ∧
      ∀ mid tag' fails' replies' rest, after = mid ++ .subscribe tag' fails' replies' :: rest →
        n < ((t.run (.subscribe tag fails replies :: mid)).container.subscribe tag' fails'
          replies').1 := by
  intro made s here
  have hnone : made.container.roster = [] := roster_created id name sandbox module digest env
  have hrostered : s.container.Rostered :=
    rostered_run (rostered_created id name sandbox module digest env) actions
  have hpassive : s.container.Passive :=
    passive_run (passive_created id name sandbox module digest env) hquiet
  have hroster : s.container.roster = here := by
    have hrun := made.roster_run actions
    rwa [hnone, List.filter_nil, List.nil_append] at hrun
  -- nobody calls back, so that the roster shows all that there is of a subscriber
  have hhere : s.container.subscribers = here := (roster_of_passive hpassive).symm.trans hroster
  have hupdate (u : State) := updateState_eq hrostered hpassive u
  rw [hhere] at hupdate
  refine ⟨⟨hhere, hroster ▸ hrostered.ascending⟩, ?_, ?_, ?_, ?_, ?_⟩
  · intro u merged
    refine ⟨?_, ?_⟩
    · show (s.container.updateState u).state = merged
      rw [hupdate u]
    · show (s.container.updateState u).outbox = _
      rw [hupdate u]
  · intro snapshot env hholder hok
    have hrevived := outbox_revive hrostered hpassive hok
    rw [hhere] at hrevived
    simpa only [act, boot, hholder] using hrevived
  · intro r hholder hwas merged
    simp only [act, restore, hholder, endReload, if_pos hwas]
    show (s.container.updateState r.snapshot).outbox ++
      [reloaded (s.container.updateState r.snapshot).id r.snapshot] = _
    rw [hupdate r.snapshot]
  · intro n
    show s.container.subscribers.filter (·.id != n) = _
    rw [hhere]
  · rintro before tag fails replies after rfl t n
    have hs : s = t.run (.subscribe tag fails replies :: after) := List.foldl_append
    refine ⟨?_, ?_⟩
    · show s.container.subscribers.any (·.id == n) = _
      rw [hs]
      exact t.there_iff_stays tag fails replies after
    · rintro mid tag' fails' replies' rest rfl
      exact t.number_lt tag tag' fails fails' replies replies' mid

/-- Two subscribers of whom the first fails, a stop, a third subscriber, and a late attempt to take
the first one off. -/
def comingsAndGoings : List Action :=
  [.subscribe "A" true [], .subscribe "B" false [], .stop, .subscribe "C" false [], .unsubscribe 1]

/-- Only the third one hears of an update, and only the third one can still be taken off. -/
theorem heard_after_stop :
    let s := fresh.run comingsAndGoings
    (∀ a ∈ comingsAndGoings, a.Quiet) ∧
    (s.act (.update firstValue)).container.outbox =
      s.container.outbox ++ [stateChanged "unit-1" (Table.empty.merge firstValue) .empty,
        .delivered "C" (Table.empty.merge firstValue)] ∧
    (s.container.unsubscribe 1).1 = false ∧ (s.container.unsubscribe 2).1 = false ∧
    (s.container.unsubscribe 3).1 = true := by
  intro s
  have hquiet : ∀ a ∈ comingsAndGoings, a.Quiet := by
    simp [comingsAndGoings, Action.Quiet]
  obtain ⟨-, hupdate, -, -, -, hnumbers⟩ := heard_by_standing "unit-1" "unit"
    unitSandbox ⟨1, .empty⟩ none ⟨.ofDirs [], 0⟩ comingsAndGoings hquiet
  refine ⟨hquiet, (hupdate firstValue).2, ?_, ?_, ?_⟩
  · exact (hnumbers [] "A" true [] _ rfl).1
  · exact (hnumbers [.subscribe "A" true []] "B" false [] _ rfl).1
  · exact (hnumbers [.subscribe "A" true [], .subscribe "B" false [], .stop] "C" false [] _ rfl).1

end Session
end ContainerHost
