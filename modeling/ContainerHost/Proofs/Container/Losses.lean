import ContainerHost.Proofs.Container.Lifecycle
import ContainerHost.Proofs.Container.State
/-!
# Updates between the steps of a hot reload

A hot reload remembers the state, makes the new guest, puts it in, and merges what it remembered
over what is there by then. Updates do not wait for it, so that they may come anywhere between these
steps (`Overlap`). What one of them says of a name that the remembered state has is then written
over, and stays so unless a later update has the name, too (`Undone`).

`allMerged` lists the updates of a run in the order in which they are merged. It does not matter
whose they are, or how the deliveries to subscribers lie between the merges: the state depends on
the merges alone.

What is proved: `lossless_iff_nothing_undone`.
-/

namespace ContainerHost

namespace Table

variable {α : Type} {base : Table α} {between after : List (Table α)} {k : String}

/-- What the updates `between` say of a name is written over by another value that `base` has of it,
and no update `after` has the name. -/
def Undone (base : Table α) (between after : List (Table α)) (k : String) : Prop :=
  (∃ v w, base.get? k = some v ∧ between.reverse.findSome? (·.get? k) = some w ∧ v ≠ w) ∧
    ∀ u ∈ after, u.get? k = none

/-- The updates `between`, then `base` once more, then the updates `after`. -/
def putBack (base : Table α) (between after : List (Table α)) : Table α :=
  after.foldl merge ((between.foldl merge base).merge base)

theorem get?_putBack (hbase : base.Ordered) (hbetween : ∀ u ∈ between, u.Ordered)
    (hafter : ∀ u ∈ after, u.Ordered) (k : String) :
    (base.putBack between after).get? k =
      (after.reverse.findSome? (·.get? k)).or
        ((base.get? k).or (between.reverse.findSome? (·.get? k))) := by
  have hagain (x y : Option α) : x.or (y.or x) = x.or y := by cases x <;> simp
  unfold putBack
  rw [get?_foldl_merge _ hafter, get?_merge _ hbase, get?_foldl_merge _ hbetween, hagain]

theorem get?_foldl_merge_append (hbetween : ∀ u ∈ between, u.Ordered)
    (hafter : ∀ u ∈ after, u.Ordered) (k : String) :
    ((between ++ after).foldl merge base).get? k =
      (after.reverse.findSome? (·.get? k)).or
        ((between.reverse.findSome? (·.get? k)).or (base.get? k)) := by
  rw [List.foldl_append, get?_foldl_merge _ hafter, get?_foldl_merge _ hbetween]

/-- A name that is undone stands for what it stood for at first, where the updates say otherwise. -/
theorem get?_of_undone (hbase : base.Ordered) (hbetween : ∀ u ∈ between, u.Ordered)
    (hafter : ∀ u ∈ after, u.Ordered) (h : Undone base between after k) :
    (base.putBack between after).get? k = base.get? k ∧
      ((between ++ after).foldl merge base).get? k ≠ base.get? k := by
  obtain ⟨⟨v, w, hv, hw, hne⟩, hnone⟩ := h
  have hlater : after.reverse.findSome? (·.get? k) = none := by
    rw [List.findSome?_eq_none_iff]
    intro u hu
    exact hnone u (List.mem_reverse.mp hu)
  rw [get?_putBack hbase hbetween hafter, get?_foldl_merge_append hbetween hafter, hlater, hv, hw]
  refine ⟨rfl, ?_⟩
  intro heq
  exact hne (Option.some.inj heq).symm

/-- Every other name stands for what the updates say. -/
theorem get?_of_not_undone (hbase : base.Ordered) (hbetween : ∀ u ∈ between, u.Ordered)
    (hafter : ∀ u ∈ after, u.Ordered) (h : ¬ Undone base between after k) :
    (base.putBack between after).get? k =
      ((between ++ after).foldl merge base).get? k := by
  rw [get?_putBack hbase hbetween hafter, get?_foldl_merge_append hbetween hafter]
  cases hlater : after.reverse.findSome? (·.get? k) with
  | some _ => rfl
  | none =>
    cases hv : base.get? k with
    | none => simp
    | some v =>
      cases hw : between.reverse.findSome? (·.get? k) with
      | none => rfl
      | some w =>
        have hsame : v = w := by
          by_contra hne
          apply h
          refine ⟨⟨v, w, hv, hw, hne⟩, ?_⟩
          intro u hu
          exact List.findSome?_eq_none_iff.mp hlater u (List.mem_reverse.mpr hu)
        rw [hsame]

end Table

namespace Session

variable {s : Session}

/-! ## Plain actions -/

theorem state_act_of_plain (s : Session) {a : Action} (ha : a.Plain) :
    (s.act a).container.state = (s.merged a).foldl Table.merge s.container.state := by
  cases a with
  | call function args now =>
    obtain ⟨_, _, _, _, _, hc⟩ := s.container.beginCall_eq function args now
    have hstate : (s.container.beginCall function args now).2.state = s.container.state := by
      rw [hc]
    simp only [act, call]
    generalize s.container.beginCall function args now = begun at hstate ⊢
    obtain ⟨_ | _, d⟩ := begun <;> exact hstate
  | answer i now =>
    simp only [act, answer]
    cases s.inside[i]? with
    | none => rfl
    | some v =>
      obtain ⟨_, _, hc⟩ := s.container.settleCall_eq v.function v.result now v.took
      have hstate := congrArg Container.state hc
      exact hstate
  | update u => exact s.container.state_updateState u
  | subscribe tag fails replies => rfl
  | unsubscribe id => rfl
  | query q now => exact Container.state_of_observed (Container.observed_query s.container now q)
  | _ => exact ha.elim

/-- `t` is what plain actions with these updates make of `s`. -/
structure Merges (updates : List State) (s t : Session) : Prop where
  holder : t.holder = s.holder
  status : t.container.status = s.container.status
  state : t.container.state = updates.foldl Table.merge s.container.state

theorem merges_run {as : List Action} (has : ∀ a ∈ as, a.Plain) :
    Merges (s.allMerged as) s (s.run as) := by
  induction as generalizing s with
  | nil => exact ⟨rfl, rfl, rfl⟩
  | cons a as ih =>
    rw [List.forall_mem_cons] at has
    obtain ⟨ha, hrest⟩ := has
    obtain ⟨hholder, hstill⟩ := s.still_act ha
    have hstate := s.state_act_of_plain ha
    have hrun := ih (s := s.act a) hrest
    refine ⟨hrun.holder.trans hholder, hrun.status.trans hstill.status, ?_⟩
    rw [allMerged, List.foldl_append, ← hstate]
    exact hrun.state

theorem allMerged_append (s : Session) (as bs : List Action) :
    s.allMerged (as ++ bs) = s.allMerged as ++ (s.run as).allMerged bs := by
  induction as generalizing s with
  | nil => rfl
  | cons a as ih =>
    rw [List.cons_append, allMerged, allMerged, ih, List.append_assoc]
    rfl

theorem run_append (s : Session) (as bs : List Action) :
    s.run (as ++ bs) = (s.run as).run bs := List.foldl_append

/-! ## Hot reloads with others between their steps -/

/-- A hot reload, with what comes while it makes its guest, while the guest is in and the state is
not put back, and behind it. -/
structure Overlap where
  module : Guest.Compiled
  digest : Option String
  env : Surroundings
  first : List Action
  second : List Action
  later : List Action

namespace Overlap

variable {o : Overlap}

/-- What happens before the guest is made. -/
def making (o : Overlap) : List Action := .reload o.module o.digest :: o.first

/-- What happens before the state is put back. -/
def before (o : Overlap) : List Action := o.making ++ .swap o.env :: o.second

/-- What happens from the put-back on. -/
def rest (o : Overlap) : List Action := .restore :: o.later

def actions (o : Overlap) : List Action := o.before ++ o.rest

/-- No other lifecycle operation is part of it. -/
structure Plain (o : Overlap) : Prop where
  first : ∀ a ∈ o.first, a.Plain
  second : ∀ a ∈ o.second, a.Plain
  later : ∀ a ∈ o.later, a.Plain

/-- The guest of the new module cannot be made. -/
def Fails (o : Overlap) (s : Session) : Prop :=
  ∃ e, (s.run o.making).container.reloadedGuest o.module o.env = .error e

end Overlap

/-- The state is in the end what the updates, in the order in which they were merged, make of the
one that there was. -/
def Lossless (s : Session) (as : List Action) : Prop :=
  (s.run as).container.state = (s.allMerged as).foldl Table.merge s.container.state

section

variable {o : Overlap}

/-- The guest is about to be made, over the state that the updates so far have made. -/
theorem merges_making (hfree : s.holder = none) (hrun : s.container.status = .running)
    (ho : o.Plain) :
    (s.run o.making).holder =
        some (.reloading ⟨true, s.container.state⟩ o.module o.digest) ∧
      (s.run o.making).container.state =
        (s.allMerged o.making).foldl Table.merge s.container.state := by
  have hact : s.act (.reload o.module o.digest) = s.reload o.module o.digest := by
    simp [act, whenFree, hfree]
  have htaken : s.container.beginReload = ⟨true, s.container.state⟩ := by
    simp [Container.beginReload, hrun]
  have hfirst := merges_run (s := s.reload o.module o.digest) ho.first
  unfold Overlap.making
  rw [run_cons, allMerged, hact]
  refine ⟨hfirst.holder.trans ?_, hfirst.state⟩
  show some (Holder.reloading s.container.beginReload o.module o.digest) = _
  rw [htaken]

/-- The updates before the put-back, with what the hot reload waits for then. -/
theorem merges_before (hfree : s.holder = none) (hrun : s.container.status = .running)
    (ho : o.Plain) :
    (s.run o.before).container.state =
        (s.allMerged o.before).foldl Table.merge s.container.state ∧
      (o.Fails s → (s.run o.before).holder = none) ∧
      (¬ o.Fails s → (s.run o.before).holder = some (.reloaded ⟨true, s.container.state⟩)) := by
  obtain ⟨hholder, hstate⟩ := merges_making hfree hrun ho
  have hrunBefore : s.run o.before = ((s.run o.making).act (.swap o.env)).run o.second :=
    run_append s o.making _
  have hsecond := merges_run (s := (s.run o.making).act (.swap o.env)) ho.second
  have hkept : ((s.run o.making).act (.swap o.env)).container.state =
      (s.run o.making).container.state := by
    simp only [act, swap, hholder]
    split <;> rfl
  rw [hrunBefore]
  refine ⟨?_, ?_, ?_⟩
  · rw [hsecond.state, hkept, hstate, ← List.foldl_append]
    show _ = (s.allMerged (o.making ++ _)).foldl _ _
    rw [allMerged_append]
    rfl
  · rintro ⟨e, he⟩
    rw [hsecond.holder]
    simp only [act, swap, hholder, he]
  · intro hmade
    rw [hsecond.holder]
    simp only [act, swap, hholder]
    cases hguest : (s.run o.making).container.reloadedGuest o.module o.env with
    | error e => exact absurd ⟨e, hguest⟩ hmade
    | ok g => rfl

/-- The state is put back over what the updates have made by then. -/
theorem state_overlap (hfree : s.holder = none) (hrun : s.container.status = .running)
    (ho : o.Plain) (hmade : ¬ o.Fails s) :
    (s.run o.actions).container.state =
      s.container.state.putBack (s.allMerged o.before) ((s.run o.before).allMerged o.rest) := by
  obtain ⟨hstate, -, hmade'⟩ := merges_before hfree hrun ho
  have hholder := hmade' hmade
  have hput : ((s.run o.before).act .restore).container.state =
      ((s.run o.before).merged .restore).foldl Table.merge
        ((s.run o.before).container.state.merge s.container.state) := by
    simp only [act, restore, merged, hholder, Container.endReload]
    exact Container.state_updateState _ _
  have hlater := merges_run (s := (s.run o.before).act .restore) ho.later
  show (s.run (o.before ++ .restore :: o.later)).container.state = _
  rw [run_append, run_cons, hlater.state, hput, hstate, ← List.foldl_append]
  rfl

/-- A hot reload that makes no guest puts nothing back. -/
theorem lossless_of_fails (hfree : s.holder = none) (hrun : s.container.status = .running)
    (ho : o.Plain) (hfails : o.Fails s) : s.Lossless o.actions := by
  obtain ⟨hstate, hnone, -⟩ := merges_before hfree hrun ho
  have hholder := hnone hfails
  have hskip : (s.run o.before).act .restore = s.run o.before := by
    simp only [act, restore, hholder]
  have hquiet : (s.run o.before).merged .restore = [] := by
    simp only [merged, hholder]
  have hlater := merges_run (s := s.run o.before) ho.later
  show (s.run (o.before ++ .restore :: o.later)).container.state =
    (s.allMerged (o.before ++ .restore :: o.later)).foldl _ _
  rw [run_append, run_cons, allMerged_append, allMerged, hskip, hquiet, List.nil_append,
    List.foldl_append, ← hstate]
  exact hlater.state

/-- Whatever updates come between the steps of a hot reload of a running container: no update is
lost exactly if its guest cannot be made or no name is undone, which is one that the state had when
the hot reload remembered it, that updates before the put-back gave another value, and that no
update from the put-back on has. A name that is undone stands in the end for what it stood for at
first, and every other name for what the last update says that has it. -/
theorem lossless_iff_nothing_undone (s : Session) (o : Overlap) (hfree : s.holder = none)
    (hrun : s.container.status = .running) (hordered : s.container.state.Ordered)
    (ho : o.Plain) (hupdates : ∀ u ∈ s.allMerged o.actions, u.Ordered) :
    let final := (s.run o.actions).container.state
    let due := (s.allMerged o.actions).foldl Table.merge s.container.state
    let undone := s.container.state.Undone (s.allMerged o.before)
      ((s.run o.before).allMerged o.rest)
    (s.Lossless o.actions ↔ o.Fails s ∨ ∀ k, ¬ undone k) ∧
    (¬ o.Fails s → ∀ k,
      (undone k → final.get? k = s.container.state.get? k ∧
        due.get? k ≠ s.container.state.get? k) ∧
      (¬ undone k → final.get? k = due.get? k)) := by
  intro final due undone
  have hall : s.allMerged o.actions =
      s.allMerged o.before ++ (s.run o.before).allMerged o.rest := allMerged_append s _ _
  rw [hall, List.forall_mem_append] at hupdates
  obtain ⟨hbetween, hafter⟩ := hupdates
  have hnames (hmade : ¬ o.Fails s) (k : String) :
      (undone k → final.get? k = s.container.state.get? k ∧
        due.get? k ≠ s.container.state.get? k) ∧
      (¬ undone k → final.get? k = due.get? k) := by
    simp only [final, due]
    rw [state_overlap hfree hrun ho hmade, hall]
    refine ⟨?_, ?_⟩
    · intro hundone
      exact Table.get?_of_undone hordered hbetween hafter hundone
    · intro hundone
      exact Table.get?_of_not_undone hordered hbetween hafter hundone
  refine ⟨⟨?_, ?_⟩, hnames⟩
  · intro hlossless
    by_cases hfails : o.Fails s
    · exact .inl hfails
    · refine .inr ?_
      intro k hundone
      -- a name that is undone would show the loss
      obtain ⟨hfinal, hdue⟩ := (hnames hfails k).1 hundone
      apply hdue
      have hsame : final = due := hlossless
      rw [← hsame]
      exact hfinal
  · rintro (hfails | hnone)
    · exact lossless_of_fails hfree hrun ho hfails
    · by_cases hfails : o.Fails s
      · exact lossless_of_fails hfree hrun ho hfails
      · show final = due
        apply Table.ext_of_ordered
        · simp only [final]
          rw [state_overlap hfree hrun ho hfails]
          exact Table.ordered_foldl_merge
            (Table.ordered_merge (Table.ordered_foldl_merge hordered _) _) _
        · exact Table.ordered_foldl_merge hordered _
        · intro k
          exact (hnames hfails k).2 (hnone k)

end

def valued : Session := fresh.act (.update firstValue)

/-- A second value while the guest of a hot reload is made, and a value for another name behind the
hot reload. -/
def overtaken : Overlap :=
  ⟨⟨1, .empty⟩, none, ⟨.ofDirs [], 0⟩, [.update secondValue], [], [.update (.ofList [("c", .nat 3)])]⟩

theorem nat_one_ne_nat_two : Json.Value.nat 1 ≠ .nat 2 :=
  Json.Value.nat_injective.ne (by decide)

theorem plain_overtaken : overtaken.Plain := by
  refine ⟨?_, ?_, ?_⟩ <;> simp [overtaken, Action.Plain]

/-- The guest is made, and the second value is lost. -/
theorem not_lossless_overtaken :
    valued.holder = none ∧ valued.container.status = .running ∧ overtaken.Plain ∧
    valued.allMerged overtaken.actions = [secondValue, .ofList [("c", .nat 3)]] ∧
    ¬ valued.Lossless overtaken.actions := by
  refine ⟨rfl, rfl, plain_overtaken, rfl, ?_⟩
  intro hlossless
  have hname : some (Json.Value.nat 1) = some (.nat 2) := congrArg (·.get? "b") hlossless
  exact nat_one_ne_nat_two (Option.some.inj hname)

/-- The first value stands again under the name that the second value had, and the value that came
later is there. -/
theorem undone_overtaken :
    let final := (valued.run overtaken.actions).container.state
    let due := (valued.allMerged overtaken.actions).foldl Table.merge valued.container.state
    final.get? "b" = some (.nat 1) ∧ due.get? "b" ≠ some (.nat 1) ∧
    final.get? "c" = due.get? "c" ∧ due.get? "c" = some (.nat 3) := by
  intro final due
  have hmade : ¬ overtaken.Fails valued := by
    rintro ⟨e, he⟩
    cases he
  obtain ⟨-, hnames⟩ := lossless_iff_nothing_undone valued overtaken rfl rfl (by decide)
    plain_overtaken (by decide)
  have hundone : valued.container.state.Undone (valued.allMerged overtaken.before)
      ((valued.run overtaken.before).allMerged overtaken.rest) "b" :=
    ⟨⟨.nat 1, .nat 2, rfl, rfl, nat_one_ne_nat_two⟩, by decide⟩
  obtain ⟨hfinal, hdue⟩ := (hnames hmade "b").1 hundone
  refine ⟨hfinal, hdue, (hnames hmade "c").2 ?_, rfl⟩
  rintro ⟨⟨v, w, hv, -⟩, -⟩
  cases hv

end Session
end ContainerHost
