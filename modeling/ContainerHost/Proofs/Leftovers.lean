import ContainerHost.Proofs.Pool
/-!
# Pools with containers left over

A pool that is used on when its containers were given up still has them. `y.Atop left y'` says that
`y'` is `y` with such containers of `left` besides its own. They do not report any more, so that time
passes in the same way in both, and whatever is done with a container of `y` is done in the same way
in `y'`.
-/

namespace ContainerHost.Pool

/-- The container reports its metrics regularly. -/
def ticks (c : Container) : Bool := c.ticker.isSome

/-- `y'` is `y` with containers of `left` that do not report. -/
structure Atop (y left y' : Pool) : Prop where
  clock : y'.clock = y.clock
  outside : y'.outside = y.outside
  stamps : y'.stamps = y.stamps
  heard : y'.heard = y.heard
  ordered : y.containers.Ordered
  ordered' : y'.containers.Ordered
  containers : ∀ id, y'.get? id = y.get? id ∨
    (left.get? id).isSome ∧ y.get? id = none ∧ ∀ c, y'.get? id = some c → c.ticker = none

namespace Atop

variable {y y' left : Pool} {id : String}

theorem get?_of_isSome (h : y.Atop left y') (hid : (y.get? id).isSome) :
    y'.get? id = y.get? id := by
  rcases h.containers id with heq | ⟨-, hnone, -⟩
  · exact heq
  · rw [hnone] at hid
    cases hid

theorem get?_of_none (h : y.Atop left y') (hid : left.get? id = none) :
    y'.get? id = y.get? id := by
  rcases h.containers id with heq | ⟨hin, -, -⟩
  · exact heq
  · rw [hid] at hin
    cases hin

theorem surroundings (h : y.Atop left y') : y'.surroundings = y.surroundings := by
  unfold Pool.surroundings
  rw [h.outside, h.clock]

/-! ## Actions -/

theorem put (h : y.Atop left y') (c : Container) : (y.put c).Atop left (y'.put c) where
  clock := h.clock
  outside := h.outside
  stamps := h.stamps
  heard := congrArg (· ++ c.outbox) h.heard
  ordered := Table.ordered_insert h.ordered ..
  ordered' := Table.ordered_insert h.ordered' ..
  containers := by
    intro id
    rw [get?_put, get?_put]
    split
    · exact .inl rfl
    · exact h.containers id

theorem pass (h : y.Atop left y') (d : Duration) : (y.pass d).Atop left (y'.pass d) := by
  refine ⟨?_, h.outside, h.stamps, h.heard, h.ordered, h.ordered', h.containers⟩
  unfold Pool.pass
  rw [h.clock]

theorem takeHeard (h : y.Atop left y') : y.takeHeard.2.Atop left y'.takeHeard.2 :=
  ⟨h.clock, h.outside, h.stamps, rfl, h.ordered, h.ordered', h.containers⟩

/-- What is done with a container that both have, or neither has. -/
theorem act {α : Type} (h : y.Atop left y') (hid : y'.get? id = y.get? id)
    (f : Container → α × Container) :
    y'.act id f = none ∧ y.act id f = none ∨
      ∃ a y₁ y₁', y'.act id f = some (a, y₁') ∧ y.act id f = some (a, y₁) ∧ y₁.Atop left y₁' := by
  unfold Pool.act
  rw [hid]
  cases y.get? id with
  | none => exact .inl ⟨rfl, rfl⟩
  | some c => exact .inr ⟨_, _, _, rfl, rfl, (h.pass _).put _⟩

/-! ## Time -/

/-- The same containers report. -/
theorem pick_ticks (h : y.Atop left y') : y'.containers.pick ticks = y.containers.pick ticks := by
  refine Table.ext_of_ordered (Table.ordered_pick h.ordered' _) (Table.ordered_pick h.ordered _) ?_
  intro id
  rw [Table.get?_pick h.ordered', Table.get?_pick h.ordered]
  rcases h.containers id with heq | ⟨-, hnone, hstill⟩
  · exact congrArg (Option.filter ticks) heq
  · have hnone : y.containers.get? id = none := hnone
    rw [hnone, Option.filter_none, Option.filter_eq_none_iff]
    intro c hc
    rw [ticks, hstill c hc]
    decide

end Atop

section

variable {y y' left : Pool} {till : Nat}

/-- What is not picked does not matter if it is passed over anyway. -/
theorem foldl_pick {α β : Type} (t : Table α) {p : α → Bool} {f : β → String × α → β}
    (hskip : ∀ b e, p e.2 = false → f b e = b) (b : β) :
    (t.pick p).entries.foldl f b = t.entries.foldl f b := by
  unfold Table.pick
  rw [List.foldl_filter]
  refine congrArg (fun g => List.foldl g b t.entries) ?_
  funext b e
  split
  · rfl
  · rename_i hp
    exact (hskip b e (Bool.eq_false_iff.mpr hp)).symm

theorem due?_pick (y : Pool) (till : Nat) :
    ({ y with containers := y.containers.pick ticks } : Pool).due? till = y.due? till := by
  refine foldl_pick y.containers ?_ none
  intro found e he
  have hnone : e.2.ticker = none := Option.not_isSome_iff_eq_none.mp (Bool.eq_false_iff.mp he)
  rw [hnone]

theorem reportBound_pick (y : Pool) (till : Nat) :
    ({ y with containers := y.containers.pick ticks } : Pool).reportBound till =
      y.reportBound till := by
  unfold reportBound Table.values
  rw [List.foldl_map, List.foldl_map]
  refine foldl_pick y.containers ?_ 0
  intro n e he
  have hnone : e.2.ticker = none := Option.not_isSome_iff_eq_none.mp (Bool.eq_false_iff.mp he)
  rw [hnone]

/-- A report that is due is one of a container that reports. -/
theorem ticks_of_due? (h : y.containers.Ordered) {time : Nat} {id : String}
    (hdue : y.due? till = some (time, id)) : ∃ c, y.get? id = some c ∧ ticks c = true := by
  have hall : ∀ found, y.due? till = some found →
      ∃ c, (found.2, c) ∈ y.containers.entries ∧ ticks c = true := by
    unfold due?
    refine List.foldlRecOn (motive := fun b : Option (Nat × String) => ∀ found, b = some found →
      ∃ c, (found.2, c) ∈ y.containers.entries ∧ ticks c = true) y.containers.entries _ (by simp) ?_
    intro b hb e he found hfound
    split at hfound
    · exact hb found hfound
    · rename_i t ht
      split at hfound
      · cases hfound
        exact ⟨e.2, he, by rw [ticks, ht]; rfl⟩
      · cases hfound
    · rename_i t _ _ ht
      split at hfound
      · cases hfound
        exact ⟨e.2, he, by rw [ticks, ht]; rfl⟩
      · exact hb found hfound
  obtain ⟨c, hmem, hc⟩ := hall _ hdue
  exact ⟨c, (Table.mem_entries_iff h).mp hmem, hc⟩

def reach (y : Pool) (time : Nat) : Pool :=
  { y with clock := { y.clock with timers := max y.clock.timers time } }

section

variable {fuel time : Nat} {id : String}

theorem report_of_idle (h : y.due? till = none) : report (fuel + 1) till y = y := by
  rw [report, h]

theorem report_of_gone (h : y.due? till = some (time, id))
    (hact : (y.reach time).act id (fun c => ((), c.strike y.clock.wall)) = none) :
    report (fuel + 1) till y = y.reach time := by
  unfold reach at hact
  rw [report, h]
  dsimp only
  rw [hact]
  rfl

theorem report_of_due {u : Unit} (h : y.due? till = some (time, id))
    (hact : (y.reach time).act id (fun c => ((), c.strike y.clock.wall)) = some (u, y')) :
    report (fuel + 1) till y = report fuel till y' := by
  unfold reach at hact
  rw [report, h]
  dsimp only
  rw [hact]

end

namespace Atop

theorem due? (h : y.Atop left y') (till : Nat) : y'.due? till = y.due? till := by
  rw [← due?_pick y', ← due?_pick y]
  unfold Pool.due?
  rw [h.pick_ticks]

theorem reportBound (h : y.Atop left y') (till : Nat) : y'.reportBound till = y.reportBound till := by
  rw [← reportBound_pick y', ← reportBound_pick y]
  unfold Pool.reportBound
  rw [h.pick_ticks]

theorem reach (h : y.Atop left y') (time : Nat) : (y.reach time).Atop left (y'.reach time) := by
  refine ⟨?_, h.outside, h.stamps, h.heard, h.ordered, h.ordered', h.containers⟩
  unfold Pool.reach
  rw [h.clock]

theorem report (h : y.Atop left y') (fuel till : Nat) :
    (report fuel till y).Atop left (Pool.report fuel till y') := by
  induction fuel generalizing y y' with
  | zero => exact h
  | succ fuel ih =>
    cases hdue : y.due? till with
    | none =>
      rw [report_of_idle hdue, report_of_idle ((h.due? till).trans hdue)]
      exact h
    | some e =>
      obtain ⟨time, id⟩ := e
      obtain ⟨c, hc, -⟩ := ticks_of_due? h.ordered hdue
      have hdue' := (h.due? till).trans hdue
      have hsame : y'.get? id = y.get? id := h.get?_of_isSome (by rw [hc]; rfl)
      have hwall : y'.clock.wall = y.clock.wall := congrArg Clock.wall h.clock
      rcases (h.reach time).act hsame fun c => ((), c.strike y.clock.wall) with
        ⟨hnone', hnone⟩ | ⟨u, y₁, y₁', hsome', hsome, hnext⟩
      · rw [← hwall] at hnone'
        rw [report_of_gone hdue hnone, report_of_gone hdue' hnone']
        exact h.reach time
      · rw [← hwall] at hsome'
        rw [report_of_due hdue hsome, report_of_due hdue' hsome']
        exact ih hnext

theorem sleepUntil (h : y.Atop left y') (till : Nat) :
    (y.sleepUntil till).Atop left (y'.sleepUntil till) := by
  unfold Pool.sleepUntil
  rw [h.reportBound]
  exact (h.report _ till).reach till

theorem sleep (h : y.Atop left y') (d : Duration) : (y.sleep d).Atop left (y'.sleep d) := by
  unfold Pool.sleep
  rw [h.clock]
  exact h.sleepUntil _

end Atop
end

/-! ## New containers -/

namespace Atop

variable {y y' left : Pool} {id : String}

theorem stamp (h : y.Atop left y') :
    y'.stamp.1 = y.stamp.1 ∧ y.stamp.2.Atop left y'.stamp.2 := by
  refine ⟨?_, h.clock, h.outside, congrArg (· + 1) h.stamps, h.heard, h.ordered, h.ordered',
    h.containers⟩
  unfold Pool.stamp
  rw [h.clock, h.stamps]

theorem create (h : y.Atop left y') (name : String) (box : Guest.Sandbox)
    (module : Guest.Compiled) (digest : Option String) :
    (y'.create none name box module digest).1 = (y.create none name box module digest).1 ∧
      (y.create none name box module digest).2.Atop left
        (y'.create none name box module digest).2 := by
  obtain ⟨hstamp, hstamped⟩ := h.stamp
  simp only [Pool.create]
  rw [hstamp, hstamped.surroundings]
  cases Container.create (generateId name y.stamp.1) name box module digest
      y.stamp.2.surroundings with
  | error e => exact ⟨rfl, hstamped⟩
  | ok c => exact ⟨rfl, (hstamped.put c).pass _⟩

theorem attempts (h : y.Atop left y') (n : Nat) :
    (attempts n y').1 = (attempts n y).1 ∧ (attempts n y).2.Atop left (Pool.attempts n y').2 := by
  induction n generalizing y y' with
  | zero => exact ⟨rfl, h⟩
  | succ n ih =>
    obtain ⟨hstamp, hstamped⟩ := h.stamp
    obtain ⟨hrest, hlast⟩ := ih hstamped
    simp only [Pool.attempts]
    rw [hstamp, hrest, hlast.surroundings]
    exact ⟨rfl, hlast⟩

theorem putAll (h : y.Atop left y') (made : List Container) :
    (made.foldl Pool.put y).Atop left (made.foldl Pool.put y') := by
  induction made generalizing y y' with
  | nil => exact h
  | cons c made ih => exact ih (h.put c)

theorem scale (h : y.Atop left y') (hid : y'.get? id = y.get? id) (n : Nat) :
    y'.scale id n = none ∧ y.scale id n = none ∨
      ∃ result y₁ y₁', y'.scale id n = some (result, y₁') ∧ y.scale id n = some (result, y₁) ∧
        y₁.Atop left y₁' := by
  unfold Pool.scale
  rw [hid]
  cases y.get? id with
  | none => exact .inl ⟨rfl, rfl⟩
  | some c =>
    obtain ⟨htries, hafter⟩ := h.attempts n
    dsimp only [Option.bind_eq_bind, Option.bind_some]
    rw [htries]
    exact .inr ⟨_, _, _, rfl, rfl, (hafter.putAll _).pass _⟩

end Atop
end ContainerHost.Pool
