import ContainerHost.Proofs.Manager.Escapes
import ContainerHost.Proofs.Manager.Handles
import ContainerHost.Proofs.Manager.Stages
/-!
# Counting slots

Scaling asks for any number of slots. Whether they are free is decided by a sum of sixty-four bits:
the slots that are taken, and those that are asked for. The taken ones always fit under the limit,
and so in sixty-four bits, but the sum need not, and then the addition panics.

What is proved: scaling counts exactly as long as the sum fits (`scalesExactly_iff`), and a count for
which it does not fit is neither granted nor refused as one over the limit
(`not_scalesExactly_crowded`).

Correspondence: `Slots.reserve` is `ContainerManager::reserve` in a build that checks for overflow;
`Manager.beginScale` is `ContainerManager::scale` up to there.
-/

namespace ContainerHost

namespace Slots

variable {s : Slots} {n : Nat}

theorem reserve_of_over (h : s.limit < s.occupied + n) (hfits : s.occupied + n < 1 <<< 64) :
    s.reserve n = .error (.returned (.capacityExceeded s.limit)) := by
  unfold reserve
  rw [if_neg (by omega), if_pos h]

theorem reserve_of_room (h : s.occupied + n ≤ s.limit) (hfits : s.occupied + n < 1 <<< 64) :
    s.reserve n = .ok (⟨n⟩, { s with pending := s.pending + n }) := by
  unfold reserve
  rw [if_neg (by omega), if_neg (by omega)]

theorem reserve_of_overflow (h : 1 <<< 64 ≤ s.occupied + n) :
    s.reserve n = .error (.panicked "attempt to add with overflow") := by
  unfold reserve
  rw [if_pos h]

end Slots

namespace Manager

variable {m : Manager} {id : String} {n : Nat}

/-- Scaling that gets no slots has no effect. -/
theorem scale_of_refused {c : Container} (hc : m.get? id = some c) {e : Failure}
    (h : m.slots.reserve n = .error e) : m.scale id n = (.error e, m) := by
  unfold scale beginScale
  rw [lookup_of_get? hc]
  dsimp only
  rw [h]

/-- Scaling that has its slots does not fail for want of slots. -/
theorem endScale_ne_capacityExceeded (m : Manager) (r : Reservation) (id : String) (n limit : Nat) :
    (m.endScale r id n).1 ≠ .error (.returned (.capacityExceeded limit)) := by
  unfold endScale
  cases hs : m.pool.scale id n with
  | none => simp
  | some p =>
    obtain ⟨result, y⟩ := p
    cases result with
    | ok ids => simp
    | error e =>
      -- the error is the one of a replica that could not be made
      obtain ⟨c, hc, hmade⟩ := Option.bind_eq_some_iff.mp hs
      simp only [Option.some.injEq, Prod.mk.injEq] at hmade
      have hfailed : (c.scale (Pool.attempts n m.pool).1).1 = .error e := by
        cases hresult : (c.scale (Pool.attempts n m.pool).1).1 with
        | ok u => simp [hresult, Except.map] at hmade
        | error e' => simpa [hresult, Except.map] using hmade.1
      obtain ⟨_, _, ⟨reason, rfl⟩ | hrefused⟩ := c.refused_scale hfailed
      · simp
      · cases hrefused <;> simp [Guest.violation]

end Manager

namespace ConcurrentManager

variable {t : ConcurrentManager} {config : ManagerConfig} {id : String} {n : Nat}

/-- Scaling to so many containers is refused without a trace if there are fewer slots than that, and
otherwise so many slots more are pending while the containers are made. -/
structure ScalesExactly (t : ConcurrentManager) (id : String) (n : Nat) : Prop where
  refused : t.manager.slots.limit <
      t.manager.slots.registered.size + t.manager.slots.pending + n →
    t.manager.scale id n = (.error (.returned (.capacityExceeded t.manager.slots.limit)), t.manager) ∧
      (t.ask (.scale id n)).manager = t.manager
  granted : t.manager.slots.registered.size + t.manager.slots.pending + n ≤
      t.manager.slots.limit →
    (∀ limit, (t.manager.scale id n).1 ≠ .error (.returned (.capacityExceeded limit))) ∧
      (t.ask (.scale id n)).manager = { t.manager with
        slots := { t.manager.slots with pending := t.manager.slots.pending + n } }

theorem ask_scale_of_refused {c : Container} (hc : t.manager.get? id = some c) {e : Failure}
    (h : t.manager.slots.reserve n = .error e) : (t.ask (.scale id n)).manager = t.manager := by
  simp only [ask, Manager.beginScale, Manager.lookup_of_get? hc, h]
  rfl

theorem ask_scale_of_granted {c : Container} (hc : t.manager.get? id = some c) {r : Reservation}
    {held : Slots} (h : t.manager.slots.reserve n = .ok (r, held)) :
    (∀ limit, (t.manager.scale id n).1 ≠ .error (.returned (.capacityExceeded limit))) ∧
      (t.ask (.scale id n)).manager = { t.manager with slots := held } := by
  refine ⟨?_, ?_⟩
  · intro limit
    unfold Manager.scale Manager.beginScale
    rw [Manager.lookup_of_get? hc]
    dsimp only
    rw [h]
    exact Manager.endScale_ne_capacityExceeded { t.manager with slots := held } r id n limit
  · simp only [ask, Manager.beginScale, Manager.lookup_of_get? hc, h]
    rfl

theorem scalesExactly_of_fits {c : Container} (hc : t.manager.get? id = some c)
    (h : t.manager.slots.registered.size + t.manager.slots.pending + n < 1 <<< 64) :
    t.ScalesExactly id n := by
  refine ⟨?_, ?_⟩
  · intro hover
    have hreserve := Slots.reserve_of_over hover h
    exact ⟨Manager.scale_of_refused hc hreserve, ask_scale_of_refused hc hreserve⟩
  · intro hroom
    exact ask_scale_of_granted hc (Slots.reserve_of_room hroom h)

/-- A count that does not fit in the sum makes scaling panic before anything has changed. -/
theorem scale_of_overflow {c : Container} (hc : t.manager.get? id = some c)
    (h : 1 <<< 64 ≤ t.manager.slots.registered.size + t.manager.slots.pending + n) :
    t.manager.scale id n = (.error (.panicked "attempt to add with overflow"), t.manager) :=
  Manager.scale_of_refused hc (Slots.reserve_of_overflow h)

theorem not_scalesExactly_of_overflow {c : Container} (hc : t.manager.get? id = some c)
    (hlimit : t.manager.slots.limit < 1 <<< 64)
    (h : 1 <<< 64 ≤ t.manager.slots.registered.size + t.manager.slots.pending + n) :
    ¬ t.ScalesExactly id n := by
  intro hexact
  have hrefused := (hexact.refused (by omega)).1
  rw [scale_of_overflow hc h] at hrefused
  cases hrefused

/-- In any state that anything leads to, the taken slots stay within the limit, and scaling a
registered container counts exactly if and only if the taken slots and those that it asks for sum up
to less than sixty-four bits hold. Otherwise the sum itself panics, and nothing is changed. -/
theorem scalesExactly_iff (h : t.Reachable config) (hlimit : config.maxContainers < 1 <<< 64)
    {c : Container} (hc : t.manager.get? id = some c) (n : Nat) :
    t.manager.slots.registered.size + t.manager.slots.pending ≤ config.maxContainers ∧
    (t.ScalesExactly id n ↔
      t.manager.slots.registered.size + t.manager.slots.pending + n < 1 <<< 64) ∧
    (1 <<< 64 ≤ t.manager.slots.registered.size + t.manager.slots.pending + n →
      t.manager.scale id n = (.error (.panicked "attempt to add with overflow"), t.manager)) := by
  have hsame := h.limit
  refine ⟨hsame ▸ h.settled.within, ⟨?_, scalesExactly_of_fits hc⟩, scale_of_overflow hc⟩
  intro hexact
  by_contra hover
  exact not_scalesExactly_of_overflow hc (hsame ▸ hlimit) (Nat.le_of_not_lt hover) hexact

/-- The one slot of a manager is taken by a container. -/
def crowded : ConcurrentManager := (opened solo).run [.ask (.run "a" .standard), .go 0]

theorem reachable_crowded : crowded.Reachable narrow :=
  ((Reachable.opened opened_solo).move (.ask (.run "a" .standard))).move (.go 0)

theorem get?_crowded : ∃ c, crowded.manager.get? firstId = some c :=
  Option.isSome_iff_exists.mp (by decide +kernel)

/-- One container more is refused. -/
theorem scalesExactly_crowded :
    crowded.Reachable narrow ∧ narrow.maxContainers < 1 <<< 64 ∧
    (∃ c, crowded.manager.get? firstId = some c) ∧ crowded.ScalesExactly firstId 1 ∧
    crowded.manager.scale firstId 1 =
      (.error (.returned (.capacityExceeded 1)), crowded.manager) := by
  obtain ⟨c, hc⟩ := get?_crowded
  have hlimit : narrow.maxContainers < 1 <<< 64 := by decide +kernel
  have hsum : crowded.manager.slots.registered.size + crowded.manager.slots.pending + 1 = 2 := by
    decide +kernel
  have hone : crowded.manager.slots.limit = 1 := by decide +kernel
  obtain ⟨-, hiff, -⟩ := scalesExactly_iff reachable_crowded hlimit hc 1
  have hexact := hiff.mpr (by omega)
  have hrefused := (hexact.refused (by omega)).1
  rw [hone] at hrefused
  exact ⟨reachable_crowded, hlimit, ⟨c, hc⟩, hexact, hrefused⟩

/-- The largest count there is is not refused as one over the limit: scaling panics. -/
theorem not_scalesExactly_crowded :
    crowded.Reachable narrow ∧ (∃ c, crowded.manager.get? firstId = some c) ∧
    crowded.manager.slots.limit <
      crowded.manager.slots.registered.size + crowded.manager.slots.pending + (1 <<< 64 - 1) ∧
    crowded.manager.scale firstId (1 <<< 64 - 1) =
      (.error (.panicked "attempt to add with overflow"), crowded.manager) ∧
    ¬ crowded.ScalesExactly firstId (1 <<< 64 - 1) := by
  obtain ⟨c, hc⟩ := get?_crowded
  have hsum : crowded.manager.slots.registered.size + crowded.manager.slots.pending = 1 := by
    decide +kernel
  have hone : crowded.manager.slots.limit = 1 := by decide +kernel
  have hover : 1 <<< 64 ≤ crowded.manager.slots.registered.size +
      crowded.manager.slots.pending + (1 <<< 64 - 1) := by
    rw [hsum]
    decide
  refine ⟨reachable_crowded, ⟨c, hc⟩, ?_, scale_of_overflow hc hover, ?_⟩
  · rw [hone]
    exact Nat.lt_of_lt_of_le (by decide) hover
  · refine not_scalesExactly_of_overflow hc ?_ hover
    rw [hone]
    decide

end ConcurrentManager
end ContainerHost
