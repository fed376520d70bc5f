import ContainerHost.Error
import ContainerHost.Table
/-!
# Slots

A manager keeps a limited number of containers. Slots are reserved before containers are made. A
reservation is dropped when the operation that made it ends, and gives back the slots that were not
committed, with containers in them, by then. `reserve_le` says that reservations never go over the
limit, and the other lemmas how the number of occupied slots changes.

Correspondence: `Registry` ↔ `Slots`; `SlotReservation` with `commit` and its drop ↔ `Reservation`,
`commit`, `drop`; `ContainerManager::reserve`, whose sum may overflow ↔ `reserve`.
-/

namespace ContainerHost

/-- The ids that are registered, and how many slots are reserved for others. -/
structure Slots where
  limit : Nat
  registered : Table Unit
  pending : Nat
  deriving DecidableEq, Repr, Inhabited

/-- Slots that are reserved and not yet registered. -/
structure Reservation where
  slots : Nat
  deriving DecidableEq, Repr, Inhabited

namespace Slots

def free (limit : Nat) : Slots := ⟨limit, .empty, 0⟩

def occupied (s : Slots) : Nat := s.registered.size + s.pending

/-- Reserves some slots. The sum is one of sixty-four bits, and overflow is checked. -/
def reserve (s : Slots) (n : Nat) : Except Failure (Reservation × Slots) :=
  if s.occupied + n ≥ 1 <<< 64 then .error (.panicked "attempt to add with overflow")
  else if s.occupied + n > s.limit then .error (.returned (.capacityExceeded s.limit))
  else .ok (⟨n⟩, { s with pending := s.pending + n })

def commit (s : Slots) (r : Reservation) (ids : List String) : Reservation × Slots :=
  (⟨0⟩, { s with
    registered := s.registered.insertAll (ids.map (·, ())), pending := s.pending - r.slots })

/-- Gives back the slots that are left in a reservation. -/
def drop (s : Slots) (r : Reservation) : Slots :=
  if r.slots > 0 then { s with pending := s.pending - r.slots } else s

def holds (s : Slots) (id : String) : Bool := s.registered.contains id

def ids (s : Slots) : List String := s.registered.keys

def remove (s : Slots) (id : String) : Slots := { s with registered := s.registered.erase id }

/-- Removes all ids; returns them. -/
def drain (s : Slots) : List String × Slots := (s.ids, { s with registered := .empty })

/-! ## How the occupied slots change -/

theorem reserve_eq_ok {s t : Slots} {n : Nat} {r : Reservation} (h : s.reserve n = .ok (r, t)) :
    r = ⟨n⟩ ∧ t = { s with pending := s.pending + n } ∧ s.occupied + n ≤ s.limit := by
  unfold reserve at h
  split at h
  · simp at h
  · split at h
    · simp at h
    · rename_i h'
      simp only [Except.ok.injEq, Prod.mk.injEq] at h
      exact ⟨h.1.symm, h.2.symm, by omega⟩

theorem reserve_le {s t : Slots} {n : Nat} {r : Reservation} (h : s.reserve n = .ok (r, t)) :
    t.occupied ≤ t.limit := by
  obtain ⟨-, rfl, hle⟩ := reserve_eq_ok h
  simp only [occupied] at *
  omega

theorem occupied_reserve {s t : Slots} {n : Nat} {r : Reservation}
    (h : s.reserve n = .ok (r, t)) : t.occupied = s.occupied + n := by
  obtain ⟨-, rfl, -⟩ := reserve_eq_ok h
  simp only [occupied]
  omega

@[simp] theorem limit_drop (s : Slots) (r : Reservation) : (s.drop r).limit = s.limit := by
  unfold drop
  split <;> rfl

@[simp] theorem registered_drop (s : Slots) (r : Reservation) :
    (s.drop r).registered = s.registered := by
  unfold drop
  split <;> rfl

@[simp] theorem pending_drop (s : Slots) (r : Reservation) :
    (s.drop r).pending = s.pending - r.slots := by
  unfold drop
  split
  · rfl
  · omega

/-- A reservation that was committed gives nothing back. -/
@[simp] theorem drop_empty (s : Slots) : s.drop ⟨0⟩ = s := rfl

theorem occupied_drop (s : Slots) (r : Reservation) (h : r.slots ≤ s.pending) :
    (s.drop r).occupied + r.slots = s.occupied := by
  simp only [occupied, registered_drop, pending_drop]
  omega

end Slots
end ContainerHost
