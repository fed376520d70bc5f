import ContainerHost.Manager.Slots
import ContainerHost.Proofs.Tables
import Mathlib.Algebra.GroupWithZero.Nat
import Mathlib.Data.List.Perm.Basic
/-!
# Reservations in flight

Operations at the same time share the slots of a manager. Each touches them only under the lock of
the registry, and what it does there is one of five steps: it reserves slots, commits its
reservation together with the instances that it made, drops a reservation that it did not commit,
removes one id, or drains all of them. A `Ledger` is the slots with the reservations that are still
held, and `run` carries out any sequence of steps, so that every interleaving of operations is one.

What is proved: every ledger that is reached is `Sound`. The taken slots stay within the limit, the
pending count is what the held reservations sum up to, and every reservation that was granted is
either held or has been settled, once.
-/

namespace ContainerHost

/-- How a reservation came to its end. -/
inductive Settlement where
  | committed
  | released
  deriving DecidableEq, Repr

/-- What an operation does under the lock of the registry. Operations have tickets, and each
reserves slots once at most. -/
inductive RegistryStep where
  | reserve (ticket n : Nat)
  | commit (ticket : Nat) (ids : List String)
  | drop (ticket : Nat)
  | remove (id : String)
  | drain

/-- The slots, the reservations that are held, all that were granted, and how those that are not
held any more were settled. -/
structure Ledger where
  slots : Slots
  held : List (Nat × Reservation)
  granted : List Nat
  settled : List (Nat × Settlement)

namespace Ledger

/-- Nothing is registered or reserved. -/
def opened (limit : Nat) : Ledger := ⟨.free limit, [], [], []⟩

def reservation? (l : Ledger) (ticket : Nat) : Option Reservation :=
  (l.held.find? (·.1 == ticket)).map (·.2)

/-- A reservation is not held any more. -/
def settle (l : Ledger) (ticket : Nat) (s : Settlement) : Ledger :=
  { l with
    held := l.held.filter fun h => !(h.1 == ticket), settled := l.settled ++ [(ticket, s)] }

/-- A step under the lock. An operation commits no more instances than it has slots for, and what
it has committed it drops as an empty reservation. -/
def step (l : Ledger) : RegistryStep → Ledger
  | .reserve ticket n =>
    if ticket ∈ l.granted then l
    else match l.slots.reserve n with
      | .error _ => l
      | .ok (r, slots) =>
        { l with slots := slots, held := l.held ++ [(ticket, r)], granted := l.granted ++ [ticket] }
  | .commit ticket ids =>
    match l.reservation? ticket with
    | none => l
    | some r =>
      if ids.length ≤ r.slots then
        let (r, slots) := l.slots.commit r ids
        { l with slots := slots.drop r }.settle ticket .committed
      else l
  | .drop ticket =>
    match l.reservation? ticket with
    | none => l
    | some r => { l with slots := l.slots.drop r }.settle ticket .released
  | .remove id => { l with slots := l.slots.remove id }
  | .drain => { l with slots := l.slots.drain.2 }

def run (l : Ledger) (steps : List RegistryStep) : Ledger := steps.foldl step l

def outstanding (l : Ledger) : Nat := (l.held.map (·.2.slots)).sum

/-- What every ledger keeps. -/
structure Sound (l : Ledger) : Prop where
  within : l.slots.occupied ≤ l.slots.limit
  pending : l.slots.pending = l.outstanding
  granted : l.granted.Nodup
  accounted : (l.held.map (·.1) ++ l.settled.map (·.1)).Perm l.granted

/-! ## Looking up and settling a reservation -/

theorem mem_of_reservation? {l : Ledger} {ticket : Nat} {r : Reservation}
    (h : l.reservation? ticket = some r) : (ticket, r) ∈ l.held := by
  unfold reservation? at h
  obtain ⟨e, he, rfl⟩ := Option.map_eq_some_iff.mp h
  have hkey : e.1 = ticket := by simpa using List.find?_some he
  rw [← hkey]
  exact List.mem_of_find?_eq_some he

theorem held_nodup {l : Ledger} (h : l.Sound) : (l.held.map (·.1)).Nodup := by
  have hall := h.accounted.nodup_iff.mpr h.granted
  exact (List.nodup_append.mp hall).1

/-- The held reservations are the one of an operation and those that stay when it is settled. -/
theorem perm_held {held : List (Nat × Reservation)} (hd : (held.map (·.1)).Nodup) {ticket : Nat}
    {r : Reservation} (hm : (ticket, r) ∈ held) :
    held.Perm ((ticket, r) :: held.filter fun h => !(h.1 == ticket)) := by
  induction held with
  | nil => simp at hm
  | cons e held ih =>
    rw [List.map_cons, List.nodup_cons] at hd
    obtain ⟨hfresh, hrest⟩ := hd
    rcases List.mem_cons.mp hm with rfl | hm
    · have hkeep : held.filter (fun h => !(h.1 == ticket)) = held := by
        rw [List.filter_eq_self]
        intro x hx
        have hne : x.1 ≠ ticket := fun heq => hfresh (heq ▸ List.mem_map.mpr ⟨x, hx, rfl⟩)
        simpa using hne
      simp [hkeep]
    · have hne : e.1 ≠ ticket := fun heq => hfresh (heq ▸ List.mem_map.mpr ⟨_, hm, rfl⟩)
      have hfilter : (e :: held).filter (fun h => !(h.1 == ticket)) =
          e :: held.filter fun h => !(h.1 == ticket) := by simp [hne]
      rw [hfilter]
      exact ((ih hrest hm).cons e).trans (List.Perm.swap _ _ _)

theorem reservation?_of_mem {l : Ledger} (h : l.Sound) {ticket : Nat} {r : Reservation}
    (hm : (ticket, r) ∈ l.held) : l.reservation? ticket = some r := by
  have hperm := perm_held (held_nodup h) hm
  unfold reservation?
  cases hfind : l.held.find? (·.1 == ticket) with
  | none =>
    have hnot := List.find?_eq_none.mp hfind _ hm
    simp at hnot
  | some e =>
    have hkey : e.1 = ticket := by simpa using List.find?_some hfind
    have hmem := hperm.mem_iff.mp (List.mem_of_find?_eq_some hfind)
    rcases List.mem_cons.mp hmem with rfl | hmem
    · rfl
    · have hne := (List.mem_filter.mp hmem).2
      simp [hkey] at hne

theorem outstanding_settle {l : Ledger} (hl : l.Sound) {ticket : Nat} {r : Reservation}
    (h : l.reservation? ticket = some r) (s : Settlement) :
    (l.settle ticket s).outstanding + r.slots = l.outstanding := by
  have hperm := (perm_held (held_nodup hl) (mem_of_reservation? h)).map (·.2.slots)
  have hsum := hperm.sum_nat
  rw [List.map_cons, List.sum_cons] at hsum
  unfold outstanding settle
  dsimp only at hsum ⊢
  omega

/-- No reservation has more slots than are pending, so that giving them back takes nothing from
others. -/
theorem slots_le_pending {l : Ledger} (hl : l.Sound) {ticket : Nat} {r : Reservation}
    (h : (ticket, r) ∈ l.held) : r.slots ≤ l.slots.pending := by
  have hperm := (perm_held (held_nodup hl) h).map (·.2.slots)
  have hsum := hperm.sum_nat
  rw [List.map_cons, List.sum_cons] at hsum
  have hpending := hl.pending
  unfold outstanding at hpending
  dsimp only at hsum
  omega

/-- Settling an operation moves its ticket from the held ones to the settled ones. -/
theorem accounted_settle {l : Ledger} (hl : l.Sound) {ticket : Nat} {r : Reservation}
    (h : l.reservation? ticket = some r) (s : Settlement) :
    ((l.settle ticket s).held.map (·.1) ++ (l.settle ticket s).settled.map (·.1)).Perm
      l.granted := by
  have hperm := (perm_held (held_nodup hl) (mem_of_reservation? h)).map (·.1)
  rw [List.map_cons] at hperm
  have hmove : (((l.settle ticket s).held.map (·.1)) ++ (l.settled.map (·.1) ++ [ticket])).Perm
      (l.held.map (·.1) ++ l.settled.map (·.1)) := by
    rw [← List.append_assoc]
    refine List.perm_append_comm.trans ?_
    rw [← List.append_assoc]
    exact (hperm.symm).append_right _
  have hsettled : (l.settle ticket s).settled.map (·.1) = l.settled.map (·.1) ++ [ticket] := by
    unfold settle
    rw [List.map_append]
    rfl
  rw [hsettled]
  exact hmove.trans hl.accounted

/-! ## What a step keeps -/

theorem sound_opened (limit : Nat) : (opened limit).Sound where
  within := Nat.zero_le _
  pending := rfl
  granted := List.nodup_nil
  accounted := List.Perm.refl _

theorem sound_reserve {l : Ledger} (hl : l.Sound) (ticket n : Nat) :
    (l.step (.reserve ticket n)).Sound := by
  simp only [step]
  split
  · exact hl
  · rename_i hfresh
    split
    · exact hl
    · rename_i r slots hr
      obtain ⟨rfl, rfl, hfits⟩ := Slots.reserve_eq_ok hr
      have hwithin := hl.within
      have hpending := hl.pending
      unfold outstanding at hpending
      -- a ticket that was granted before reserves nothing, so that the granted ones stay distinct
      refine ⟨?_, ?_, ?_, ?_⟩
      · simp only [Slots.occupied] at *
        omega
      · simp only [outstanding, List.map_append, List.sum_append, List.map_cons, List.map_nil,
          List.sum_cons, List.sum_nil]
        omega
      · rw [List.nodup_append]
        refine ⟨hl.granted, by simp, ?_⟩
        rintro a ha b hb rfl
        exact hfresh (List.mem_singleton.mp hb ▸ ha)
      · rw [List.map_append, List.append_assoc]
        refine (List.Perm.append_left _ List.perm_append_comm).trans ?_
        rw [← List.append_assoc]
        exact hl.accounted.append_right _

/-- A settlement that gives the slots of its reservation back, and leaves the registered ids with
the slots that were taken before, keeps a ledger sound. -/
theorem sound_settle {l : Ledger} (hl : l.Sound) {ticket : Nat} {r : Reservation}
    (h : l.reservation? ticket = some r) {slots : Slots} (s : Settlement)
    (hlimit : slots.limit = l.slots.limit) (hpending : slots.pending = l.slots.pending - r.slots)
    (hsize : slots.registered.size ≤ l.slots.registered.size + r.slots) :
    ({ l with slots := slots }.settle ticket s).Sound := by
  have hle := slots_le_pending hl (mem_of_reservation? h)
  have hsum := outstanding_settle hl h s
  have hwithin := hl.within
  have hbefore := hl.pending
  refine ⟨?_, ?_, hl.granted, accounted_settle hl h s⟩
  · simp only [settle, Slots.occupied] at *
    omega
  · have hsame : ({ l with slots := slots }.settle ticket s).outstanding =
        (l.settle ticket s).outstanding := rfl
    rw [hsame]
    simp only [settle] at hsum ⊢
    omega

theorem sound_commit {l : Ledger} (hl : l.Sound) (ticket : Nat) (ids : List String) :
    (l.step (.commit ticket ids)).Sound := by
  simp only [step]
  split
  · exact hl
  · rename_i r hr
    split
    · rename_i hfits
      refine sound_settle hl hr .committed rfl rfl ?_
      have hgrow := Table.size_insertAll_le l.slots.registered (ids.map (·, ()))
      rw [List.length_map] at hgrow
      exact hgrow.trans (Nat.add_le_add_left hfits _)
    · exact hl

theorem sound_drop {l : Ledger} (hl : l.Sound) (ticket : Nat) : (l.step (.drop ticket)).Sound := by
  simp only [step]
  split
  · exact hl
  · rename_i r hr
    refine sound_settle hl hr .released (Slots.limit_drop _ _) (Slots.pending_drop _ _) ?_
    rw [Slots.registered_drop]
    omega

/-- Taking ids out of the registry only frees slots. -/
theorem sound_shrink {l : Ledger} (hl : l.Sound) {t : Table Unit}
    (hsize : t.size ≤ l.slots.registered.size) :
    { l with slots := { l.slots with registered := t } }.Sound := by
  have hwithin := hl.within
  refine ⟨?_, hl.pending, hl.granted, hl.accounted⟩
  simp only [Slots.occupied] at *
  omega

theorem sound_step {l : Ledger} (hl : l.Sound) (s : RegistryStep) : (l.step s).Sound := by
  cases s with
  | reserve ticket n => exact sound_reserve hl ticket n
  | commit ticket ids => exact sound_commit hl ticket ids
  | drop ticket => exact sound_drop hl ticket
  | remove id => exact sound_shrink hl (Table.size_erase_le _ _)
  | drain => exact sound_shrink hl (Nat.zero_le _)

theorem sound_run {l : Ledger} (hl : l.Sound) (steps : List RegistryStep) :
    (l.run steps).Sound := by
  induction steps generalizing l with
  | nil => exact hl
  | cons s steps ih => exact ih (sound_step hl s)

/-! ## The limit does not move -/

@[simp] theorem slots_settle (l : Ledger) (ticket : Nat) (s : Settlement) :
    (l.settle ticket s).slots = l.slots := rfl

theorem limit_step (l : Ledger) (s : RegistryStep) : (l.step s).slots.limit = l.slots.limit := by
  cases s with
  | reserve ticket n =>
    simp only [step]
    split
    · rfl
    · split
      · rfl
      · rename_i r slots hr
        obtain ⟨-, rfl, -⟩ := Slots.reserve_eq_ok hr
        rfl
  | commit ticket ids =>
    simp only [step]
    split
    · rfl
    · split
      · simp [Slots.commit]
      · rfl
  | drop ticket =>
    simp only [step]
    split
    · rfl
    · simp
  | remove id => rfl
  | drain => rfl

theorem limit_run (l : Ledger) (steps : List RegistryStep) :
    (l.run steps).slots.limit = l.slots.limit := by
  induction steps generalizing l with
  | nil => rfl
  | cons s steps ih => exact (ih (l.step s)).trans (limit_step l s)

end Ledger
end ContainerHost
