import ContainerHost.Event.Bus
import ContainerHost.Proofs.Tables
/-!
# Ids of listeners

A bus gives out ids one after the other, from wherever it begins. With all ids raised by the same
number it has the same listeners, and whatever is done with it is done in the same way.
-/

namespace ContainerHost.Event

/-- The listener under a higher id. -/
def Entry.raise {α : Type} (k : Nat) (e : Entry α) : Entry α := { e with id := k + e.id }

namespace Bus

variable {α : Type} (k : Nat) (b : Bus α) (event : String)

/-- The bus with higher ids. -/
def raise : Bus α where
  persistent := b.persistent.map (List.map (Entry.raise k))
  once := b.once.map (List.map (Entry.raise k))
  nextId := k + b.nextId

theorem entriesOf_map (t : Table (List (Entry α))) :
    entriesOf (t.map (List.map (Entry.raise k))) event = (entriesOf t event).map (Entry.raise k) := by
  unfold entriesOf
  rw [Table.get?_map]
  cases t.get? event <;> rfl

theorem listeners_raise : (b.raise k).listeners event = (b.listeners event).map (Entry.raise k) := by
  unfold listeners raise
  rw [entriesOf_map, entriesOf_map, List.map_append]

theorem count_raise : (b.raise k).count event = b.count event := by
  unfold count
  rw [listeners_raise, List.length_map]

theorem names_raise : (b.raise k).names = b.names := by
  unfold names raise
  rw [Table.keys_map, Table.keys_map]

theorem append_map (t : Table (List (Entry α))) (e : Entry α) :
    append (t.map (List.map (Entry.raise k))) event (e.raise k) =
      (append t event e).map (List.map (Entry.raise k)) := by
  unfold append
  rw [Table.map_insert, entriesOf_map, List.map_append]
  rfl

theorem register_raise (once : Bool) (listener : α) :
    ((b.raise k).register event once listener).2 = (b.register event once listener).2.raise k := by
  have hnew : (⟨k + b.nextId, listener⟩ : Entry α) = Entry.raise k ⟨b.nextId, listener⟩ := rfl
  cases once with
  | false =>
    simp only [register, raise, hnew, append_map]
    rfl
  | true =>
    simp only [register, raise, hnew, append_map]
    rfl

theorem take_raise : (b.raise k).take event =
    ((b.take event).1.map (Entry.raise k), (b.take event).2.raise k) := by
  simp only [take]
  rw [listeners_raise]
  simp only [raise, Table.map_erase]

theorem setEntries_map (t : Table (List (Entry α))) (l : List (Entry α)) :
    setEntries (t.map (List.map (Entry.raise k))) event (l.map (Entry.raise k)) =
      (setEntries t event l).map (List.map (Entry.raise k)) := by
  unfold setEntries
  rw [List.isEmpty_map]
  split
  · rw [Table.map_erase]
  · rw [Table.map_insert]

theorem off_raise (id : Nat) : (b.raise k).off event (k + id) =
    ((b.off event id).1, (b.off event id).2.raise k) := by
  have hsame (e : Entry α) : ((e.raise k).id == k + id) = (e.id == id) := by
    simp [Entry.raise]
  have hrest (l : List (Entry α)) : (l.map (Entry.raise k)).filter (·.id != k + id) =
      (l.filter (·.id != id)).map (Entry.raise k) := by
    rw [List.filter_map]
    refine congrArg _ (List.filter_congr fun e _ => ?_)
    show (!((e.raise k).id == k + id)) = _
    rw [hsame]
    rfl
  have hany : ((b.raise k).listeners event).any (·.id == k + id) =
      (b.listeners event).any (·.id == id) := by
    rw [listeners_raise, List.any_map]
    exact congrArg _ (funext hsame)
  unfold off
  rw [hany]
  split
  · simp only [raise, entriesOf_map, hrest, setEntries_map]
  · rfl

theorem removeAll_raise (which : Option String) :
    (b.raise k).removeAll which = (b.removeAll which).raise k := by
  cases which with
  | none => rfl
  | some event => simp only [removeAll, raise, Table.map_erase]

end Bus
end ContainerHost.Event
