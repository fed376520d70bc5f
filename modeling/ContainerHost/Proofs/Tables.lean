import ContainerHost.Table
import Mathlib.Data.String.Basic
/-!
# Tables in order

What is proved about the entries of a table: a table that only grew by `insert` names nothing twice
(`Ordered`, `keys_nodup`) and is known by its look-ups (`ext_of_ordered`), a name has an entry
exactly when it is among the names (`contains_iff`), each insertion adds one entry at most
(`size_insertAll_le`), and merging is decided name by name (`get?_foldl_merge`).
-/

namespace ContainerHost.Table

variable {α : Type}

/-- The names ascend strictly. -/
def Ordered (t : Table α) : Prop := t.keys.Pairwise (· < ·)

instance (t : Table α) : Decidable t.Ordered :=
  inferInstanceAs (Decidable (t.keys.Pairwise (· < ·)))

theorem keys_nodup {t : Table α} (h : t.Ordered) : t.keys.Nodup :=
  List.Pairwise.imp (fun hlt => ne_of_lt hlt) h

theorem ordered_empty : (empty : Table α).Ordered := List.Pairwise.nil

/-! ## Names -/

theorem mem_keys_insertEntry {k x : String} {v : α} {l : List (String × α)} :
    x ∈ (insertEntry k v l).map (·.1) ↔ x = k ∨ x ∈ l.map (·.1) := by
  induction l with
  | nil => simp [insertEntry]
  | cons e l ih =>
    obtain ⟨k', v'⟩ := e
    simp only [insertEntry]
    split
    · simp
    · split
      · rename_i heq
        subst heq
        simp
      · rw [List.map_cons, List.mem_cons, ih]
        simp only [List.map_cons, List.mem_cons]
        tauto

theorem mem_keys_insert {t : Table α} {k x : String} {v : α} :
    x ∈ (t.insert k v).keys ↔ x = k ∨ x ∈ t.keys := mem_keys_insertEntry

theorem contains_iff {t : Table α} {k : String} : t.contains k = true ↔ k ∈ t.keys := by
  unfold contains get? keys
  rw [Option.isSome_map, List.find?_isSome]
  simp only [beq_iff_eq, List.mem_map]

theorem mem_keys_insertAll {t : Table α} {l : List (String × α)} {x : String} :
    x ∈ (t.insertAll l).keys ↔ x ∈ l.map (·.1) ∨ x ∈ t.keys := by
  induction l generalizing t with
  | nil => simp [insertAll]
  | cons e l ih =>
    have hcons : t.insertAll (e :: l) = (t.insert e.1 e.2).insertAll l := rfl
    rw [hcons, ih, mem_keys_insert]
    simp only [List.map_cons, List.mem_cons]
    tauto

theorem mem_keys_erase {t : Table α} {k x : String} :
    x ∈ (t.erase k).keys ↔ x ≠ k ∧ x ∈ t.keys := by
  unfold erase keys
  simp only [List.mem_map, List.mem_filter, Bool.not_eq_true', beq_eq_false_iff_ne]
  constructor
  · rintro ⟨e, ⟨he, hne⟩, rfl⟩
    exact ⟨hne, e, he, rfl⟩
  · rintro ⟨hne, e, he, rfl⟩
    exact ⟨e, ⟨he, hne⟩, rfl⟩

/-! ## Order -/

theorem ordered_insertEntry {k : String} {v : α} {l : List (String × α)}
    (h : (l.map (·.1)).Pairwise (· < ·)) :
    ((insertEntry k v l).map (·.1)).Pairwise (· < ·) := by
  induction l with
  | nil => simp [insertEntry]
  | cons e l ih =>
    obtain ⟨k', v'⟩ := e
    rw [List.map_cons, List.pairwise_cons] at h
    obtain ⟨hfirst, hrest⟩ := h
    simp only [insertEntry]
    split
    · rename_i hlt
      rw [List.map_cons, List.map_cons, List.pairwise_cons, List.pairwise_cons]
      refine ⟨?_, hfirst, hrest⟩
      intro x hx
      rcases List.mem_cons.mp hx with rfl | hx
      · exact hlt
      · exact lt_trans hlt (hfirst x hx)
    · rename_i hnlt
      split
      · rename_i heq
        subst heq
        rw [List.map_cons, List.pairwise_cons]
        exact ⟨hfirst, hrest⟩
      · rename_i hne
        rw [List.map_cons, List.pairwise_cons]
        refine ⟨?_, ih hrest⟩
        intro x hx
        rcases mem_keys_insertEntry.mp hx with rfl | hx
        · exact lt_of_le_of_ne (not_lt.mp hnlt) (fun heq => hne heq.symm)
        · exact hfirst x hx

theorem ordered_insert {t : Table α} (h : t.Ordered) (k : String) (v : α) :
    (t.insert k v).Ordered := ordered_insertEntry h

theorem ordered_insertAll {t : Table α} (h : t.Ordered) (l : List (String × α)) :
    (t.insertAll l).Ordered := by
  induction l generalizing t with
  | nil => exact h
  | cons e l ih => exact ih (ordered_insert h e.1 e.2)

theorem ordered_merge {t : Table α} (h : t.Ordered) (u : Table α) : (t.merge u).Ordered :=
  ordered_insertAll h u.entries

theorem ordered_erase {t : Table α} (h : t.Ordered) (k : String) : (t.erase k).Ordered :=
  List.Pairwise.sublist (List.filter_sublist.map _) h

theorem mem_entries_iff {t : Table α} (h : t.Ordered) {k : String} {v : α} :
    (k, v) ∈ t.entries ↔ t.get? k = some v := by
  have hnodup := keys_nodup h
  unfold get?
  unfold keys at hnodup
  generalize t.entries = l at hnodup ⊢
  induction l with
  | nil => simp
  | cons e l ih =>
    obtain ⟨k', v'⟩ := e
    rw [List.map_cons, List.nodup_cons] at hnodup
    obtain ⟨hfirst, hrest⟩ := hnodup
    have hmem : (k, v) ∈ l ↔ (l.find? (·.1 == k)).map (·.2) = some v := ih hrest
    rw [List.mem_cons, hmem, List.find?_cons]
    by_cases hk : k' = k
    · subst hk
      have hnone : l.find? (·.1 == k') = none := by
        rw [List.find?_eq_none]
        intro e he heq
        exact hfirst (List.mem_map.mpr ⟨e, he, beq_iff_eq.mp heq⟩)
      simp [hnone, eq_comm]
    · have hne : ¬ k = k' := fun heq => hk heq.symm
      have hbeq : (k' == k) = false := beq_eq_false_iff_ne.mpr hk
      simp [hbeq, hne]

/-- Tables in order are the same when their look-ups are. -/
theorem ext_of_ordered {t u : Table α} (h : t.Ordered) (g : u.Ordered)
    (heq : ∀ k, t.get? k = u.get? k) : t = u := by
  have hnodup {t : Table α} (h : t.Ordered) : t.entries.Nodup :=
    (List.pairwise_map.mp h).imp fun hlt heq => ne_of_lt hlt (congrArg Prod.fst heq)
  have hperm : t.entries.Perm u.entries := by
    rw [List.perm_ext_iff_of_nodup (hnodup h) (hnodup g)]
    rintro ⟨k, v⟩
    rw [mem_entries_iff h, mem_entries_iff g, heq]
  have hentries : t.entries = u.entries := by
    have hasymm : ∀ a b, a ∈ t.entries → b ∈ u.entries → a.1 < b.1 → b.1 < a.1 → a = b :=
      fun _ _ _ _ hab hba => absurd hba (lt_asymm hab)
    exact hperm.eq_of_pairwise hasymm (List.pairwise_map.mp h) (List.pairwise_map.mp g)
  cases t
  cases u
  exact congrArg Table.mk hentries

/-- Putting in what is there changes nothing. -/
theorem insert_eq_self {t : Table α} (h : t.Ordered) {k : String} {v : α}
    (hk : t.get? k = some v) : t.insert k v = t := by
  refine ext_of_ordered (ordered_insert h k v) h ?_
  intro x
  rw [get?_insert]
  split
  · rename_i hx
    rw [← hx, hk]
  · rfl

/-- Of entries that are put in one after the other, the last of a name says what it stands for. -/
theorem get?_insertAll_last (t : Table α) (l : List (String × α)) (k : String) :
    (t.insertAll l).get? k = ((l.reverse.find? (·.1 == k)).map (·.2)).or (t.get? k) := by
  induction l generalizing t with
  | nil => simp [insertAll]
  | cons e l ih =>
    have hcons : t.insertAll (e :: l) = (t.insert e.1 e.2).insertAll l := rfl
    rw [hcons, ih, get?_insert, List.reverse_cons, List.find?_append, Option.map_or, Option.or_assoc]
    congr 1
    by_cases hk : e.1 = k
    · simp [hk]
    · simp [hk]

theorem get?_ofList (l : List (String × α)) (k : String) :
    (ofList l).get? k = (l.reverse.find? (·.1 == k)).map (·.2) := by
  unfold ofList
  rw [get?_insertAll_last, get?_empty, Option.or_none]

/-! ## Merging -/

theorem get?_insertAll {t : Table α} {l : List (String × α)} (h : (l.map (·.1)).Nodup)
    (k : String) :
    (t.insertAll l).get? k = ((l.find? (·.1 == k)).map (·.2)).or (t.get? k) := by
  induction l generalizing t with
  | nil => simp [insertAll]
  | cons e l ih =>
    rw [List.map_cons, List.nodup_cons] at h
    obtain ⟨hfirst, hrest⟩ := h
    have hcons : t.insertAll (e :: l) = (t.insert e.1 e.2).insertAll l := rfl
    rw [hcons, ih hrest, get?_insert, List.find?_cons]
    by_cases hk : e.1 = k
    · have hnone : l.find? (·.1 == k) = none := by
        rw [List.find?_eq_none]
        intro x hx heq
        exact hfirst (List.mem_map.mpr ⟨x, hx, (beq_iff_eq.mp heq).trans hk.symm⟩)
      simp [hk, hnone]
    · have hbeq : (e.1 == k) = false := beq_eq_false_iff_ne.mpr hk
      simp [hbeq, hk]

/-- A merged table has what the second one has, and else what the first one has. -/
theorem get?_merge (t : Table α) {u : Table α} (h : u.Ordered) (k : String) :
    (t.merge u).get? k = (u.get? k).or (t.get? k) := get?_insertAll (keys_nodup h) k

theorem merge_self {t : Table α} (h : t.Ordered) : t.merge t = t := by
  refine ext_of_ordered (ordered_merge h t) h fun k => ?_
  rw [get?_merge t h, Option.or_self]

theorem empty_merge {t : Table α} (h : t.Ordered) : empty.merge t = t := by
  refine ext_of_ordered (ordered_merge ordered_empty t) h fun k => ?_
  rw [get?_merge empty h, get?_empty, Option.or_none]

theorem ordered_foldl_merge {t : Table α} (h : t.Ordered) (us : List (Table α)) :
    (us.foldl merge t).Ordered := by
  induction us generalizing t with
  | nil => exact h
  | cons u us ih => exact ih (ordered_merge h u)

/-- Of tables that are merged one after the other, the last that has a name says what it stands
for. -/
theorem get?_foldl_merge (t : Table α) {us : List (Table α)} (h : ∀ u ∈ us, u.Ordered)
    (k : String) :
    (us.foldl merge t).get? k = (us.reverse.findSome? (·.get? k)).or (t.get? k) := by
  induction us generalizing t with
  | nil => simp
  | cons u us ih =>
    have hu := h u List.mem_cons_self
    have hrest := ih (t.merge u) fun v hv => h v (List.mem_cons_of_mem _ hv)
    rw [List.foldl_cons, hrest, get?_merge t hu, List.reverse_cons, List.findSome?_append,
      Option.or_assoc]
    simp

/-! ## Sizes -/

theorem length_insertEntry_le (k : String) (v : α) (l : List (String × α)) :
    (insertEntry k v l).length ≤ l.length + 1 := by
  induction l with
  | nil => simp [insertEntry]
  | cons e l ih =>
    obtain ⟨k', v'⟩ := e
    simp only [insertEntry]
    split
    · simp
    · split
      · simp
      · simp only [List.length_cons]
        omega

theorem size_insertAll_le (t : Table α) (l : List (String × α)) :
    (t.insertAll l).size ≤ t.size + l.length := by
  induction l generalizing t with
  | nil => simp [insertAll]
  | cons e l ih =>
    have hcons : t.insertAll (e :: l) = (t.insert e.1 e.2).insertAll l := rfl
    have hone : (t.insert e.1 e.2).size ≤ t.size + 1 := length_insertEntry_le e.1 e.2 t.entries
    have hrest := ih (t.insert e.1 e.2)
    rw [hcons, List.length_cons]
    omega

theorem size_erase_le (t : Table α) (k : String) : (t.erase k).size ≤ t.size :=
  List.length_filter_le _ _

theorem size_eq_length_keys (t : Table α) : t.size = t.keys.length := by
  unfold size keys
  rw [List.length_map]

/-! ## Other values -/

/-- The table with other values under the same names. -/
def map {β : Type} (f : α → β) (t : Table α) : Table β := ⟨t.entries.map fun e => (e.1, f e.2)⟩

section

variable {β : Type} (f : α → β) (t : Table α) (k : String)

@[simp] theorem map_empty : (empty : Table α).map f = empty := rfl

@[simp] theorem keys_map : (t.map f).keys = t.keys := by
  unfold keys map
  rw [List.map_map]
  rfl

@[simp] theorem get?_map : (t.map f).get? k = (t.get? k).map f := by
  unfold get? map
  rw [List.find?_map, Option.map_map, Option.map_map]
  rfl

theorem map_insert (v : α) : (t.insert k v).map f = (t.map f).insert k (f v) := by
  have hentries (l : List (String × α)) : (insertEntry k v l).map (fun e => (e.1, f e.2)) =
      insertEntry k (f v) (l.map fun e => (e.1, f e.2)) := by
    induction l with
    | nil => rfl
    | cons e l ih =>
      simp only [insertEntry, List.map_cons]
      split
      · rfl
      · split
        · rfl
        · rw [List.map_cons, ih]
  exact congrArg Table.mk (hentries t.entries)

theorem map_erase : (t.erase k).map f = (t.map f).erase k := by
  unfold map erase
  rw [List.filter_map]
  rfl

end

/-! ## Some of the entries -/

def pick (t : Table α) (p : α → Bool) : Table α := ⟨t.entries.filter fun e => p e.2⟩

theorem ordered_pick {t : Table α} (h : t.Ordered) (p : α → Bool) : (t.pick p).Ordered :=
  List.Pairwise.sublist (List.filter_sublist.map _) h

theorem get?_pick {t : Table α} (h : t.Ordered) (p : α → Bool) (k : String) :
    (t.pick p).get? k = (t.get? k).filter p := by
  ext v
  rw [← mem_entries_iff (ordered_pick h p), Option.filter_eq_some_iff, ← mem_entries_iff h]
  exact List.mem_filter

end ContainerHost.Table
