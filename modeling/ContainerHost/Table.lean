/-!
# Tables

Finite maps from names to values, kept as a list of entries in ascending order of name. Looking up
after `insert` and `erase` is described by `get?_insert` and `get?_erase`.
-/

namespace ContainerHost

/-- A finite map keyed by names. -/
structure Table (α : Type) where
  entries : List (String × α)
  deriving Inhabited, Repr, DecidableEq

namespace Table

variable {α β : Type}

def empty : Table α := ⟨[]⟩

/-- Puts an entry at its place in a list of entries, over an old one of the same name. -/
def insertEntry (k : String) (v : α) : List (String × α) → List (String × α)
  | [] => [(k, v)]
  | (k', v') :: t =>
    if k < k' then (k, v) :: (k', v') :: t
    else if k = k' then (k, v) :: t
    else (k', v') :: insertEntry k v t

/-- Puts an entry into the table, over an old one of the same name. -/
def insert (t : Table α) (k : String) (v : α) : Table α := ⟨insertEntry k v t.entries⟩

def get? (t : Table α) (k : String) : Option α := (t.entries.find? (·.1 == k)).map (·.2)

def contains (t : Table α) (k : String) : Bool := (t.get? k).isSome

/-- The table without the entry of a name. -/
def erase (t : Table α) (k : String) : Table α := ⟨t.entries.filter fun e => !(e.1 == k)⟩

def keys (t : Table α) : List String := t.entries.map (·.1)

/-- The values in the order of their names. -/
def values (t : Table α) : List α := t.entries.map (·.2)

def size (t : Table α) : Nat := t.entries.length

def isEmpty (t : Table α) : Bool := t.entries.isEmpty

/-- Puts entries in one after the other. -/
def insertAll (t : Table α) (entries : List (String × α)) : Table α :=
  entries.foldl (fun t e => t.insert e.1 e.2) t

/-- The table of some entries, the last of a name winning. -/
def ofList (entries : List (String × α)) : Table α := empty.insertAll entries

/-- Both tables together, the second winning. -/
def merge (t u : Table α) : Table α := t.insertAll u.entries

/-- Replaces the value under a name, if there is one. -/
def modify (t : Table α) (k : String) (f : α → α) : Table α :=
  ⟨t.entries.map fun e => if e.1 == k then (e.1, f e.2) else e⟩

theorem find?_insertEntry (k k' : String) (v : α) (l : List (String × α)) :
    ((insertEntry k v l).find? (·.1 == k')).map (·.2) =
      if k = k' then some v else (l.find? (·.1 == k')).map (·.2) := by
  induction l with
  | nil => by_cases h : k = k' <;> simp [insertEntry, h]
  | cons e t ih =>
    obtain ⟨a, b⟩ := e
    simp only [insertEntry]
    split
    · by_cases h : k = k' <;> simp [List.find?_cons, h]
    · split
      · next h => subst h; by_cases h : k = k' <;> simp [h]
      · next h =>
        by_cases ha : a = k'
        · have : ¬ k = k' := fun hk => h (hk.trans ha.symm)
          simp [ha, this]
        · simpa [List.find?_cons, ha] using ih

@[simp] theorem get?_insert (t : Table α) (k k' : String) (v : α) :
    (t.insert k v).get? k' = if k = k' then some v else t.get? k' :=
  find?_insertEntry k k' v t.entries

@[simp] theorem get?_empty (k : String) : (empty : Table α).get? k = none := rfl

@[simp] theorem get?_erase (t : Table α) (k k' : String) :
    (t.erase k).get? k' = if k = k' then none else t.get? k' := by
  simp only [get?, erase]
  by_cases h : k = k'
  · subst h
    simp [List.find?_filter]
  · rw [if_neg h, List.find?_filter]
    congr 1
    apply congrArg (fun p => List.find? p t.entries)
    funext e
    by_cases he : e.1 = k'
    · have : ¬ k' = k := fun hk => h hk.symm
      simp [he, this]
    · simp [he]

end Table
end ContainerHost
