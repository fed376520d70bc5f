import ContainerHost.Manager.Cache
import ContainerHost.Proofs.Tables
import Mathlib.Algebra.GroupWithZero.Nat
import Mathlib.Data.List.Induction
/-!
# The accounts of a cache

A cache adds the sizes of its modules up as it goes: a module that takes the place of another one
has its size added and the other's taken away. The sum is right at any time, and within the capacity
(`Balanced`), so that what is taken away is part of it, and a module is admitted exactly when all
modules together fit (`keep_iff`).

A `Book` is a cache with what came of everything that was done with it. What is proved about whole
books: `accounts_kept`.
-/

namespace ContainerHost.ModuleCache

/-! ## Sizes -/

def sizes (t : Table CachedModule) : Nat := (t.entries.map (·.2.size)).sum

def heldSize (t : Table CachedModule) (key : String) : Nat := ((t.get? key).map (·.size)).getD 0

theorem sum_insertEntry {l : List (String × CachedModule)}
    (h : (l.map (·.1)).Pairwise (· < ·)) (key : String) (m : CachedModule) :
    ((Table.insertEntry key m l).map (·.2.size)).sum +
      (((l.find? (·.1 == key)).map (·.2)).map (·.size)).getD 0 =
        (l.map (·.2.size)).sum + m.size := by
  induction l with
  | nil => simp [Table.insertEntry]
  | cons e l ih =>
    obtain ⟨key', m'⟩ := e
    rw [List.map_cons, List.pairwise_cons] at h
    obtain ⟨hfirst, hrest⟩ := h
    simp only [Table.insertEntry]
    split
    · rename_i hlt
      -- the new entry comes before all others, so that none of them had its key
      have hnone : ((key', m') :: l).find? (·.1 == key) = none := by
        rw [List.find?_eq_none]
        intro x hx heq
        have hle : key < x.1 := by
          rcases List.mem_cons.mp hx with rfl | hx
          · exact hlt
          · exact lt_trans hlt (hfirst x.1 (List.mem_map_of_mem hx))
        exact ne_of_gt hle (beq_iff_eq.mp heq)
      simp only [hnone, List.map_cons, List.sum_cons, Option.map_none, Option.getD_none]
      omega
    · split
      · rename_i heq
        subst heq
        simp only [List.find?_cons, beq_self_eq_true, List.map_cons, List.sum_cons,
          Option.map_some, Option.getD_some]
        omega
      · rename_i hne
        have hbeq : (key' == key) = false := beq_eq_false_iff_ne.mpr fun heq => hne heq.symm
        have hsum := ih hrest
        simp only [List.find?_cons, hbeq, List.map_cons, List.sum_cons]
        omega

theorem sizes_insert {t : Table CachedModule} (h : t.Ordered) (key : String) (m : CachedModule) :
    sizes (t.insert key m) + heldSize t key = sizes t + m.size := sum_insertEntry h key m

/-- No module is larger than all together. -/
theorem heldSize_le {t : Table CachedModule} (h : t.Ordered) (key : String) :
    heldSize t key ≤ sizes t := by
  have hsum := sizes_insert h key ⟨default, "", 0⟩
  simp only at hsum
  omega

/-! ## Balance -/

/-- The sum of a cache is the one of its modules, and within the capacity. -/
structure Balanced (c : ModuleCache) : Prop where
  ordered : c.entries.Ordered
  bytes : c.bytes = sizes c.entries
  fits : c.bytes ≤ c.capacity

variable {c : ModuleCache}

theorem balanced_empty (capacity : Nat) : (empty capacity).Balanced :=
  ⟨Table.ordered_empty, rfl, Nat.zero_le _⟩

theorem balanced_clear (c : ModuleCache) : c.clear.Balanced :=
  ⟨Table.ordered_empty, rfl, Nat.zero_le _⟩

theorem entries_lookup (c : ModuleCache) (key : String) : (c.lookup key).2.entries = c.entries := by
  unfold lookup
  split <;> rfl

theorem lookup_fst (c : ModuleCache) (key : String) : (c.lookup key).1 = c.entries.get? key := by
  unfold lookup
  split
  · rename_i found hget
    exact hget.symm
  · rename_i hget
    exact hget.symm

theorem Balanced.lookup (h : c.Balanced) (key : String) : (c.lookup key).2.Balanced := by
  unfold ModuleCache.lookup
  split <;> exact ⟨h.ordered, h.bytes, h.fits⟩

/-- The size of a module that is replaced is part of the sum, so that it can be taken away. -/
theorem Balanced.heldSize_le (h : c.Balanced) (key : String) : heldSize c.entries key ≤ c.bytes := by
  rw [h.bytes]
  exact ModuleCache.heldSize_le h.ordered key

/-- The sum with a module in its place is the one of the modules with it in its place. -/
theorem Balanced.bytesWith_eq (h : c.Balanced) (key : String) (m : CachedModule) :
    c.bytesWith key m = sizes (c.entries.insert key m) := by
  have hsum := sizes_insert h.ordered key m
  have hheld := h.heldSize_le key
  show c.bytes - heldSize c.entries key + m.size = _
  rw [h.bytes] at hheld ⊢
  omega

/-- A module is admitted exactly when it fits together with all others. -/
theorem Balanced.keep_iff (h : c.Balanced) (key : String) (m : CachedModule) :
    (c.keep key m).1 = true ↔ sizes (c.entries.insert key m) ≤ c.capacity := by
  rw [← h.bytesWith_eq, ← Nat.not_lt]
  unfold keep
  split
  · rename_i hover
    exact iff_of_false (by simp) fun hfits => hfits hover
  · rename_i hfits
    exact iff_of_true rfl hfits

/-- A cache that refuses a module stays as it is. -/
theorem keep_of_refused {key : String} {module : CachedModule}
    (h : (c.keep key module).1 = false) : (c.keep key module).2 = c := by
  unfold keep at h ⊢
  split at h
  · rename_i hover
    rw [if_pos hover]
  · cases h

/-- A cache that admits a module has it in its place. -/
theorem entries_keep_of_admitted {key : String} {module : CachedModule}
    (h : (c.keep key module).1 = true) :
    (c.keep key module).2.entries = c.entries.insert key module := by
  unfold keep at h ⊢
  split at h
  · cases h
  · rename_i hfits
    rw [if_neg hfits]

theorem Balanced.keep (h : c.Balanced) (key : String) (m : CachedModule) :
    (c.keep key m).2.Balanced := by
  unfold ModuleCache.keep
  split
  · exact h
  · rename_i hfits
    exact ⟨Table.ordered_insert h.ordered _ _, h.bytesWith_eq key m, Nat.not_lt.mp hfits⟩

/-! ## Books -/

/-- Something that is done with a cache. -/
inductive Access where
  | lookup (key : String)
  | keep (key : String) (m : CachedModule)
  | clear

/-- What came of it. -/
inductive Outcome where
  | looked (key : String) (found : Option CachedModule)
  | admitted (key : String) (m : CachedModule)
  | refused (key : String) (m : CachedModule)
  | cleared

namespace Access

def isLookup : Access → Bool
  | lookup _ => true
  | keep .. | clear => false

end Access

def access (c : ModuleCache) : Access → Outcome × ModuleCache
  | .lookup key => Prod.map (.looked key) id (c.lookup key)
  | .keep key m => Prod.map (fun kept => if kept then .admitted key m else .refused key m) id
    (c.keep key m)
  | .clear => (.cleared, c.clear)

def Outcome.standing (key : String) (last : Option CachedModule) : Outcome → Option CachedModule
  | admitted key' m => if key' = key then some m else last
  | looked .. | refused .. => last
  | cleared => none

def lastAdmitted (key : String) (outcomes : List Outcome) : Option CachedModule :=
  outcomes.foldl (Outcome.standing key) none

/-- A cache, and what came of all that was done with it, in order. -/
structure Book where
  cache : ModuleCache
  outcomes : List Outcome

namespace Book

/-- Something is done with the cache. -/
def next (b : Book) (x : Access) : Book :=
  ⟨(b.cache.access x).2, b.outcomes ++ [(b.cache.access x).1]⟩

/-- A new cache after some accesses. -/
def after (capacity : Nat) (xs : List Access) : Book := xs.foldl next ⟨.empty capacity, []⟩

theorem after_append (capacity : Nat) (xs : List Access) (x : Access) :
    after capacity (xs ++ [x]) = (after capacity xs).next x := List.foldl_concat ..

/-- What is written in a book that holds some accesses. -/
structure Right (capacity : Nat) (xs : List Access) (b : Book) : Prop where
  balanced : b.cache.Balanced
  capacity : b.cache.capacity = capacity
  counts : b.cache.hits + b.cache.misses = xs.countP (·.isLookup)
  stands : ∀ key, b.cache.entries.get? key = lastAdmitted key b.outcomes

variable {b : Book} {capacity : Nat} {xs : List Access}

theorem lastAdmitted_next (b : Book) (x : Access) (key : String) :
    lastAdmitted key (b.next x).outcomes =
      (b.cache.access x).1.standing key (lastAdmitted key b.outcomes) := by
  unfold lastAdmitted next
  exact List.foldl_concat ..

theorem Right.lookup (h : b.Right capacity xs) (key : String) :
    (b.next (.lookup key)).Right capacity (xs ++ [.lookup key]) where
  balanced := h.balanced.lookup key
  capacity := by
    rw [← h.capacity]
    show (b.cache.lookup key).2.capacity = _
    unfold ModuleCache.lookup
    split <;> rfl
  counts := by
    show (b.cache.lookup key).2.hits + (b.cache.lookup key).2.misses = _
    rw [lookup_counts, h.counts, List.countP_append]
    rfl
  stands key' := by
    rw [lastAdmitted_next]
    show (b.cache.lookup key).2.entries.get? key' = lastAdmitted key' b.outcomes
    rw [entries_lookup, h.stands]

theorem Right.keep (h : b.Right capacity xs) (key : String) (m : CachedModule) :
    (b.next (.keep key m)).Right capacity (xs ++ [.keep key m]) where
  balanced := h.balanced.keep key m
  capacity := by
    rw [← h.capacity]
    show (b.cache.keep key m).2.capacity = _
    unfold ModuleCache.keep
    split <;> rfl
  counts := by
    have hsame : (b.cache.keep key m).2.hits = b.cache.hits ∧
        (b.cache.keep key m).2.misses = b.cache.misses := by
      unfold ModuleCache.keep
      split <;> exact ⟨rfl, rfl⟩
    show (b.cache.keep key m).2.hits + (b.cache.keep key m).2.misses = _
    rw [hsame.1, hsame.2, h.counts, List.countP_append]
    rfl
  stands key' := by
    rw [lastAdmitted_next]
    show (b.cache.keep key m).2.entries.get? key' =
      Outcome.standing key' _ (if (b.cache.keep key m).1 then .admitted key m else .refused key m)
    cases hkept : (b.cache.keep key m).1 with
    | true =>
      rw [entries_keep_of_admitted hkept, Table.get?_insert, h.stands]
      rfl
    | false =>
      rw [keep_of_refused hkept, h.stands]
      rfl

theorem Right.clear (h : b.Right capacity xs) :
    (b.next .clear).Right capacity (xs ++ [.clear]) where
  balanced := balanced_clear b.cache
  capacity := h.capacity
  counts := by
    rw [List.countP_append]
    exact h.counts
  stands key := by
    rw [lastAdmitted_next]
    rfl

theorem Right.next (h : b.Right capacity xs) (x : Access) :
    (b.next x).Right capacity (xs ++ [x]) := by
  cases x with
  | lookup key => exact h.lookup key
  | keep key m => exact h.keep key m
  | clear => exact h.clear

theorem right_after (capacity : Nat) (xs : List Access) : (after capacity xs).Right capacity xs := by
  induction xs using List.reverseRecOn with
  | nil => exact ⟨balanced_empty capacity, rfl, rfl, fun key => rfl⟩
  | append_singleton xs x ih =>
    rw [after_append]
    exact ih.next x

end Book

/-- Modules go only when the cache is cleared. -/
theorem contains_access (c : ModuleCache) {x : Access} (hx : x ≠ .clear) {key : String}
    (h : c.entries.contains key = true) : (c.access x).2.entries.contains key = true := by
  cases x with
  | lookup key' =>
    show (c.lookup key').2.entries.contains key = true
    rw [entries_lookup]
    exact h
  | keep key' m =>
    show (c.keep key' m).2.entries.contains key = true
    cases hkept : (c.keep key' m).1 with
    | true =>
      rw [entries_keep_of_admitted hkept, Table.contains_iff]
      exact Table.mem_keys_insert.mpr (.inr (Table.contains_iff.mp h))
    | false =>
      rw [keep_of_refused hkept]
      exact h
  | clear => exact absurd rfl hx

/-- What offering a module to a cache amounts to: what it replaces can be taken away and its size
can be added within sixty-four bits; it is admitted, and takes its place, if all modules fit then,
and leaves no trace otherwise. -/
structure Weighs (c : ModuleCache) (key : String) (m : CachedModule) : Prop where
  taken : heldSize c.entries key ≤ c.bytes
  added : c.bytes - heldSize c.entries key + m.size < 2 ^ 64
  admits : (c.keep key m).1 = true ↔ sizes (c.entries.insert key m) ≤ c.capacity
  admitted : (c.keep key m).1 = true → (c.keep key m).2.entries = c.entries.insert key m
  refused : (c.keep key m).1 = false → (c.keep key m).2 = c

theorem Balanced.weighs (h : c.Balanced) (hroom : c.capacity + Limits.maxModuleSize < 2 ^ 64)
    (key : String) {m : CachedModule} (hm : m.size ≤ Limits.maxModuleSize) : c.Weighs key m where
  taken := h.heldSize_le key
  added := by
    have hfits := h.fits
    omega
  admits := h.keep_iff key m
  admitted := entries_keep_of_admitted
  refused := keep_of_refused

/-- After any accesses to a new cache: the sum is the one of the modules that are there, and within
the capacity; the next module that is offered, of a size that modules may have, is weighed without
leaving sixty-four bits, and admitted exactly when all modules fit with it in its place; modules go
only when the cache is cleared; each look-up was counted as a hit or as a miss; and a look-up finds
what was admitted last under the key since the cache was cleared last. -/
theorem accounts_kept {capacity : Nat} (hroom : capacity + Limits.maxModuleSize < 2 ^ 64)
    (xs : List Access) :
    let b := Book.after capacity xs
    b.cache.bytes = sizes b.cache.entries ∧ b.cache.bytes ≤ capacity ∧
    (∀ key m, m.size ≤ Limits.maxModuleSize → b.cache.Weighs key m) ∧
    (∀ x key, x ≠ .clear → b.cache.entries.contains key = true →
      (b.cache.access x).2.entries.contains key = true) ∧
    b.cache.hits + b.cache.misses = xs.countP (·.isLookup) ∧
    ∀ key, (b.cache.lookup key).1 = lastAdmitted key b.outcomes := by
  intro b
  have h : b.Right capacity xs := Book.right_after capacity xs
  have hfits : b.cache.bytes ≤ capacity := h.capacity ▸ h.balanced.fits
  have hroom' : b.cache.capacity + Limits.maxModuleSize < 2 ^ 64 := h.capacity ▸ hroom
  refine ⟨h.balanced.bytes, hfits, fun key m hm => h.balanced.weighs hroom' key hm,
    fun x key hx => contains_access b.cache hx, h.counts, fun key => ?_⟩
  rw [lookup_fst, h.stands]

/-- A cache of ten bytes: a module of six is admitted, one of five next to it is not, a smaller one
takes the place of the first so that the other fits, and all are gone when the cache is cleared. -/
theorem accounts_kept_of_ten :
    let small : CachedModule := ⟨default, "small", 4⟩
    let middle : CachedModule := ⟨default, "middle", 5⟩
    let large : CachedModule := ⟨default, "large", 6⟩
    let xs : List Access := [.keep "a" large, .keep "b" middle, .lookup "b", .keep "a" small,
      .keep "b" middle, .lookup "a"]
    let b := Book.after 10 xs
    (b.cache.bytes = 9 ∧ b.cache.hits = 1 ∧ b.cache.misses = 1) ∧
    b.cache.bytes = sizes b.cache.entries ∧ b.cache.Weighs "c" large ∧
    (b.cache.keep "c" large).1 = false ∧ (b.cache.keep "a" middle).1 = true ∧
    (b.cache.lookup "a").1 = lastAdmitted "a" b.outcomes ∧
    ((b.cache.lookup "a").1.map (·.digest)) = some "small" ∧
    (b.next .clear).cache.entries.size = 0 := by
  intro small middle large xs b
  have hroom : 10 + Limits.maxModuleSize < 2 ^ 64 := by decide
  obtain ⟨hbytes, -, hweighs, -, -, hlast⟩ := accounts_kept hroom xs
  exact ⟨⟨by decide +kernel, by decide +kernel, by decide +kernel⟩, hbytes,
    hweighs "c" large (by decide), by decide +kernel, by decide +kernel, hlast "a",
    by decide +kernel, by decide +kernel⟩

end ContainerHost.ModuleCache
