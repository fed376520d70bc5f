import ContainerHost.Config.Container
import ContainerHost.Guest.Compiled
/-!
# The cache of compiled modules

Compiled modules by name and configuration. A module is kept while the sizes of all modules stay
within the capacity, and none is ever put out for another. Look-ups are counted.

Correspondence: `CachedModule`, `ModuleCache`, `CacheStats` ↔ `CachedModule`, `ModuleCache`,
`CacheStats`; `cache_key`, `get`, `insert`, `clear`, `stats` ↔ `key`, `lookup`, `keep`, `clear`,
`stats`.
-/

namespace ContainerHost

/-- A compiled module with the digest and the size of the bytes that it was compiled from. -/
structure CachedModule where
  module : Guest.Compiled
  digest : String
  size : Nat
  deriving Inhabited

/-- The figures of a cache. -/
structure CacheStats where
  entries : Nat
  bytes : Nat
  capacity : Nat
  hits : Nat
  misses : Nat
  deriving DecidableEq, Repr, Inhabited

def CacheStats.toJson (s : CacheStats) : Json.Value := .obj [
  ("entries", .nat s.entries), ("bytes", .nat s.bytes), ("capacity", .nat s.capacity),
  ("hits", .nat s.hits), ("misses", .nat s.misses)]

/-- Compiled modules, the sum of their sizes, and the counts of look-ups. -/
structure ModuleCache where
  entries : Table CachedModule
  bytes : Nat
  capacity : Nat
  hits : Nat
  misses : Nat
  deriving Inhabited

namespace ModuleCache

def empty (capacity : Nat) : ModuleCache := ⟨.empty, 0, capacity, 0, 0⟩

def key (name : String) (c : ContainerConfig) : String := name ++ c.fragment

/-- Looks a module up and counts it. -/
def lookup (c : ModuleCache) (key : String) : Option CachedModule × ModuleCache :=
  match c.entries.get? key with
  | some m => (some m, { c with hits := c.hits + 1 })
  | none => (none, { c with misses := c.misses + 1 })

/-- The sum of sizes with a module in the place of the one under its key. -/
def bytesWith (c : ModuleCache) (key : String) (m : CachedModule) : Nat :=
  c.bytes - ((c.entries.get? key).map (·.size)).getD 0 + m.size

/-- Admits a module, if it fits; says whether it did. -/
def keep (c : ModuleCache) (key : String) (m : CachedModule) : Bool × ModuleCache :=
  if c.bytesWith key m > c.capacity then (false, c)
  else (true, { c with entries := c.entries.insert key m, bytes := c.bytesWith key m })

/-- Removes all modules; the counts stay. -/
def clear (c : ModuleCache) : ModuleCache := { c with entries := .empty, bytes := 0 }

def stats (c : ModuleCache) : CacheStats :=
  ⟨c.entries.size, c.bytes, c.capacity, c.hits, c.misses⟩

theorem bytes_keep_le (c : ModuleCache) (key : String) (m : CachedModule)
    (h : c.bytes ≤ c.capacity) : (c.keep key m).2.bytes ≤ (c.keep key m).2.capacity := by
  unfold keep
  split
  · exact h
  · simpa using ‹¬c.bytesWith key m > c.capacity›

theorem lookup_counts (c : ModuleCache) (key : String) :
    (c.lookup key).2.hits + (c.lookup key).2.misses = c.hits + c.misses + 1 := by
  unfold lookup
  split <;> simp only <;> omega

end ModuleCache
end ContainerHost
