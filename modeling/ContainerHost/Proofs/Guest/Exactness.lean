import ContainerHost.Guest.HostFunc
import ContainerHost.Proofs.Guest.Bytes
/-!
# Host functions do all or nothing

A host function that deals with ranges of memory or with the storage refuses exactly if something is
wrong with a range that it has to read or write, or with a length that is bounded, and then it has
done nothing. Otherwise it writes its bytes at their place, or changes the entry of its key, and
nothing else: ranges may overlap, be empty, or reach to the last byte.

For the side of refusals each function is also written down as a `Routine`, which reads and writes
one after the other, and in which what was done before a refusal stays done. `work_spec` says that
these are the host functions, and that none of them has done anything when it refuses.

What is proved: `imports_exact`.
-/

namespace ContainerHost.Guest

open Wasm (Value)
open Store

/-! ## Numbers -/

/-- The number that the guest reads is the one that was written. -/
theorem signed32_bits32 {i : Int} (hlow : -(1 <<< 31 : Nat) ≤ i) (hhigh : i < (1 <<< 31 : Nat)) :
    signed32 (bits32 i) = i := by
  have hsize : ((1 <<< 32 : Nat) : Int) = 4294967296 := rfl
  have hbits : (bits32 i).toNat = (i % 4294967296).toNat := by
    unfold bits32
    rw [hsize, UInt32.toNat_ofNat', Nat.mod_eq_of_lt (by omega)]
  unfold signed32
  rw [hbits, hsize]
  split <;> omega

/-! ## What host functions are made of -/

/-- The text that is read for a key of `len` bytes at `ptr`: what its first bytes stand for. -/
def Store.keyAt (s : Store) (p : Place) (ptr len : Int) : String :=
  Text.Utf8.decodeString (s.bytesFrom p ptr.toNat (min len maxTextBytes).toNat)

/-- Copies a value, if there is one, to the `cap` bytes at `out`. -/
def copyFound (p : Place) (s : Store) (value? : Option (List UInt8)) (out cap : Int) :
    Except Refusal (Store × Int) :=
  match value? with
  | some value => copyOut p s value out cap
  | none => .ok (s, -1)

/-- What comes of copying a value, if there is one, to the `cap` bytes at `out`: as much of it as
there is room for stands there, and the answer is its length, or -1 if there is none. -/
def Copied (p : Place) (s : Store) (value? : Option (List UInt8)) (out cap : Int)
    (t : Store) (answer : Int) : Prop :=
  match value? with
  | none => t = s ∧ answer = -1
  | some value => Wrote p s t out.toNat (value.take cap.toNat) ∧
    answer = (min value.length (1 <<< 31 - 1) : Nat)

/-- The answer is a number of thirty-two bits. -/
theorem Copied.range {p : Place} {s t : Store} {value? : Option (List UInt8)} {out cap i : Int}
    (h : Copied p s value? out cap t i) : -(1 <<< 31 : Nat) ≤ i ∧ i < (1 <<< 31 : Nat) := by
  cases value? with
  | none =>
    have hanswer : i = -1 := h.2
    omega
  | some value =>
    have hanswer : i = (min value.length (1 <<< 31 - 1) : Nat) := h.2
    omega

/-- `t` differs from `s` by the value that stands under a key, and by nothing else. -/
def Keyed (s t : Store) (key : String) (value? : Option (List UInt8)) : Prop :=
  t = { s with storage := t.storage } ∧
    ∀ key', t.storage.get? key' = if key = key' then value? else s.storage.get? key'

variable (p : Place) (s : Store)

theorem exactly_readText (ptr len : Int) :
    Exactly (readText p s ptr len) (s.Inside p ptr (min len maxTextBytes))
      (· = s.keyAt p ptr len) := by
  unfold readText
  refine ((exactly_readBytes p s ptr _).bind (B := True) fun bytes hbytes => ?_).congr (by simp)
  subst hbytes
  exact .ok rfl

theorem exactly_copyOut (value : List UInt8) (out cap : Int) :
    Exactly (copyOut p s value out cap) (s.Inside p out (min (max cap 0) value.length))
      fun r => Copied p s (some value) out cap r.1 r.2 := by
  unfold copyOut
  have hlength : ((value.take cap.toNat).length : Int) = min (max cap 0) value.length := by
    rw [List.length_take]
    omega
  rw [← hlength]
  refine ((exactly_writeBytes p s out _).bind (B := True) fun t ht => ?_).congr (by simp)
  refine .ok ⟨ht, ?_⟩
  omega

theorem exactly_copyFound (value? : Option (List UInt8)) (out cap : Int) :
    Exactly (copyFound p s value? out cap)
      (∀ value, value? = some value → s.Inside p out (min (max cap 0) value.length))
      fun r => Copied p s value? out cap r.1 r.2 := by
  cases value? with
  | none => exact (Exactly.ok ⟨rfl, rfl⟩).congr (by simp)
  | some value => exact (exactly_copyOut p s value out cap).congr (by simp)

namespace HostFunc

theorem exactly_bounded (len : Int) :
    Exactly (bounded len) (0 ≤ len ∧ len ≤ maxHostBuffer) (· = len.toNat) := by
  unfold bounded
  simp only [Bool.and_eq_true, decide_eq_true_eq]
  exact ⟨fun h => ⟨_, if_pos h, rfl⟩, fun h => ⟨_, if_neg h⟩⟩

/-- A range is read, something is made of it, and this is written. -/
theorem exactly_transfer (ptr len out : Int) {f : List UInt8 → List UInt8} {n : Int}
    (hf : ∀ bytes : List UInt8, bytes.length = len.toNat → ((f bytes).length : Int) = n) :
    Exactly (do
        let n ← bounded len
        let bytes ← readBytes p s ptr n
        writeBytes p s out (f bytes))
      ((0 ≤ len ∧ len ≤ maxHostBuffer) ∧ s.Inside p ptr len ∧ s.Inside p out n)
      (Wrote p s · out.toNat (f (s.bytesFrom p ptr.toNat len.toNat))) := by
  by_cases hlen : 0 ≤ len
  · refine (exactly_bounded len).bind fun n hn => ?_
    subst hn
    have hcast : (len.toNat : Int) = len := Int.toNat_of_nonneg hlen
    rw [hcast]
    refine (exactly_readBytes p s ptr len).bind fun bytes hbytes => ?_
    subst hbytes
    refine (exactly_writeBytes p s out _).congr ?_
    rw [hf _ (length_bytesFrom s p _ _)]
  · refine ⟨fun h => absurd h.1.1 hlen, fun _ => ?_⟩
    obtain ⟨e, he⟩ := (exactly_bounded len).fails fun h => hlen h.1
    exact ⟨e, by rw [he]; rfl⟩

theorem exactly_gives {r : Except Refusal Store} {fine : Prop} {P : Store → Prop}
    (h : Exactly r fine P) : Exactly (gives r) fine fun a => P a.1 ∧ a.2 = [] := by
  refine ⟨fun hfine => ?_, fun hnot => ?_⟩
  · obtain ⟨t, rfl, ht⟩ := h.comes hfine
    exact ⟨(t, []), rfl, ht, rfl⟩
  · obtain ⟨e, rfl⟩ := h.fails hnot
    exact ⟨.refused e, rfl⟩

theorem exactly_gives32 {r : Except Refusal (Store × Int)} {fine : Prop}
    {P : Store × Int → Prop} (h : Exactly r fine P)
    (hrange : ∀ r, P r → -(1 <<< 31 : Nat) ≤ r.2 ∧ r.2 < (1 <<< 31 : Nat)) :
    Exactly (gives32 r) fine fun a => ∃ n, a.2 = [.i32 n] ∧ P (a.1, signed32 n) := by
  refine ⟨fun hfine => ?_, fun hnot => ?_⟩
  · obtain ⟨⟨t, i⟩, rfl, ht⟩ := h.comes hfine
    obtain ⟨hlow, hhigh⟩ := hrange _ ht
    exact ⟨(t, [.i32 (bits32 i)]), rfl, _, rfl, by rw [signed32_bits32 hlow hhigh]; exact ht⟩
  · obtain ⟨e, rfl⟩ := h.fails hnot
    exact ⟨.refused e, rfl⟩

end HostFunc

/-! ## One thing after the other -/

/-- A host function at work. What it has done before it refuses stays done. -/
abbrev Routine (α : Type) : Type := ExceptT Refusal (StateM Store) α

namespace Routine

variable {α β : Type}

def looks (f : Store → Except Refusal α) : Routine α := fun s => (f s, s)

/-- Makes one change to the store, or refuses to. -/
def changes (f : Store → Except Refusal Store) : Routine Unit := fun s =>
  match f s with
  | .ok t => (.ok (), t)
  | .error e => (.error e, s)

theorem looks_bind (f : Store → Except Refusal α) (g : α → Routine β) (s : Store) :
    (looks f >>= g) s = match f s with
      | .ok a => g a s
      | .error e => (.error e, s) := by
  show ExceptT.bindCont g (f s) s = _
  cases f s with
  | ok a => rfl
  | error e => rfl

theorem changes_bind (f : Store → Except Refusal Store) (g : Unit → Routine β) (s : Store) :
    (changes f >>= g) s = match f s with
      | .ok t => g () t
      | .error e => (.error e, s) := by
  show ExceptT.bindCont g (changes f s).1 (changes f s).2 = _
  unfold changes
  cases f s with
  | ok t => rfl
  | error e => rfl

end Routine

open Routine

namespace HostFunc

/-- The host functions that deal with ranges of memory or with the storage, step by step: what they
look at first, and what they change last. -/
def work (p : Place) : HostFunc → List Value → Option (Routine (List Value))
  | .bufferCopy, [.i32 dst, .i32 src, .i32 len] => some do
    let n ← looks fun _ => bounded (signed32 len)
    let bytes ← looks fun s => readBytes p s (signed32 src) n
    changes fun s => writeBytes p s (signed32 dst) bytes
    pure []
  | .bufferFill, [.i32 dst, .i32 v, .i32 len] => some do
    let n ← looks fun _ => bounded (signed32 len)
    changes fun s => fillBytes p s (signed32 dst) n v.toUInt8
    pure []
  | .sha256, [.i32 ptr, .i32 len, .i32 out] => some do
    let n ← looks fun _ => bounded (signed32 len)
    let bytes ← looks fun s => readBytes p s (signed32 ptr) n
    changes fun s => writeBytes p s (signed32 out) (Sha256.digest ⟨bytes.toArray⟩)
    pure []
  | .envGet, [.i32 k, .i32 n, .i32 out, .i32 cap] => some do
    let key ← looks fun s => readText p s (signed32 k) (signed32 n)
    give (p.environment.get? key |>.map (·.toUTF8.toList)) (signed32 out) (signed32 cap)
  | .storageGet, [.i32 k, .i32 n, .i32 out, .i32 cap] => some do
    let key ← looks fun s => readText p s (signed32 k) (signed32 n)
    let value? ← looks fun s => .ok (s.storage.get? key)
    give value? (signed32 out) (signed32 cap)
  | .storageSet, [.i32 k, .i32 n, .i32 v, .i32 m] => some do
    let key ← looks fun s => readText p s (signed32 k) (signed32 n)
    let value ← looks fun s => readBytes p s (signed32 v) (signed32 m)
    changes fun s => .ok { s with storage := s.storage.insert key value }
    pure []
  | .storageRemove, [.i32 k, .i32 n] => some do
    let key ← looks fun s => readText p s (signed32 k) (signed32 n)
    let there ← looks fun s => .ok (s.storage.contains key)
    changes fun s => .ok { s with storage := s.storage.erase key }
    pure [.i32 (bits32 (if there then 1 else 0))]
  | _, _ => none
where
  /-- Copies a value, if there is one, and answers. -/
  give (value? : Option (List UInt8)) (out cap : Int) : Routine (List Value) :=
    match value? with
    | some value => do
      changes fun s => writeBytes p s out (value.take cap.toNat)
      pure [.i32 (bits32 (min value.length (1 <<< 31 - 1)))]
    | none => pure [.i32 (bits32 (-1))]

/-- What comes of a routine on a store is what the host function says: it has come to its end, or it
has refused and the store is as it was. -/
def Agrees (s : Store) (answer : Answer) (r : Routine (List Value)) : Prop :=
  (∃ t results, answer = .ok (t, results) ∧ r s = (.ok results, t)) ∨
    ∃ e, answer = .error (.refused e) ∧ r s = (.error e, s)

theorem agrees_looks {α β : Type} (f : Store → Except Refusal α) {k : α → Except Refusal β}
    {g : α → Routine (List Value)} {fin : Except Refusal β → Answer}
    (hfin : ∀ e, fin (.error e) = .error (.refused e)) (h : ∀ a, Agrees s (fin (k a)) (g a)) :
    Agrees s (fin (f s >>= k)) (looks f >>= g) := by
  rw [Agrees, looks_bind]
  cases f s with
  | ok a => exact h a
  | error e => exact .inr ⟨e, hfin e, rfl⟩

theorem agrees_changes (f : Store → Except Refusal Store) :
    Agrees s (gives (f s)) (changes f >>= fun _ => pure []) := by
  rw [Agrees, changes_bind]
  cases f s with
  | ok t => exact .inl ⟨t, [], rfl, rfl⟩
  | error e => exact .inr ⟨e, rfl, rfl⟩

theorem agrees_give (value? : Option (List UInt8)) (out cap : Int) :
    Agrees s (gives32 (copyFound p s value? out cap)) (work.give p value? out cap) := by
  cases value? with
  | none => exact .inl ⟨s, _, rfl, rfl⟩
  | some value =>
    have hwork := changes_bind (fun s => writeBytes p s out (value.take cap.toNat)) (fun _ =>
      (pure [.i32 (bits32 (min value.length (1 <<< 31 - 1)))] : Routine (List Value))) s
    simp only [Agrees, copyFound, copyOut, work.give, hwork]
    cases writeBytes p s out (value.take cap.toNat) with
    | ok t => exact .inl ⟨t, _, rfl, rfl⟩
    | error e => exact .inr ⟨e, rfl, rfl⟩

theorem runEnvGet_eq (k n out cap : Int) :
    runEnvGet p s k n out cap = readText p s k n >>= fun key =>
      copyFound p s ((p.environment.get? key).map (·.toUTF8.toList)) out cap := by
  unfold runEnvGet
  congr 1
  funext key
  cases p.environment.get? key <;> rfl

/-- Each of these host functions does what its routine does: it comes to its end, or it refuses and
has done nothing. -/
theorem work_spec {f : HostFunc} {args : List Value} {r : Routine (List Value)}
    (h : f.work p args = some r) : Agrees s (f.call p s args) r := by
  unfold work at h
  -- what each of them looks at, in order, and then the change that it makes
  split at h
  · rename_i dst src len
    cases h
    exact agrees_looks s (fun _ => bounded (signed32 len)) (fun _ => rfl) fun n =>
      agrees_looks s (fun s => readBytes p s (signed32 src) n) (fun _ => rfl) fun bytes =>
        agrees_changes s fun s => writeBytes p s (signed32 dst) bytes
  · rename_i dst v len
    cases h
    exact agrees_looks s (fun _ => bounded (signed32 len)) (fun _ => rfl) fun n =>
      agrees_changes s fun s => fillBytes p s (signed32 dst) n v.toUInt8
  · rename_i ptr len out
    cases h
    exact agrees_looks s (fun _ => bounded (signed32 len)) (fun _ => rfl) fun n =>
      agrees_looks s (fun s => readBytes p s (signed32 ptr) n) (fun _ => rfl) fun bytes =>
        agrees_changes s fun s => writeBytes p s (signed32 out) (Sha256.digest ⟨bytes.toArray⟩)
  · rename_i k n out cap
    cases h
    show Agrees s (gives32 (runEnvGet p s _ _ _ _)) _
    rw [runEnvGet_eq]
    exact agrees_looks s (fun s => readText p s (signed32 k) (signed32 n)) (fun _ => rfl)
      fun key => agrees_give p s _ _ _
  · rename_i k n out cap
    cases h
    exact agrees_looks s (fun s => readText p s (signed32 k) (signed32 n)) (fun _ => rfl)
      fun key => agrees_looks s (fun s => .ok (s.storage.get? key)) (fun _ => rfl)
        fun value? => agrees_give p s value? (signed32 out) (signed32 cap)
  · rename_i k n v m
    cases h
    exact agrees_looks s (fun s => readText p s (signed32 k) (signed32 n)) (fun _ => rfl)
      fun key => agrees_looks s (fun s => readBytes p s (signed32 v) (signed32 m)) (fun _ => rfl)
        fun value => agrees_changes s fun s =>
          .ok { s with storage := s.storage.insert key value }
  · rename_i k n
    cases h
    show Agrees s (gives32 (readText p s _ _ >>= fun key =>
      .ok ({ s with storage := s.storage.erase key }, if s.storage.contains key then 1 else 0))) _
    exact agrees_looks s (fun s => readText p s (signed32 k) (signed32 n)) (fun _ => rfl)
      fun key => .inl ⟨_, _, rfl, rfl⟩
  · cases h

/-! ## The imports -/

theorem exactly_bufferCopy (dst src len : Int) :
    Exactly (runBufferCopy p s dst src len)
      ((0 ≤ len ∧ len ≤ maxHostBuffer) ∧ s.Inside p src len ∧ s.Inside p dst len)
      (Wrote p s · dst.toNat (s.bytesFrom p src.toNat len.toNat)) := by
  have htransfer := exactly_transfer p s src len dst (f := id) (n := len.toNat)
    fun bytes hbytes => congrArg _ hbytes
  refine htransfer.congr (and_congr_right fun hlen => ?_)
  rw [Int.toNat_of_nonneg hlen.1]

theorem exactly_bufferFill (dst : Int) (v : UInt32) (len : Int) :
    Exactly (runBufferFill p s dst v len)
      ((0 ≤ len ∧ len ≤ maxHostBuffer) ∧ s.Inside p dst len)
      (Wrote p s · dst.toNat (List.replicate len.toNat v.toUInt8)) := by
  refine ((exactly_bounded len).bind (B := s.Inside p dst len.toNat) fun n hn => ?_).congr
    (and_congr_right fun hlen => ?_)
  · subst hn
    have hwrite := exactly_writeBytes p s dst (List.replicate len.toNat v.toUInt8)
    rw [List.length_replicate] at hwrite
    rw [fillBytes_eq]
    exact hwrite
  · rw [Int.toNat_of_nonneg hlen.1]

theorem exactly_sha256 (ptr len out : Int) :
    Exactly (runSha256 p s ptr len out)
      ((0 ≤ len ∧ len ≤ maxHostBuffer) ∧ s.Inside p ptr len ∧ s.Inside p out 32)
      (Wrote p s · out.toNat
        (Sha256.digest ⟨(s.bytesFrom p ptr.toNat len.toNat).toArray⟩)) :=
  exactly_transfer p s ptr len out fun _ _ => congrArg _ (Sha256.length_digest _)

theorem exactly_envGet (k n out cap : Int) :
    let value? := (p.environment.get? (s.keyAt p k n)).map (·.toUTF8.toList)
    Exactly (runEnvGet p s k n out cap)
      (s.Inside p k (min n maxTextBytes) ∧
        ∀ value, value? = some value → s.Inside p out (min (max cap 0) value.length))
      fun r => Copied p s value? out cap r.1 r.2 := by
  intro value?
  rw [runEnvGet_eq]
  refine (exactly_readText p s k n).bind fun key hkey => ?_
  subst hkey
  exact exactly_copyFound p s value? out cap

theorem exactly_storageGet (k n out cap : Int) :
    let value? := s.storage.get? (s.keyAt p k n)
    Exactly (runStorageGet p s k n out cap)
      (s.Inside p k (min n maxTextBytes) ∧
        ∀ value, value? = some value → s.Inside p out (min (max cap 0) value.length))
      fun r => Copied p s value? out cap r.1 r.2 := by
  intro value?
  refine (exactly_readText p s k n).bind fun key hkey => ?_
  subst hkey
  exact exactly_copyFound p s value? out cap

theorem exactly_storageSet (k n v m : Int) :
    Exactly (runStorageSet p s k n v m)
      (s.Inside p k (min n maxTextBytes) ∧ s.Inside p v m)
      (Keyed s · (s.keyAt p k n) (some (s.bytesFrom p v.toNat m.toNat))) := by
  refine (exactly_readText p s k n).bind fun key hkey => ?_
  subst hkey
  refine ((exactly_readBytes p s v m).bind (B := True) fun value hvalue => ?_).congr (by simp)
  subst hvalue
  exact .ok ⟨rfl, fun key' => Table.get?_insert ..⟩

theorem exactly_storageRemove (k n : Int) :
    Exactly (runStorageRemove p s k n) (s.Inside p k (min n maxTextBytes))
      fun r => Keyed s r.1 (s.keyAt p k n) none ∧
        r.2 = if (s.storage.get? (s.keyAt p k n)).isSome then 1 else 0 := by
  refine ((exactly_readText p s k n).bind (B := True) fun key hkey => ?_).congr (by simp)
  subst hkey
  exact .ok ⟨⟨rfl, fun key' => Table.get?_erase ..⟩, rfl⟩

theorem exactly_call_storageGet (k n out cap : UInt32) :
    let value? := s.storage.get? (s.keyAt p (signed32 k) (signed32 n))
    Exactly (HostFunc.storageGet.call p s [.i32 k, .i32 n, .i32 out, .i32 cap])
      (s.Inside p (signed32 k) (min (signed32 n) maxTextBytes) ∧ ∀ value, value? = some value →
        s.Inside p (signed32 out) (min (max (signed32 cap) 0) value.length))
      fun a => ∃ i, a.2 = [.i32 i] ∧
        Copied p s value? (signed32 out) (signed32 cap) a.1 (signed32 i) :=
  exactly_gives32 (exactly_storageGet p s _ _ _ _) fun _ => Copied.range

theorem exactly_call_storageSet (k n v m : UInt32) :
    Exactly (HostFunc.storageSet.call p s [.i32 k, .i32 n, .i32 v, .i32 m])
      (s.Inside p (signed32 k) (min (signed32 n) maxTextBytes) ∧
        s.Inside p (signed32 v) (signed32 m))
      fun a => Keyed s a.1 (s.keyAt p (signed32 k) (signed32 n))
        (some (s.bytesFrom p (signed32 v).toNat (signed32 m).toNat)) ∧ a.2 = [] :=
  exactly_gives (exactly_storageSet p s _ _ _ _)

theorem exactly_call_storageRemove (k n : UInt32) :
    let key := s.keyAt p (signed32 k) (signed32 n)
    Exactly (HostFunc.storageRemove.call p s [.i32 k, .i32 n])
      (s.Inside p (signed32 k) (min (signed32 n) maxTextBytes))
      fun a => ∃ i, a.2 = [.i32 i] ∧ Keyed s a.1 key none ∧
        signed32 i = if (s.storage.get? key).isSome then 1 else 0 := by
  refine exactly_gives32 (exactly_storageRemove p s _ _) fun r hr => ?_
  rw [hr.2]
  split <;> omega

end HostFunc

open HostFunc

/-- Host functions are exact. Whatever is in memory, in the storage and in the environment, and
whatever the guest asks for, each of these functions comes back exactly if the ranges that it has to
read and to write are inside, a key being read up to its first bytes, and a length that is bounded
is within its bounds. Then it has written these bytes, or changed the entry of this key, and nothing
else; else it refuses, and it has done nothing before. A value is copied as far as there is room for
it, and the answer is its length, so that a second call with room for all of it gets all of it. -/
theorem imports_exact (p : Place) (s : Store) :
    (∀ dst src len : UInt32,
      Exactly (HostFunc.bufferCopy.call p s [.i32 dst, .i32 src, .i32 len])
        ((0 ≤ signed32 len ∧ signed32 len ≤ maxHostBuffer) ∧
          s.Inside p (signed32 src) (signed32 len) ∧ s.Inside p (signed32 dst) (signed32 len))
        fun a => Wrote p s a.1 (signed32 dst).toNat
          (s.bytesFrom p (signed32 src).toNat (signed32 len).toNat) ∧ a.2 = []) ∧
    (∀ dst v len : UInt32,
      Exactly (HostFunc.bufferFill.call p s [.i32 dst, .i32 v, .i32 len])
        ((0 ≤ signed32 len ∧ signed32 len ≤ maxHostBuffer) ∧
          s.Inside p (signed32 dst) (signed32 len))
        fun a => Wrote p s a.1 (signed32 dst).toNat
          (List.replicate (signed32 len).toNat v.toUInt8) ∧ a.2 = []) ∧
    (∀ ptr len out : UInt32,
      Exactly (HostFunc.sha256.call p s [.i32 ptr, .i32 len, .i32 out])
        ((0 ≤ signed32 len ∧ signed32 len ≤ maxHostBuffer) ∧
          s.Inside p (signed32 ptr) (signed32 len) ∧ s.Inside p (signed32 out) 32)
        fun a => Wrote p s a.1 (signed32 out).toNat (Sha256.digest
          ⟨(s.bytesFrom p (signed32 ptr).toNat (signed32 len).toNat).toArray⟩) ∧ a.2 = []) ∧
    (∀ k n out cap : UInt32,
      let value? := (p.environment.get? (s.keyAt p (signed32 k) (signed32 n))).map
        (·.toUTF8.toList)
      Exactly (HostFunc.envGet.call p s [.i32 k, .i32 n, .i32 out, .i32 cap])
        (s.Inside p (signed32 k) (min (signed32 n) maxTextBytes) ∧ ∀ value, value? = some value →
          s.Inside p (signed32 out) (min (max (signed32 cap) 0) value.length))
        fun a => ∃ i, a.2 = [.i32 i] ∧
          Copied p s value? (signed32 out) (signed32 cap) a.1 (signed32 i)) ∧
    (∀ k n out cap : UInt32,
      let value? := s.storage.get? (s.keyAt p (signed32 k) (signed32 n))
      Exactly (HostFunc.storageGet.call p s [.i32 k, .i32 n, .i32 out, .i32 cap])
        (s.Inside p (signed32 k) (min (signed32 n) maxTextBytes) ∧ ∀ value, value? = some value →
          s.Inside p (signed32 out) (min (max (signed32 cap) 0) value.length))
        fun a => ∃ i, a.2 = [.i32 i] ∧
          Copied p s value? (signed32 out) (signed32 cap) a.1 (signed32 i)) ∧
    (∀ k n v m : UInt32,
      Exactly (HostFunc.storageSet.call p s [.i32 k, .i32 n, .i32 v, .i32 m])
        (s.Inside p (signed32 k) (min (signed32 n) maxTextBytes) ∧
          s.Inside p (signed32 v) (signed32 m))
        fun a => Keyed s a.1 (s.keyAt p (signed32 k) (signed32 n))
          (some (s.bytesFrom p (signed32 v).toNat (signed32 m).toNat)) ∧ a.2 = []) ∧
    (∀ k n : UInt32,
      let key := s.keyAt p (signed32 k) (signed32 n)
      Exactly (HostFunc.storageRemove.call p s [.i32 k, .i32 n])
        (s.Inside p (signed32 k) (min (signed32 n) maxTextBytes))
        fun a => ∃ i, a.2 = [.i32 i] ∧ Keyed s a.1 key none ∧
          signed32 i = if (s.storage.get? key).isSome then 1 else 0) ∧
    (∀ (value : List UInt8) (out : Int) (cap : UInt32) (t : Store) (answer : Int),
      Copied p s (some value) out (signed32 cap) t answer →
        (value.length < 1 <<< 31 → answer = value.length) ∧
        (value.length ≤ signed32 cap → Wrote p s t out.toNat value ∧ answer = value.length)) ∧
    ∀ (f : HostFunc) (args : List Value) (r : Routine (List Value)),
      f.work p args = some r → Agrees s (f.call p s args) r := by
  refine ⟨fun dst src len => exactly_gives (exactly_bufferCopy p s _ _ _),
    fun dst v len => exactly_gives (exactly_bufferFill p s _ v _),
    fun ptr len out => exactly_gives (exactly_sha256 p s _ _ _),
    fun k n out cap => exactly_gives32 (exactly_envGet p s _ _ _ _) fun _ => Copied.range,
    exactly_call_storageGet p s, exactly_call_storageSet p s, exactly_call_storageRemove p s,
    fun value out cap t answer hcopied => ?_, fun f args r h => work_spec p s h⟩
  -- the length is cut at the largest signed number, which is more than there is room for
  obtain ⟨hwrote, hanswer⟩ := hcopied
  have hcap : signed32 cap < (1 <<< 31 : Nat) := by
    unfold signed32
    have hlt := cap.toNat_lt
    split <;> omega
  refine ⟨fun hshort => by omega, fun hroom => ⟨?_, by omega⟩⟩
  rwa [List.take_of_length_le (by omega)] at hwrote

/-- Four letters at the beginning of a page. -/
def lettered : Store :=
  { (default : Store) with memories := #[(Wasm.Memory.zeros 1 none).splice 0 [97, 98, 99, 100]] }

/-- A guest whose host functions use that page. -/
def onPage : Place := { (default : Place) with hostMemory := some 0 }

/-- Three letters are copied one place on, over themselves; at the end of the page there is no room
for them. -/
theorem imports_exact_overlapping :
    (∃ t, HostFunc.bufferCopy.call onPage lettered [.i32 1, .i32 0, .i32 3] = .ok (t, []) ∧
      t.bytesFrom onPage 0 6 = [97, 97, 98, 99, 0, 0]) ∧
    ∃ why, HostFunc.bufferCopy.call onPage lettered [.i32 65534, .i32 0, .i32 3] = .error why := by
  obtain ⟨hcopy, -⟩ := imports_exact onPage lettered
  have hmemory : lettered.hostMemory? onPage =
      some ((Wasm.Memory.zeros 1 none).splice 0 [97, 98, 99, 100]) := rfl
  have hinside (ptr len : Int) : lettered.Inside onPage ptr len ↔
      0 ≤ ptr ∧ 0 ≤ len ∧ ptr + len ≤ 65536 := by
    rw [inside_iff hmemory, Wasm.Memory.byteSize_splice]
    rfl
  refine ⟨?_, (hcopy 65534 0 3).fails fun hfine => ?_⟩
  · obtain ⟨⟨t, results⟩, hok, hwrote, hresults⟩ := (hcopy 1 0 3).comes
      ⟨by decide, (hinside _ _).mpr (by decide), (hinside _ _).mpr (by decide)⟩
    subst hresults
    refine ⟨t, hok, ?_⟩
    unfold bytesFrom
    simp only [hwrote.bytes]
    decide +kernel
  · exact absurd ((hinside _ _).mp hfine.2.2) (by decide)

end ContainerHost.Guest
