import ContainerHost.Interpreter.Machine
import ContainerHost.Proofs.Characters
import ContainerHost.Proofs.Guest.Exactness
import ContainerHost.Proofs.Guest.HostCalls
/-!
# Storage

A guest may be given a storage, where it keeps values under keys. A key is a text; the guest gives it
as bytes of its memory, which are read as UTF-8. Here the operations that a guest has done on its
storage in all its life are taken from the host functions that it has called (`storageOps`), with
the bytes that stood in its memory then, and what they leave under a key is said of them alone
(`lookup`).

What is proved, for keys that are read as a whole: the storage is a map on texts, and so on bytes as
long as these are the bytes of texts (`storage_is_map`). Bytes that are no text can read as the same
one and share a value (`storage_shares`).
-/

namespace ContainerHost.Guest

open Wasm (Value)
open Text.Utf8 (decodeString IsText)

/-! ## Operations -/

/-- What a guest does with its storage. -/
inductive StorageOp where
  | get (key : List UInt8) (out cap : Int)
  | set (key value : List UInt8)
  | remove (key : List UInt8)
  deriving DecidableEq

namespace StorageOp

def key : StorageOp → List UInt8
  | get key _ _ => key
  | set key _ => key
  | remove key => key

/-- What is under the key afterwards, if the operation changes that. -/
def leaves? : StorageOp → Option (Option (List UInt8))
  | get _ _ _ => none
  | set _ value => some (some value)
  | remove _ => some none

/-- The value that some operations leave under a key: the latest one that set or removed it
decides. `same` says which keys count as this one. -/
def lookup (same : List UInt8 → Bool) (ops : List StorageOp) : Option (List UInt8) :=
  ((ops.filter fun op => same op.key).filterMap leaves?).getLast?.join

theorem lookup_concat (same : List UInt8 → Bool) (ops : List StorageOp) (op : StorageOp) :
    lookup same (ops ++ [op]) =
      if same op.key then op.leaves?.getD (lookup same ops) else lookup same ops := by
  unfold lookup
  rw [List.filter_append, List.filterMap_append, List.filter_cons, List.filter_nil]
  split
  · rw [List.filterMap_cons, List.filterMap_nil]
    cases op.leaves? with
    | none => rw [List.append_nil, Option.getD_none]
    | some value? => rw [List.getLast?_concat, Option.join_some, Option.getD_some]
  · rw [List.filterMap_nil, List.append_nil]

/-- Only the keys that occur matter. -/
theorem lookup_congr {same same' : List UInt8 → Bool} {ops : List StorageOp}
    (h : ∀ op ∈ ops, same op.key = same' op.key) : lookup same ops = lookup same' ops := by
  unfold lookup
  rw [List.filter_congr h]

end StorageOp

open StorageOp

/-- The operation on the storage that a host function did when it came back, with the bytes that
stood in memory for it. -/
def HostCall.storageOp? (c : HostCall) : Option StorageOp :=
  let bytes (ptr len : UInt32) := c.before.bytesFrom c.place (signed32 ptr).toNat (signed32 len).toNat
  match c.func, c.args with
  | .storageGet, [.i32 k, .i32 n, .i32 out, .i32 cap] =>
    some (.get (bytes k n) (signed32 out) (signed32 cap))
  | .storageSet, [.i32 k, .i32 n, .i32 v, .i32 m] => some (.set (bytes k n) (bytes v m))
  | .storageRemove, [.i32 k, .i32 n] => some (.remove (bytes k n))
  | _, _ => none

def storageOps (log : List HostCall) : List StorageOp := log.filterMap (·.storageOp?)

/-- The answer to an operation is what it has to be if `value?` stands under its key. -/
def StorageOp.Answered (op : StorageOp) (c : HostCall) (value? : Option (List UInt8)) : Prop :=
  match op with
  | .get _ out cap =>
    ∃ i, c.results = [.i32 i] ∧ Copied c.place c.before value? out cap c.after (signed32 i)
  | .set _ _ => c.results = []
  | .remove _ => ∃ i, c.results = [.i32 i] ∧ signed32 i = if value?.isSome then 1 else 0

/-! ## One call -/

section

variable {c : HostCall}

/-- A key that is not too long is read as a whole. -/
theorem Store.keyAt_eq (s : Store) (p : Place) {ptr len : Int} (h : len.toNat ≤ maxTextBytes) :
    s.keyAt p ptr len = decodeString (s.bytesFrom p ptr.toNat len.toNat) := by
  have hwhole : (min len maxTextBytes).toNat = len.toNat := by omega
  rw [keyAt, hwhole]

/-- An operation is answered by what the storage has under the text of its key, and what it leaves
there is the only change to the storage. -/
theorem HostCall.Took.stores {op : StorageOp} (h : c.Took) (hop : c.storageOp? = some op)
    (hshort : op.key.length ≤ maxTextBytes) :
    op.Answered c (c.before.storage.get? (decodeString op.key)) ∧
    ∀ text, c.after.storage.get? text =
      if decodeString op.key = text then op.leaves?.getD (c.before.storage.get? text)
      else c.before.storage.get? text := by
  obtain ⟨place, func, args, before, after, results⟩ := c
  unfold storageOp? at hop
  dsimp only at hop
  split at hop
  · rename_i k n out cap
    cases hop
    simp only [StorageOp.key, length_bytesFrom] at hshort
    have hget := (HostFunc.exactly_call_storageGet place before k n out cap).spec h
    rw [before.keyAt_eq place hshort] at hget
    have hsame : after.storage = before.storage :=
      HostFunc.storage_call place before (f := .storageGet) (by decide) (by decide) _ _ h
    refine ⟨hget, fun text => ?_⟩
    dsimp only
    rw [hsame]
    exact (ite_self _).symm
  · rename_i k n v m
    cases hop
    simp only [StorageOp.key, length_bytesFrom] at hshort
    obtain ⟨hset, hresults⟩ := (HostFunc.exactly_call_storageSet place before k n v m).spec h
    rw [before.keyAt_eq place hshort] at hset
    exact ⟨hresults, hset.2⟩
  · rename_i k n
    cases hop
    simp only [StorageOp.key, length_bytesFrom] at hshort
    obtain ⟨i, hresults, hremove, hanswer⟩ :=
      (HostFunc.exactly_call_storageRemove place before k n).spec h
    rw [before.keyAt_eq place hshort] at hremove hanswer
    exact ⟨⟨i, hresults, hanswer⟩, hremove.2⟩
  · cases hop

theorem HostFunc.taking_ok {α : Type} {kind : List Value → Option α} {args : List Value}
    {f : α → Answer} {r : Store × List Value} (h : taking kind args f = .ok r) :
    ∃ a, kind args = some a := by
  unfold taking at h
  split at h
  · rename_i a ha
    exact ⟨a, ha⟩
  · cases h

theorem HostCall.Took.spares (h : c.Took) (hop : c.storageOp? = none) :
    c.after.storage = c.before.storage := by
  obtain ⟨place, func, args, before, after, results⟩ := c
  by_cases hset : func = .storageSet
  · subst hset
    obtain ⟨a, ha⟩ : ∃ a, HostFunc.words4 args = some a := HostFunc.taking_ok h
    unfold HostFunc.words4 at ha
    split at ha
    · cases hop
    · cases ha
  · by_cases hremove : func = .storageRemove
    · subst hremove
      obtain ⟨a, ha⟩ : ∃ a, HostFunc.words2 args = some a := HostFunc.taking_ok h
      unfold HostFunc.words2 at ha
      split at ha
      · cases hop
      · cases ha
    · exact HostFunc.storage_call place before hset hremove _ _ h

end

/-! ## All calls -/

def reads (text : String) (key : List UInt8) : Bool := decodeString key == text

/-- The storage is what these operations leave of an empty one. -/
def Store.LeftBy (s : Store) (ops : List StorageOp) : Prop :=
  ∀ text, s.storage.get? text = lookup (reads text) ops

def Store.Idle (s t : Store) : Prop := t.storage = s.storage

section

variable {s t : Store} {log : List HostCall} {ops : List StorageOp}

theorem Store.LeftBy.idle (h : s.LeftBy ops) (hidle : s.Idle t) : t.LeftBy ops := by
  intro text
  rw [hidle]
  exact h text

theorem leftBy_call {c : HostCall} (h : c.before.LeftBy ops) (htook : c.Took)
    (hshort : ∀ op ∈ storageOps [c], op.key.length ≤ maxTextBytes) :
    c.after.LeftBy (ops ++ storageOps [c]) := by
  unfold storageOps at hshort ⊢
  rw [List.filterMap_cons, List.filterMap_nil] at hshort ⊢
  cases hop : c.storageOp? with
  | none =>
    rw [List.append_nil]
    exact h.idle (htook.spares hop)
  | some op =>
    rw [hop] at hshort
    intro text
    rw [(htook.stores hop (hshort op List.mem_cons_self)).2 text, lookup_concat, h text]
    simp only [reads, beq_iff_eq]

theorem leftBy_chain (hc : Chain Store.Idle s log t) (h : s.LeftBy ops)
    (hshort : ∀ op ∈ storageOps log, op.key.length ≤ maxTextBytes) :
    t.LeftBy (ops ++ storageOps log) := by
  induction hc generalizing ops with
  | own hidle =>
    rw [storageOps, List.filterMap_nil, List.append_nil]
    exact h.idle hidle
  | @call s t c rest hidle htook _ ih =>
    have hsplit : storageOps (c :: rest) = storageOps [c] ++ storageOps rest :=
      List.filterMap_append (l := [c])
    rw [hsplit] at hshort ⊢
    rw [← List.append_assoc]
    exact ih
      (leftBy_call (h.idle hidle) htook fun op hop => hshort op (List.mem_append_left _ hop))
      fun op hop => hshort op (List.mem_append_right _ hop)

end

/-- The storage of a guest comes of an empty one by what it has called. -/
theorem Sandbox.Lived.chain {b : Sandbox} {env : Surroundings} {c : Compiled} {id : String}
    {log : List HostCall} {g : Instance} (h : b.Lived env c id log g) :
    ∃ s : Store, s.storage = .empty ∧ Chain Store.Idle s log g.store := by
  have htrans {s t u : Store} (h : s.Idle t) (k : t.Idle u) : s.Idle u := k.trans h
  induction h with
  | made h =>
    obtain ⟨s, hempty, -, hchain⟩ := chain_start (made_of_instantiate h).started
    exact ⟨s, hempty, hchain.mono Own.storage⟩
  | @call log g hlived function args watch ih =>
    obtain ⟨s, hempty, hchain⟩ := ih
    obtain ⟨g₀, hmade, hlater⟩ := hlived.later
    have hlimit : g.wiring.memoryLimit = b.config.maxPages * Limits.pageSize := by
      rw [hlater.wiring, (made_of_instantiate hmade).memoryLimit]
    refine ⟨s, hempty, hchain.append htrans ?_⟩
    exact .before htrans (g.storage_approach function args (watch.signal 0))
      ((g.chain_call function args watch hlimit).mono Own.storage)

/-- The storage of a guest is a map. Whatever the guest has called since it was made, what it has
stored and removed in between, as long as no key is longer than what is read of it, the storage has
under each text the value that the latest operation with a key that reads so has left there. Each
operation is answered by the value that those before it have left under the text of its key, and
spares what stands under other texts. For keys that are the bytes of texts it is a map on bytes. -/
theorem storage_is_map {b : Sandbox} {env : Surroundings} {c : Compiled} {id : String}
    {log : List HostCall} {g : Instance} (h : b.Lived env c id log g)
    (hshort : ∀ op ∈ storageOps log, op.key.length ≤ maxTextBytes) :
    (∀ text, g.store.storage.get? text = lookup (reads text) (storageOps log)) ∧
    ∀ earlier call later op, log = earlier ++ call :: later → call.storageOp? = some op →
      let done := storageOps earlier
      op.Answered call (lookup (reads (decodeString op.key)) done) ∧
      (∀ text, text ≠ decodeString op.key →
        call.after.storage.get? text = call.before.storage.get? text) ∧
      (IsText op.key → (∀ op' ∈ done, IsText op'.key) →
        op.Answered call (lookup (· == op.key) done)) := by
  obtain ⟨s, hempty, hchain⟩ := h.chain
  have hstart : s.LeftBy [] := by
    intro text
    rw [hempty]
    rfl
  refine ⟨leftBy_chain hchain hstart hshort, fun earlier call later op hlog hop => ?_⟩
  intro done
  have hops : storageOps log = done ++ op :: storageOps later := by
    rw [hlog, storageOps, List.filterMap_append, List.filterMap_cons, hop]
    rfl
  rw [hlog] at hchain
  obtain ⟨hbefore, htook, -⟩ := hchain.split
  have hleft : call.before.LeftBy done := leftBy_chain hbefore hstart fun op' hop' =>
    hshort op' (hops ▸ List.mem_append_left _ hop')
  obtain ⟨hanswer, hafter⟩ :=
    htook.stores hop (hshort op (hops ▸ List.mem_append_right _ List.mem_cons_self))
  rw [hleft] at hanswer
  refine ⟨hanswer, fun text hne => ?_, fun htext hdone => ?_⟩
  · rw [hafter, if_neg (Ne.symm hne)]
  · have hkeys : lookup (reads (decodeString op.key)) done = lookup (· == op.key) done := by
      refine lookup_congr fun op' hop' => ?_
      rw [reads, Bool.eq_iff_iff, beq_iff_eq, beq_iff_eq]
      exact Text.Utf8.decodeString_inj (hdone op' hop') htext
    rw [hkeys] at hanswer
    exact hanswer

def Instance.serve (watch : Watch) :
    List (String × List Value) → Instance → List HostCall × Instance
  | [], g => ([], g)
  | (function, args) :: rest, g =>
    let served := serve watch rest (g.call function args watch).2
    (g.hostCalls function args watch ++ served.1, served.2)

theorem Sandbox.Lived.serve {b : Sandbox} {env : Surroundings} {c : Compiled} {id : String}
    {log : List HostCall} {g : Instance} (h : b.Lived env c id log g) (watch : Watch)
    (calls : List (String × List Value)) :
    b.Lived env c id (log ++ (g.serve watch calls).1) (g.serve watch calls).2 := by
  induction calls generalizing log g with
  | nil =>
    rw [Instance.serve, List.append_nil]
    exact h
  | cons call rest ih =>
    obtain ⟨function, args⟩ := call
    rw [Instance.serve, ← List.append_assoc]
    exact ih (h.call function args watch)

/-- Something that is computed by making a guest and calling it holds of a guest and its log. -/
theorem Sandbox.exists_lived (b : Sandbox) (env : Surroundings) (c : Compiled) (id : String)
    (watch : Watch) (calls : List (String × List Value)) {P : List HostCall → Instance → Prop}
    [∀ log g, Decidable (P log g)] (h : (b.instantiate env c id).toOption.any (fun g =>
      P (b.startCalls env c.module id ++ (g.serve watch calls).1) (g.serve watch calls).2) = true) :
    ∃ log g, b.Lived env c id log g ∧ P log g := by
  cases hg : b.instantiate env c id with
  | error e =>
    rw [hg] at h
    cases h
  | ok g =>
    rw [hg] at h
    exact ⟨_, _, (Lived.made hg).serve watch calls, of_decide_eq_true h⟩

/-- A module whose functions hand their arguments to those of the storage. In its memory are two
bytes that begin no character, and two letters. -/
def keeper : Wasm.Module :=
  let words (n : Nat) : List Wasm.ValType := List.replicate n .i32
  let imported (name : String) (type : Wasm.FuncType) : Wasm.Import := ⟨"browser", name, .func type⟩
  let handing (type : Wasm.FuncType) (i : Nat) : Wasm.Func :=
    let operands := (List.range type.params.length).map Wasm.Op.localGet
    ⟨type, [], (operands ++ [Wasm.Op.call i]).toArray, #[]⟩
  { Wasm.Module.empty with
    imports := [imported "storage_get" ⟨words 4, words 1⟩,
      imported "storage_set" ⟨words 4, []⟩, imported "storage_remove" ⟨words 2, words 1⟩]
    funcs := [handing ⟨words 4, words 1⟩ 0, handing ⟨words 4, []⟩ 1, handing ⟨words 2, words 1⟩ 2]
    memories := [⟨1, none⟩]
    exports := [⟨"memory", .memory 0⟩, ⟨"get", .func 3⟩, ⟨"set", .func 4⟩, ⟨"remove", .func 5⟩]
    data := [⟨0, [0xff, 0xfe, 0x61, 0x62]⟩] }

def storing : Sandbox :=
  let grants : Isolation := { Isolation.closed with fileSystemAccess := true }
  ⟨.browser, 1, { ContainerConfig.standard with isolation := some grants }, none,
    Interpreter.interpreter⟩

/-- The letters are stored under each other, one is removed and the other is asked for. -/
theorem storage_is_map_letters :
    ∃ log g, storing.Lived default ⟨1, keeper⟩ "unit-1" log g ∧
      storageOps log =
        [.set [0x61] [0x62], .set [0x62] [0x61], .remove [0x61], .get [0x62] 8 1] ∧
      g.store.storage.get? "a" = none ∧ g.store.storage.get? "b" = some [0x61] ∧
      ∃ call ∈ log, (StorageOp.get [0x62] 8 1).Answered call (some [0x61]) := by
  obtain ⟨log, g, hlived, hran⟩ := storing.exists_lived default ⟨1, keeper⟩ "unit-1"
    .quiet
    [("set", [.i32 2, .i32 1, .i32 3, .i32 1]), ("set", [.i32 3, .i32 1, .i32 2, .i32 1]),
      ("remove", [.i32 2, .i32 1]), ("get", [.i32 3, .i32 1, .i32 8, .i32 1])]
    (P := fun log g => log.map (·.storageOp?) = [some (.set [0x61] [0x62]),
      some (.set [0x62] [0x61]), some (.remove [0x61]), some (.get [0x62] 8 1)])
    (by decide +kernel)
  obtain ⟨first, log, rfl, hfirst, hran⟩ := List.map_eq_cons_iff.mp hran
  obtain ⟨second, log, rfl, hsecond, hran⟩ := List.map_eq_cons_iff.mp hran
  obtain ⟨third, log, rfl, hthird, hran⟩ := List.map_eq_cons_iff.mp hran
  obtain ⟨last, log, rfl, hlast, hran⟩ := List.map_eq_cons_iff.mp hran
  rw [List.map_eq_nil_iff] at hran
  subst hran
  have hdone : storageOps [first, second, third] =
      [.set [0x61] [0x62], .set [0x62] [0x61], .remove [0x61]] := by
    simp only [storageOps, List.filterMap_cons, List.filterMap_nil, hfirst, hsecond, hthird]
  have hops : storageOps [first, second, third, last] =
      [.set [0x61] [0x62], .set [0x62] [0x61], .remove [0x61], .get [0x62] 8 1] := by
    simp only [storageOps, List.filterMap_cons, List.filterMap_nil, hfirst, hsecond, hthird, hlast]
  obtain ⟨hstands, hanswered⟩ := storage_is_map hlived (by rw [hops]; decide)
  rw [hops] at hstands
  obtain ⟨hanswer, -⟩ := hanswered [first, second, third] last [] _ rfl hlast
  have hvalue : lookup (reads (decodeString (StorageOp.get [0x62] 8 1).key))
      [.set [0x61] [0x62], .set [0x62] [0x61], .remove [0x61]] = some [0x61] := by
    decide +kernel
  rw [hdone, hvalue] at hanswer
  exact ⟨_, g, hlived, hops, (hstands "a").trans (by decide +kernel),
    (hstands "b").trans (by decide +kernel), last, by simp, hanswer⟩

/-- Bytes that are no text share a value: what was stored under one is found under the other. -/
theorem storage_shares :
    ∃ log g stored found, storing.Lived default ⟨1, keeper⟩ "unit-1" log g ∧ log = [stored, found] ∧
      stored.storageOp? = some (.set [0xff] [0x61]) ∧
      found.storageOp? = some (.get [0xfe] 8 1) ∧
      found.results = [.i32 1] ∧ found.after.bytesFrom found.place 8 1 = [0x61] ∧
      ¬ (StorageOp.get [0xfe] 8 1).Answered found
        (lookup (· == [0xfe]) (storageOps [stored])) := by
  obtain ⟨log, g, hlived, hran⟩ := storing.exists_lived default ⟨1, keeper⟩ "unit-1"
    .quiet
    [("set", [.i32 0, .i32 1, .i32 2, .i32 1]), ("get", [.i32 1, .i32 1, .i32 8, .i32 1])]
    (P := fun log g =>
      log.map (fun c => (c.storageOp?, c.results,
        c.after.bytesFrom c.place 8 1)) =
        [(some (.set [0xff] [0x61]), [], [0]), (some (.get [0xfe] 8 1), [.i32 1], [0x61])])
    (by decide +kernel)
  obtain ⟨stored, log, rfl, hstored, hran⟩ := List.map_eq_cons_iff.mp hran
  obtain ⟨found, log, rfl, hfound, hran⟩ := List.map_eq_cons_iff.mp hran
  rw [List.map_eq_nil_iff] at hran
  subst hran
  simp only [Prod.mk.injEq] at hstored hfound
  obtain ⟨hstored, -, -⟩ := hstored
  obtain ⟨hfound, hresults, hbytes⟩ := hfound
  refine ⟨_, g, stored, found, hlived, rfl, hstored, hfound, hresults, hbytes, ?_⟩
  have hnone : lookup (· == [0xfe]) (storageOps [stored]) = none := by
    simp only [storageOps, List.filterMap_cons, List.filterMap_nil, hstored]
    decide
  rw [hnone]
  rintro ⟨i, hi, -, hanswer⟩
  rw [hresults] at hi
  cases hi
  exact absurd hanswer (by decide)

end ContainerHost.Guest
