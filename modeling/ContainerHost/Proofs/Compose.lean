import ContainerHost.Deploy.Compose
import ContainerHost.Proofs.Tables
import ContainerHost.Proofs.Yaml.Words
/-!
# What a compose document tells

A document has a service for each id among some requests, and the last request of an id is the one
that counts. A service can be read back from its part of the document, and it tells everything that
the request says about how the container is to be run.

What is proved:
  - `Memory.read?_write`: every number of bytes is read back from the memory that is written for it,
    in whichever unit that is;
  - `Service.ofTree?_toTree`: a service is read back from its part, also where an empty environment
    was left out;
  - `compose_tells`: whoever reads the scalars of a document back, and its blocks as blocks are
    read, finds one service for each id, in ascending order, and in it what the last request of that
    id says.

Correspondence: `Memory.write` ↔ `memory_limit`; `Service` ↔ `ComposeService`; `text` ↔
`generate_compose`; `Backend.command` ↔ `backend_command`.
-/

namespace ContainerHost.Compose

/-! ## Memory -/

theorem value?_of_isDigit {c : Char} (h : c.isDigit = true) :
    Text.Hex.value? c = some (c.toNat - 48) ∧ c.toNat - 48 < 10 := by
  simp only [Char.isDigit, Bool.and_eq_true, decide_eq_true_eq, ge_iff_le] at h
  have hle : c.toNat ≤ 57 := h.2
  have hdigit : '0' ≤ c ∧ c ≤ '9' := h
  refine ⟨?_, by omega⟩
  unfold Text.Hex.value?
  rw [if_pos (by simpa using hdigit)]

/-- Digits in front of others. -/
theorem foldl_digits {l : List Char} (h : ∀ c ∈ l, c.isDigit = true) (n : Nat) :
    l.foldl (fun acc c => do
      let n ← acc
      let d ← Text.Hex.value? c
      if d < 10 then some (n * 10 + d) else none) (some n) = some (Nat.ofDigitChars 10 l n) := by
  induction l generalizing n with
  | nil => rfl
  | cons c l ih =>
    obtain ⟨hc, hl⟩ := List.forall_mem_cons.mp h
    obtain ⟨hvalue, hlt⟩ := value?_of_isDigit hc
    rw [List.foldl_cons, Nat.ofDigitChars_cons, ← ih hl]
    simp [hvalue, hlt, Nat.mul_comm]

theorem digitsOfBase?_toDigits (n : Nat) :
    Yaml.digitsOfBase? 10 (Nat.toDigits 10 n) = some n := by
  have hdigits : ∀ c ∈ Nat.toDigits 10 n, c.isDigit = true := fun c hc =>
    Nat.isDigit_of_mem_toDigits (by decide) (by decide) hc
  unfold Yaml.digitsOfBase?
  rw [if_neg (by simp), foldl_digits hdigits, Nat.ofDigitChars_ten_toDigits]

namespace Memory

/-- A number with the letter of its unit. -/
theorem read?_unit (n : Nat) {unit : String} {u : Char} {size : Nat} (hunit : unit.toList = [u])
    (hsize : unit? u = some size) : read? (toString n ++ unit) = some (n * size) := by
  have hdigits : (toString n).toList = Nat.toDigits 10 n := Nat.toList_repr
  unfold read?
  rw [String.toList_append, hdigits, hunit, List.reverse_append]
  simp [hsize, digitsOfBase?_toDigits]

theorem read?_write (n : Nat) : read? (write n) = some n := by
  unfold write
  split
  · rename_i h
    rw [read?_unit _ rfl rfl, Nat.div_mul_cancel (Nat.dvd_of_mod_eq_zero h.2)]
  · split
    · rename_i h
      rw [read?_unit _ rfl rfl, Nat.div_mul_cancel (Nat.dvd_of_mod_eq_zero h.2)]
    · rw [read?_unit _ rfl rfl, Nat.mul_one]

/-- The largest numbers of sixty-four bits in each unit. -/
example : [2 ^ 64 - 1048576, 2 ^ 64 - 1024, 2 ^ 64 - 1].map write =
    ["17592186044415m", "18014398509481983k", "18446744073709551615b"] := by
  decide +kernel

end Memory

/-! ## Services -/

/-- What is written entry by entry is read back if each entry is. -/
theorem mapM_map_of_inverse {α β : Type} {f : α → β} {g : β → Option α} {l : List α}
    (h : ∀ a ∈ l, g (f a) = some a) : (l.map f).mapM g = some l := by
  induction l with
  | nil => rfl
  | cons a l ih =>
    obtain ⟨ha, hl⟩ := List.forall_mem_cons.mp h
    rw [List.map_cons, List.mapM_cons, ha, ih hl]
    rfl

namespace Service

theorem table?_tableTree {t : Table String} (h : t.Ordered) : table? (tableTree t) = some t := by
  have hentries : ((t.entries.map fun e => (e.1, Yaml.Tree.text e.2)).mapM
      fun (e : String × Yaml.Tree) => (text? e.2).map (e.1, ·)) = some t.entries :=
    mapM_map_of_inverse fun _ _ => rfl
  unfold table? tableTree
  dsimp only
  rw [hentries]
  exact congrArg some (Table.empty_merge h)

theorem child?_nil (key : String) : child? key (.mapping []) = none := rfl

theorem child?_cons (key : String) (e : String × Yaml.Tree) (rest : List (String × Yaml.Tree)) :
    child? key (.mapping (e :: rest)) =
      if key = e.1 then some e.2 else child? key (.mapping rest) := by
  obtain ⟨k, v⟩ := e
  unfold child?
  dsimp only
  rw [List.lookup_cons]
  by_cases hk : key = k
  · simp [hk]
  · rw [if_neg hk, beq_eq_false_iff_ne.mpr hk]

/-- A service is read back; where its environment was left out, it has none. -/
theorem ofTree?_toTree {s : Service} (henvironment : s.environment.Ordered)
    (hlabels : s.labels.Ordered) : ofTree? s.toTree = some s := by
  have hcommand : texts? (.sequence (s.command.map .text)) = some s.command :=
    mapM_map_of_inverse fun _ _ => rfl
  have htold := table?_tableTree hlabels
  unfold toTree ofTree?
  by_cases hempty : s.environment.isEmpty = true
  · have hnone : Table.empty = s.environment :=
      congrArg Table.mk (List.isEmpty_iff.mp hempty).symm
    simp [hempty, child?_cons, child?_nil, text?, hcommand, htold, hnone]
  · have hread := table?_tableTree henvironment
    simp [hempty, child?_cons, text?, hcommand, htold, hread]

end Service

/-! ## Requests -/

def services? (document : List (String × Yaml.Tree)) : Option (List (String × Service)) :=
  match document.lookup "services" with
  | some (.mapping entries) => entries.mapM fun e => (Service.ofTree? e.2).map (e.1, ·)
  | _ => none

structure Service.Tells (s : Service) (r : DeploymentRequest) : Prop where
  id : s.labels.get? "wasmhive.id" = some r.containerId
  name : s.labels.get? "wasmhive.name" = some r.name
  backend : s.labels.get? "wasmhive.backend" = some r.backend.name ∧
    Backend.ofName? r.backend.name = some r.backend
  digest : s.labels.get? "wasmhive.module.digest" = some r.moduleDigest
  image : s.image = r.image
  command : s.command = r.backend.command
  environment : s.environment = r.environment
  memory : Memory.read? s.memory = some r.memoryLimit

theorem Service.tells_ofRequest (r : DeploymentRequest) : (ofRequest r).Tells r := by
  have hlabel (k : String) : (ofRequest r).labels.get? k =
      ([("wasmhive.id", r.containerId), ("wasmhive.name", r.name),
        ("wasmhive.backend", r.backend.name),
        ("wasmhive.module.digest", r.moduleDigest)].reverse.find? (·.1 == k)).map (·.2) :=
    Table.get?_ofList _ k
  refine ⟨?_, ?_, ⟨?_, Backend.ofName?_name r.backend⟩, ?_, rfl, rfl, rfl, Memory.read?_write _⟩
  all_goals
    rw [hlabel]
    rfl

def IsLast (rs : List DeploymentRequest) (r : DeploymentRequest) : Prop :=
  ∃ before after, rs = before ++ r :: after ∧
    ∀ later ∈ after, later.containerId ≠ r.containerId

section

variable {rs : List DeploymentRequest}

theorem ordered_services : (services rs).Ordered := Table.ordered_insertAll Table.ordered_empty _

theorem mem_keys_services {id : String} :
    id ∈ (services rs).keys ↔ ∃ r ∈ rs, r.containerId = id := by
  unfold services Table.ofList
  rw [Table.mem_keys_insertAll]
  simp [Table.keys, Table.empty]

theorem last_of_services {id : String} {s : Service} (h : (services rs).get? id = some s) :
    ∃ r, IsLast rs r ∧ r.containerId = id ∧ s = .ofRequest r := by
  unfold services at h
  rw [Table.get?_ofList, ← List.map_reverse, List.find?_map, Option.map_map,
    Option.map_eq_some_iff] at h
  obtain ⟨r, hr, rfl⟩ := h
  obtain ⟨hid, before, after, hsplit, hbefore⟩ := List.find?_eq_some_iff_append.mp hr
  have hid : r.containerId = id := by simpa using hid
  refine ⟨r, ⟨after.reverse, before.reverse, ?_, fun later hlater => ?_⟩, hid, rfl⟩
  · rw [← List.reverse_reverse rs, hsplit]
    simp
  · have hother := hbefore later (List.mem_reverse.mp hlater)
    rw [hid]
    simpa using hother

theorem ordered_environment (h : ∀ r ∈ rs, r.environment.Ordered) {id : String} {s : Service}
    (hs : (id, s) ∈ (services rs).entries) : s.environment.Ordered := by
  obtain ⟨r, ⟨before, after, hrs, -⟩, -, rfl⟩ :=
    last_of_services ((Table.mem_entries_iff ordered_services).mp hs)
  exact h r (by simp [hrs])

theorem services?_document (h : ∀ r ∈ rs, r.environment.Ordered) :
    services? (document rs) = some (services rs).entries := by
  have hread : ∀ e ∈ (services rs).entries,
      (Service.ofTree? e.2.toTree).map (e.1, ·) = some e := by
    rintro ⟨id, s⟩ hs
    obtain ⟨r, -, -, hr⟩ := last_of_services ((Table.mem_entries_iff ordered_services).mp hs)
    have hlabels : s.labels.Ordered := by
      rw [hr]
      exact Table.ordered_insertAll Table.ordered_empty _
    rw [Service.ofTree?_toTree (ordered_environment h hs) hlabels]
    rfl
  have hlookup : (document rs).lookup "services" =
      some (.mapping ((services rs).entries.map fun e => (e.1, e.2.toTree))) := by
    simp [document, List.lookup_cons]
  unfold services?
  rw [hlookup]
  exact mapM_map_of_inverse hread

end

/-- Whoever reads the scalars of a document back reads its text as services under strictly ascending
ids, one for each id of a request, and each tells what the last request of its id says: its id, name,
image, backend and digest, the command of the backend, the whole environment, and the memory to the
byte. -/
theorem compose_tells {scan : Yaml.ScalarReader} {rs : List DeploymentRequest}
    (hscalars : ∀ s ∈ Yaml.Tree.entryTexts (document rs), scan.Reads s)
    (henvironment : ∀ r ∈ rs, r.environment.Ordered) :
    ∃ found, (Yaml.Block.read scan (text rs)).bind services? = some found ∧
      (found.map Prod.fst).Pairwise (· < ·) ∧
      (∀ id, id ∈ found.map Prod.fst ↔ ∃ r ∈ rs, r.containerId = id) ∧
      ∀ id s, (id, s) ∈ found → ∃ r, IsLast rs r ∧ r.containerId = id ∧ s.Tells r := by
  refine ⟨(services rs).entries, ?_, ordered_services, fun id => mem_keys_services, ?_⟩
  · rw [text, Yaml.Block.read_print hscalars, Option.bind_some, services?_document henvironment]
  · intro id s hs
    obtain ⟨r, hlast, hid, rfl⟩ :=
      last_of_services ((Table.mem_entries_iff ordered_services).mp hs)
    exact ⟨r, hlast, hid, Service.tells_ofRequest r⟩

def repeated : List DeploymentRequest := [
  ⟨"b-1", "b", "1.0", "wasmhive/b:1.0", .wasm3, .empty, 65536, "00"⟩,
  ⟨"b-1", "b", "latest", "wasmhive/b:latest", .host, .ofList [("MODE", "on: 1")], 1048577, "ff"⟩]

/-- All scalars are in one line. The document has one service, as the second request has it. -/
theorem compose_tells_repeated :
    (∀ s ∈ Yaml.Tree.entryTexts (document repeated), Yaml.Word.scan.Reads s) ∧
      (∀ r ∈ repeated, r.environment.Ordered) ∧
      ∃ found, (Yaml.Block.read Yaml.Word.scan (text repeated)).bind services? = some found ∧
        "b-1" ∈ found.map Prod.fst ∧
        ∀ s, ("b-1", s) ∈ found →
          s.environment.get? "MODE" = some "on: 1" ∧ Memory.read? s.memory = some 1048577 := by
  have hwords : (Yaml.Tree.entryTexts (document repeated)).all Yaml.Word.isWord = true := by
    decide +kernel
  have hscalars : ∀ s ∈ Yaml.Tree.entryTexts (document repeated), Yaml.Word.scan.Reads s :=
    fun s hs => Yaml.Word.reads_of_isWord (List.all_eq_true.mp hwords s hs)
  have henvironment : ∀ r ∈ repeated, r.environment.Ordered := by decide +kernel
  refine ⟨hscalars, henvironment, ?_⟩
  obtain ⟨found, hfound, -, hids, htells⟩ := compose_tells hscalars henvironment
  refine ⟨found, hfound, (hids "b-1").mpr ⟨_, List.mem_cons_self, rfl⟩, fun s hs => ?_⟩
  obtain ⟨r, ⟨before, after, hsplit, hlater⟩, hid, hs⟩ := htells "b-1" s hs
  -- the first of the two is not the last
  rcases before with _ | ⟨first, _ | ⟨second, before⟩⟩
  · cases hsplit
    exact (hlater _ List.mem_cons_self rfl).elim
  · cases hsplit
    rw [hs.environment]
    exact ⟨by decide +kernel, hs.memory⟩
  · cases before <;> cases hsplit

end ContainerHost.Compose
