import ContainerHost.Config.Overrides
import Mathlib.Data.List.Nodup
/-!
# Variables in any order

The variables of a process have no order, but they are applied one after the other, up to the first
that cannot be read. What comes out is told without the order (`Overridden`): a setting has the value
of the last variable with its name, or the one that it had. Since it holds of one configuration at
most (`Overridden.unique`), variables with different names may be applied in any order, and of those
with one name only the last counts: `overrides_unordered`.
-/

namespace ContainerHost

/-! ## Single settings -/

namespace Setting

def Value : Setting → Type
  | maxContainers | cacheSize => Nat
  | defaultBackend => Backend
  | registryUrl => String
  | networkTimeout | metricsInterval => Duration
  | enableMetrics => Bool
  | dockerEndpoint => Option String

def parse : (s : Setting) → (key value : String) → Except Error s.Value
  | maxContainers, key, value | cacheSize, key, value =>
    (ManagerConfig.parseValue parseNat? key value : Except Error Nat)
  | defaultBackend, _, value => Backend.parse value
  | registryUrl, _, value => .ok value
  | networkTimeout, key, value | metricsInterval, key, value =>
    (ManagerConfig.parseValue parseNat? key value : Except Error Nat).map Duration.millis
  | enableMetrics, key, value =>
    (ManagerConfig.parseValue parseBool? key value : Except Error Bool)
  | dockerEndpoint, _, value => .ok (some value)

theorem mem_all (s : Setting) : s ∈ all := by
  cases s <;> decide

theorem key_injective {s s' : Setting} (h : s.key = s'.key) : s = s' := by
  revert h
  cases s <;> cases s' <;> decide

/-- A variable changes the setting that it is named for. -/
theorem ofVariable?_eq_some_iff {key : String} {s : Setting} :
    ofVariable? key = some s ↔ key = s.key := by
  unfold ofVariable?
  constructor
  · intro h
    have hkey := List.find?_some h
    exact (beq_iff_eq.mp hkey).symm
  · rintro rfl
    cases hfound : all.find? (·.key == s.key) with
    | none =>
      have hnone := List.find?_eq_none.mp hfound s s.mem_all
      exact absurd (beq_self_eq_true _) hnone
    | some s' =>
      have hkey := List.find?_some hfound
      rw [key_injective (beq_iff_eq.mp hkey)]

theorem ofVariable?_eq_none_iff {key : String} :
    ofVariable? key = none ↔ ∀ s : Setting, key ≠ s.key := by
  rw [Option.eq_none_iff_forall_ne_some]
  exact forall_congr' fun s => not_congr ofVariable?_eq_some_iff

end Setting

namespace ManagerConfig

def get (c : ManagerConfig) : (s : Setting) → s.Value
  | .maxContainers => c.maxContainers
  | .defaultBackend => c.defaultBackend
  | .registryUrl => c.registryUrl
  | .networkTimeout => c.networkTimeout
  | .cacheSize => c.cacheSize
  | .metricsInterval => c.metricsInterval
  | .enableMetrics => c.enableMetrics
  | .dockerEndpoint => c.dockerEndpoint

def set (c : ManagerConfig) : (s : Setting) → s.Value → ManagerConfig
  | .maxContainers, v => { c with maxContainers := v }
  | .defaultBackend, v => { c with defaultBackend := v }
  | .registryUrl, v => { c with registryUrl := v }
  | .networkTimeout, v => { c with networkTimeout := v }
  | .cacheSize, v => { c with cacheSize := v }
  | .metricsInterval, v => { c with metricsInterval := v }
  | .enableMetrics, v => { c with enableMetrics := v }
  | .dockerEndpoint, v => { c with dockerEndpoint := v }

@[simp] theorem get_set (c : ManagerConfig) (s : Setting) (v : s.Value) :
    (c.set s v).get s = v := by
  cases s <;> rfl

theorem get_set_of_ne (c : ManagerConfig) {s s' : Setting} (h : s' ≠ s) (v : s.Value) :
    (c.set s v).get s' = c.get s' := by
  cases s <;> cases s' <;> first | rfl | exact absurd rfl h

/-- The settings are all that there is. -/
theorem ext_get {c c' : ManagerConfig} (h : ∀ s, c.get s = c'.get s) : c = c' := by
  obtain ⟨max, backend, url, timeout, size, interval, metrics, docker⟩ := c
  obtain ⟨max', backend', url', timeout', size', interval', metrics', docker'⟩ := c'
  congr
  · exact h .maxContainers
  · exact h .defaultBackend
  · exact h .registryUrl
  · exact h .networkTimeout
  · exact h .cacheSize
  · exact h .metricsInterval
  · exact h .enableMetrics
  · exact h .dockerEndpoint

theorem override_eq (c : ManagerConfig) (s : Setting) (key value : String) :
    c.override s key value = (s.parse key value).map (c.set s) := by
  cases s
  case registryUrl | dockerEndpoint => rfl
  case defaultBackend =>
    simp only [override, Setting.parse]
    generalize Backend.parse value = r
    cases r <;> rfl
  case maxContainers | cacheSize | networkTimeout | metricsInterval =>
    simp only [override, Setting.parse]
    generalize (parseValue parseNat? key value : Except Error Nat) = r
    cases r <;> rfl
  case enableMetrics =>
    simp only [override, Setting.parse]
    generalize (parseValue parseBool? key value : Except Error Bool) = r
    cases r <;> rfl

/-! ## Variables -/

def lastValue? (key : String) : List (String × String) → Option String
  | [] => none
  | e :: vars => (lastValue? key vars).or (if e.1 = key then some e.2 else none)

/-- A variable whose value can be read, if it changes a setting at all. -/
def Readable (e : String × String) : Prop :=
  ∀ s : Setting, e.1 = s.key → ∃ v, s.parse e.1 e.2 = .ok v

/-- Each setting has the value of the last variable with its name, or the one that it had. -/
def Overridden (c : ManagerConfig) (vars : List (String × String)) (c' : ManagerConfig) : Prop :=
  ∀ s : Setting, match lastValue? s.key vars with
    | none => c'.get s = c.get s
    | some value => s.parse s.key value = .ok (c'.get s)

variable {c c' c'' : ManagerConfig} {vars vars' : List (String × String)}

/-- What comes out is determined by the last values. -/
theorem Overridden.unique (h : c.Overridden vars c') (h' : c.Overridden vars' c'')
    (hlast : ∀ s : Setting, lastValue? s.key vars = lastValue? s.key vars') : c' = c'' := by
  refine ext_get fun s => ?_
  have hs := h s
  have hs' := h' s
  rw [← hlast s] at hs'
  cases hvalue : lastValue? s.key vars with
  | none =>
    rw [hvalue] at hs hs'
    exact hs.trans hs'.symm
  | some value =>
    rw [hvalue] at hs hs'
    exact Except.ok.inj (hs.symm.trans hs')

theorem applyVariables_cons_of_ne {e : String × String} (h : ∀ s : Setting, e.1 ≠ s.key) :
    c.applyVariables (e :: vars) = c.applyVariables vars := by
  obtain ⟨key, value⟩ := e
  simp only [applyVariables, Setting.ofVariable?_eq_none_iff.mpr h]

theorem applyVariables_cons_of_eq (s : Setting) (value : String) :
    c.applyVariables ((s.key, value) :: vars) = match s.parse s.key value with
      | .ok v => (c.set s v).applyVariables vars
      | .error e => (.error e, c) := by
  simp only [applyVariables, Setting.ofVariable?_eq_some_iff.mpr rfl, override_eq]
  cases s.parse s.key value <;> rfl

/-- A variable that changes no setting may stand before the others. -/
theorem Overridden.cons_of_ne {e : String × String} (h : c.Overridden vars c')
    (hne : ∀ s : Setting, e.1 ≠ s.key) : c.Overridden (e :: vars) c' := by
  intro s
  have hs := h s
  rw [lastValue?, if_neg (hne s), Option.or_none]
  exact hs

/-- What is overridden behind a variable is overridden with it. -/
theorem Overridden.cons_of_eq {s : Setting} {value : String} {v : s.Value}
    (hv : s.parse s.key value = .ok v) (h : (c.set s v).Overridden vars c') :
    c.Overridden ((s.key, value) :: vars) c' := by
  intro s'
  have hs' := h s'
  rw [lastValue?]
  cases hlast : lastValue? s'.key vars with
  | some later =>
    rw [hlast] at hs'
    exact hs'
  | none =>
    rw [hlast] at hs'
    by_cases heq : s' = s
    · subst heq
      rw [if_pos rfl]
      show s'.parse s'.key value = .ok (c'.get s')
      rw [hs', get_set, hv]
    · rw [if_neg fun hkey => heq (Setting.key_injective hkey).symm]
      exact hs'.trans (get_set_of_ne c heq v)

/-- Variables that can all be read are all applied. -/
theorem applyVariables_of_readable (h : ∀ e ∈ vars, Readable e) :
    ∃ c', c.applyVariables vars = (.ok (), c') ∧ c.Overridden vars c' := by
  induction vars generalizing c with
  | nil => exact ⟨c, rfl, fun _ => rfl⟩
  | cons e vars ih =>
    have hfirst := h e List.mem_cons_self
    have hrest : ∀ e ∈ vars, Readable e := fun e' he' => h e' (List.mem_cons_of_mem _ he')
    by_cases hkey : ∃ s : Setting, e.1 = s.key
    · obtain ⟨s, hs⟩ := hkey
      obtain ⟨v, hv⟩ := hfirst s hs
      obtain ⟨key, value⟩ := e
      dsimp only at hs hv
      subst hs
      obtain ⟨c', hc', hover⟩ := ih (c := c.set s v) hrest
      refine ⟨c', ?_, hover.cons_of_eq hv⟩
      rw [applyVariables_cons_of_eq, hv]
      exact hc'
    · have hne : ∀ s : Setting, e.1 ≠ s.key := fun s hs => hkey ⟨s, hs⟩
      obtain ⟨c', hc', hover⟩ := ih (c := c) hrest
      exact ⟨c', (applyVariables_cons_of_ne hne).trans hc', hover.cons_of_ne hne⟩

/-- Nothing is applied behind a variable that cannot be read. -/
theorem readable_of_applied (h : (c.applyVariables vars).1 = .ok ()) :
    ∀ e ∈ vars, Readable e := by
  induction vars generalizing c with
  | nil => exact fun e he => absurd he List.not_mem_nil
  | cons e vars ih =>
    rw [List.forall_mem_cons]
    by_cases hkey : ∃ s : Setting, e.1 = s.key
    · obtain ⟨s, hs⟩ := hkey
      obtain ⟨key, value⟩ := e
      dsimp only at hs
      subst hs
      rw [applyVariables_cons_of_eq] at h
      cases hv : s.parse s.key value with
      | error reason =>
        rw [hv] at h
        cases h
      | ok v =>
        rw [hv] at h
        refine ⟨fun s' hs' => ?_, ih h⟩
        obtain rfl := Setting.key_injective hs'
        exact ⟨v, hv⟩
    · have hne : ∀ s : Setting, e.1 ≠ s.key := fun s hs => hkey ⟨s, hs⟩
      rw [applyVariables_cons_of_ne hne] at h
      exact ⟨fun s hs => absurd hs (hne s), ih h⟩

/-- Variables are applied and found valid exactly when all can be read and what comes out can
work. -/
theorem applyOverrides_eq_ok_iff :
    c.applyOverrides vars = (.ok (), c') ↔
      (∀ e ∈ vars, Readable e) ∧ c.Overridden vars c' ∧ c'.validate = .ok () := by
  unfold applyOverrides
  constructor
  · intro h
    have hok : (c.applyVariables vars).1 = .ok () := by
      cases hr : (c.applyVariables vars).1 with
      | ok u => rfl
      | error e =>
        generalize c.applyVariables vars = applied at h hr
        obtain ⟨r, c₁⟩ := applied
        dsimp only at hr
        rw [hr] at h
        cases h
    have hread := readable_of_applied hok
    obtain ⟨c₁, hc₁, hover⟩ := applyVariables_of_readable (c := c) hread
    rw [hc₁] at h
    obtain ⟨hvalid, rfl⟩ := Prod.mk.inj h
    exact ⟨hread, hover, hvalid⟩
  · rintro ⟨hread, hover, hvalid⟩
    obtain ⟨c₁, hc₁, hover₁⟩ := applyVariables_of_readable (c := c) hread
    rw [hc₁, hover₁.unique hover fun _ => rfl]
    exact Prod.ext hvalid rfl

/-! ## Order and repetition -/

theorem lastValue?_eq_none_iff {key : String} :
    lastValue? key vars = none ↔ key ∉ vars.map (·.1) := by
  induction vars with
  | nil => simp [lastValue?]
  | cons e vars ih =>
    rw [lastValue?, Option.or_eq_none_iff, ih, List.map_cons, List.mem_cons, not_or, and_comm]
    refine and_congr_left' ?_
    split
    · rename_i heq
      exact iff_of_false (by simp) fun hne => hne heq.symm
    · rename_i hne
      exact iff_of_true rfl fun heq => hne heq.symm

theorem mem_of_lastValue? {key value : String} (h : lastValue? key vars = some value) :
    (key, value) ∈ vars := by
  induction vars with
  | nil => cases h
  | cons e vars ih =>
    rw [lastValue?, Option.or_eq_some_iff] at h
    rcases h with hlater | ⟨-, hfirst⟩
    · exact List.mem_cons_of_mem _ (ih hlater)
    · split at hfirst
      · rename_i heq
        subst heq
        obtain rfl := Option.some.inj hfirst
        exact List.mem_cons_self
      · cases hfirst

/-- When names are different, the last value of a name is its only one. -/
theorem lastValue?_eq_some_iff (h : (vars.map (·.1)).Nodup) {key value : String} :
    lastValue? key vars = some value ↔ (key, value) ∈ vars := by
  refine ⟨mem_of_lastValue?, fun hmem => ?_⟩
  cases hlast : lastValue? key vars with
  | none => exact absurd (List.mem_map_of_mem hmem) (lastValue?_eq_none_iff.mp hlast)
  | some value' =>
    have hsame : (key, value') = (key, value) :=
      List.inj_on_of_nodup_map h (mem_of_lastValue? hlast) hmem rfl
    rw [(Prod.mk.inj hsame).2]

/-- The order of variables with different names does not matter for the last values. -/
theorem lastValue?_perm (h : (vars.map (·.1)).Nodup) (hperm : vars.Perm vars') (key : String) :
    lastValue? key vars = lastValue? key vars' := by
  have h' : (vars'.map (·.1)).Nodup := (hperm.map _).nodup_iff.mp h
  refine Option.ext fun value => ?_
  rw [lastValue?_eq_some_iff h, lastValue?_eq_some_iff h', hperm.mem_iff]

/-- Some variables with only the last of those with one name. -/
def lastOf (key : String) : List (String × String) → List (String × String)
  | [] => []
  | e :: vars =>
    if e.1 = key ∧ key ∈ vars.map (·.1) then lastOf key vars else e :: lastOf key vars

theorem lastOf_sublist (key : String) (vars : List (String × String)) :
    (lastOf key vars).Sublist vars := by
  induction vars with
  | nil => exact List.Sublist.slnil
  | cons e vars ih =>
    rw [lastOf]
    split
    · exact ih.cons e
    · exact ih.cons_cons e

/-- Leaving out what is overridden later does not matter for the last values. -/
theorem lastValue?_lastOf (key key' : String) (vars : List (String × String)) :
    lastValue? key' (lastOf key vars) = lastValue? key' vars := by
  induction vars with
  | nil => rfl
  | cons e vars ih =>
    rw [lastOf]
    split
    · rename_i hover
      obtain ⟨hkey, hlater⟩ := hover
      rw [ih, lastValue?]
      cases hlast : lastValue? key' vars with
      | some value => rfl
      | none =>
        -- the name occurs later, so that it is not the one that is asked for
        have hne : e.1 ≠ key' := by
          rintro rfl
          exact lastValue?_eq_none_iff.mp hlast (hkey ▸ hlater)
        rw [if_neg hne]
        rfl
    · rw [lastValue?, lastValue?, ih]

/-- Variables that give all settings the same last value, and that can be read, do the same. -/
theorem applyOverrides_congr (h : ∀ e ∈ vars, Readable e) (h' : ∀ e ∈ vars', Readable e)
    (hlast : ∀ s : Setting, lastValue? s.key vars = lastValue? s.key vars') :
    c.applyOverrides vars = c.applyOverrides vars' := by
  obtain ⟨c₁, hc₁, hover₁⟩ := applyVariables_of_readable (c := c) h
  obtain ⟨c₂, hc₂, hover₂⟩ := applyVariables_of_readable (c := c) h'
  unfold applyOverrides
  rw [hc₁, hc₂, hover₁.unique hover₂ hlast]

theorem applied_of_perm (hnames : (vars.map (·.1)).Nodup) (hperm : vars.Perm vars')
    (h : (c.applyOverrides vars).1 = .ok ()) :
    c.applyOverrides vars' = c.applyOverrides vars := by
  have hok : c.applyOverrides vars = (.ok (), (c.applyOverrides vars).2) := Prod.ext h rfl
  have hread := (applyOverrides_eq_ok_iff.mp hok).1
  exact (applyOverrides_congr hread (fun e he => hread e (hperm.mem_iff.mpr he))
    fun s => lastValue?_perm hnames hperm s.key).symm

/-- Variables with different names are all applied, or not, in any order; if they are, the same
valid configuration comes out, in which a setting has the value of its variable, or the one that it
had if it has none. Of variables that can all be read only the last with a name counts. -/
theorem overrides_unordered (c : ManagerConfig) :
    (∀ vars vars' : List (String × String), (vars.map (·.1)).Nodup → vars.Perm vars' →
      ((c.applyOverrides vars).1 = .ok () ↔ (c.applyOverrides vars').1 = .ok ()) ∧
      ((c.applyOverrides vars).1 = .ok () →
        (c.applyOverrides vars').2 = (c.applyOverrides vars).2 ∧
        (c.applyOverrides vars).2.validate = .ok () ∧
        ∀ s : Setting,
          (s.key ∉ vars.map (·.1) → (c.applyOverrides vars).2.get s = c.get s) ∧
          ∀ value, (s.key, value) ∈ vars →
            s.parse s.key value = .ok ((c.applyOverrides vars).2.get s))) ∧
    ∀ (vars : List (String × String)) (key : String), (∀ e ∈ vars, Readable e) →
      c.applyOverrides (lastOf key vars) = c.applyOverrides vars := by
  constructor
  · intro vars vars' hnames hperm
    have hnames' : (vars'.map (·.1)).Nodup := (hperm.map _).nodup_iff.mp hnames
    refine ⟨⟨fun h => ?_, fun h => ?_⟩, fun h => ?_⟩
    · rw [applied_of_perm hnames hperm h]
      exact h
    · rw [applied_of_perm hnames' hperm.symm h]
      exact h
    · have hok : c.applyOverrides vars = (.ok (), (c.applyOverrides vars).2) := Prod.ext h rfl
      obtain ⟨-, hover, hvalid⟩ := applyOverrides_eq_ok_iff.mp hok
      refine ⟨by rw [applied_of_perm hnames hperm h], hvalid, fun s => ⟨fun habsent => ?_,
        fun value hmem => ?_⟩⟩
      · have hs := hover s
        rw [lastValue?_eq_none_iff.mpr habsent] at hs
        exact hs
      · have hs := hover s
        rw [(lastValue?_eq_some_iff hnames).mpr hmem] at hs
        exact hs
  · intro vars key hread
    exact applyOverrides_congr (fun e he => hread e ((lastOf_sublist key vars).subset he)) hread
      fun s => lastValue?_lastOf key s.key vars

/-- Two settings and a variable of another program in two orders, one more that cannot be read, and
one setting that is given twice. -/
theorem overrides_unordered_of_three :
    let c := standard
    let size := (Setting.cacheSize.key, " 4096")
    let max := (Setting.maxContainers.key, "3")
    let path := ("PATH", "3")
    let metrics := (Setting.enableMetrics.key, "yes")
    let again := (Setting.maxContainers.key, "5")
    ((c.applyOverrides [max, path, size]).2 = (c.applyOverrides [size, max, path]).2 ∧
      (c.applyOverrides [size, max, path]).2 = { c with cacheSize := 4096, maxContainers := 3 } ∧
      (c.applyOverrides [size, max, path]).2.get .enableMetrics = c.get .enableMetrics) ∧
    ((c.applyOverrides [metrics, size]).1 = .ok () ↔
      (c.applyOverrides [size, metrics]).1 = .ok ()) ∧
    (c.applyOverrides [size, again]).2.maxContainers = 5 ∧
    c.applyOverrides [size, again] = c.applyOverrides [max, size, again] := by
  intro c size max path metrics again
  obtain ⟨hperm, hlast⟩ := overrides_unordered c
  obtain ⟨hsame, -, hvalues⟩ := (hperm [size, max, path] [max, path, size] (by decide +kernel)
    (by decide +kernel)).2 (by decide +kernel)
  have hread : ∀ e ∈ [max, size, again], Readable e :=
    readable_of_applied (c := c) (by decide +kernel)
  exact ⟨⟨hsame, by decide +kernel, (hvalues .enableMetrics).1 (by decide +kernel)⟩,
    (hperm [metrics, size] [size, metrics] (by decide +kernel) (by decide +kernel)).1,
    by decide +kernel, hlast [max, size, again] Setting.maxContainers.key hread⟩

end ManagerConfig
end ContainerHost
