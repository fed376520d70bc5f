import ContainerHost.Guest.Instance
import ContainerHost.Proofs.Stamps
/-!
# What a guest may import

A policy is a list of spellings, and a sandbox with a policy makes no guest of a module that imports
anything else.

What is proved:
  1. `instantiate_of_offends`: a module with an import that is not on the list is refused for the
     first such import. The answer is told by the imports alone, whatever the code is, since none
     of it is looked at.
  2. `made_of_instantiate`: all that is known of a guest that was made, among it that each of its
     imports is on the list.
  3. `eq_of_dotted`: a spelling joins two names with a dot. No name space that a sandbox offers has a
     dot in it, so that among the imports that can be linked a spelling stands for one import.
-/

namespace ContainerHost.Guest

open Wasm (Import Module)

def violation (id : String) (i : Import) : Error :=
  .securityViolation id s!"import '{i.dotted}' is not in the allowed list"

def Offends (allowed : List String) (m : Module) (i : Import) : Prop :=
  ∃ before after, m.imports = before ++ i :: after ∧
    (∀ j ∈ before, j.dotted ∈ allowed) ∧ i.dotted ∉ allowed

namespace Sandbox

variable {b b' : Sandbox} {c : ContainerConfig} {m : Module} {i j : Import} {allowed : List String}

/-! ## The policy -/

theorem isAllowed_iff (h : c.allowedImports = some allowed) (name : String) :
    c.isAllowed name = true ↔ name ∈ allowed := by
  unfold ContainerConfig.isAllowed
  rw [h]
  exact List.contains_iff_mem

theorem forbidden?_eq_some_iff (h : c.allowedImports = some allowed) :
    forbidden? c m = some i ↔ Offends allowed m i := by
  unfold forbidden? Offends
  rw [List.find?_eq_some_iff_append]
  simp only [Bool.not_eq_eq_eq_not, Bool.not_true, ← Bool.not_eq_true, isAllowed_iff h,
    Decidable.not_not]
  constructor
  · rintro ⟨hoff, before, after, hm, hbefore⟩
    exact ⟨before, after, hm, hbefore, hoff⟩
  · rintro ⟨before, after, hm, hbefore, hoff⟩
    exact ⟨hoff, before, after, hm, hbefore⟩

theorem forbidden?_eq_none_iff (h : c.allowedImports = some allowed) :
    forbidden? c m = none ↔ ∀ i ∈ m.imports, i.dotted ∈ allowed := by
  unfold forbidden?
  simp only [List.find?_eq_none, Bool.not_eq_true', Bool.not_eq_false, isAllowed_iff h]

/-- Either all imports of a module are on the list, or one is the first that is not. -/
theorem allowed_or_offends (h : c.allowedImports = some allowed) (m : Module) :
    (∀ i ∈ m.imports, i.dotted ∈ allowed) ∨ ∃ i, Offends allowed m i := by
  cases hf : forbidden? c m with
  | none => exact .inl ((forbidden?_eq_none_iff h).mp hf)
  | some i => exact .inr ⟨i, (forbidden?_eq_some_iff h).mp hf⟩

/-! ## Instantiation -/

theorem instantiate_of_offends (h : b.config.allowedImports = some allowed)
    (available : b.unavailable = none) (module : Compiled) (engine : module.engine = b.engine)
    (hoff : Offends allowed module.module i) (env : Surroundings) (id : String) :
    b.instantiate env module id = .error (violation id i) := by
  have hforbidden : forbidden? b.config module.module = some i :=
    (forbidden?_eq_some_iff h).mpr hoff
  simp only [instantiate, available, engine, ne_eq, not_true_eq_false, if_false, hforbidden]
  rfl

/-- `g` was made in the sandbox of a module that could run there, and its start function has come
back. -/
structure Made (b : Sandbox) (env : Surroundings) (module : Compiled) (id : String)
    (g : Instance) : Prop where
  available : b.unavailable = none
  engine : module.engine = b.engine
  allowed : forbidden? b.config module.module = none
  started : b.start env module.module id = .ok (g.wiring, g.store)
  tracked : g.tracked = trackedMemory module.module
  fuelBudget : g.fuelBudget = b.fuelBudget

theorem made_of_instantiate {env : Surroundings} {module : Compiled} {id : String} {g : Instance}
    (h : b.instantiate env module id = .ok g) : b.Made env module id g := by
  unfold instantiate at h
  split at h
  · cases h
  · rename_i havailable
    split at h
    · cases h
    · rename_i hengine
      split at h
      · cases h
      · rename_i hallowed
        split at h
        · cases h
        · split at h
          · cases h
          · split at h
            · cases h
            · rename_i w s hstart
              cases h
              exact ⟨havailable, Decidable.not_not.mp hengine, hallowed, hstart, rfl, rfl⟩

theorem imports_of_instantiate (h : b.config.allowedImports = some allowed) {env : Surroundings}
    {module : Compiled} {id : String} {g : Instance} (hg : b.instantiate env module id = .ok g) :
    ∀ i ∈ module.module.imports, i.dotted ∈ allowed :=
  (forbidden?_eq_none_iff h).mp (made_of_instantiate hg).allowed

/-! ## Spellings -/

/-- The name spaces in which a sandbox offers something. -/
theorem space_of_provided (h : (b.provided? i).isSome) :
    i.space = "env" ∨ i.space = HostFunc.systemSpace ∨ i.space = b.backend.name := by
  unfold provided? at h
  split at h
  · rename_i hmem
    exact .inl (congrArg Prod.fst hmem)
  · rw [Option.isSome_map] at h
    unfold HostFunc.offered? at h
    dsimp only at h
    split at h
    · rename_i hbackend
      exact .inr (.inr hbackend)
    · split at h
      · rename_i henv
        exact .inl henv
      · split at h
        · rename_i hsystem
          exact .inr (.inl hsystem)
        · simp at h

theorem dot_notMem_space (h : (b.provided? i).isSome) : '.' ∉ i.space.toList := by
  rcases space_of_provided h with hs | hs | hs
  · rw [hs]
    decide
  · rw [hs]
    decide
  · rw [hs]
    cases b.backend <;> decide

/-- What stands before the first dot of a spelling is the name space, if that has none. -/
theorem takeWhile_dotted (h : '.' ∉ i.space.toList) :
    i.dotted.toList.takeWhile (· ≠ '.') = i.space.toList := by
  have hspelled : i.dotted.toList = i.space.toList ++ '.' :: i.name.toList := by
    simp [Import.dotted]
  rw [hspelled]
  exact takeWhile_append_cons h _

/-- A spelling stands for one import, wherever it can be linked. -/
theorem eq_of_dotted (hi : (b.provided? i).isSome) (hj : (b'.provided? j).isSome)
    (h : i.dotted = j.dotted) : i.space = j.space ∧ i.name = j.name := by
  have hspace : i.space = j.space := by
    refine String.toList_inj.mp ?_
    calc i.space.toList = i.dotted.toList.takeWhile (· ≠ '.') :=
          (takeWhile_dotted (dot_notMem_space hi)).symm
      _ = j.dotted.toList.takeWhile (· ≠ '.') := by rw [h]
      _ = j.space.toList := takeWhile_dotted (dot_notMem_space hj)
  refine ⟨hspace, ?_⟩
  unfold Import.dotted at h
  rw [hspace] at h
  exact (String.append_right_inj _).mp h

theorem fits_of_link {imports : List Import} {found : List Provided}
    (h : b.link imports = .ok found) :
    ∀ i ∈ imports, ∃ p, b.provided? i = some p ∧ b.mismatch? i p = none := by
  unfold link at h
  simp only [bind, Except.bind] at h
  split at h
  · cases h
  · rename_i found' hfound
    split at h
    · cases h
    · rename_i hfits
      simp only [List.findSome?_eq_none_iff] at hfits
      clear h
      -- what is found for the rest is another list, which the induction must allow for
      induction imports generalizing found' with
      | nil => simp
      | cons i rest ih =>
        rw [List.mapM_cons] at hfound
        cases hi : b.provided? i with
        | none => simp [hi, bind, Except.bind] at hfound
        | some p =>
          simp only [hi, bind, Except.bind] at hfound
          split at hfound
          · cases hfound
          · rename_i more hmore
            cases hfound
            simp only [List.zip_cons_cons, List.forall_mem_cons] at hfits
            obtain ⟨hfit, hfits⟩ := hfits
            intro j hj
            rcases List.mem_cons.mp hj with rfl | hj
            · exact ⟨p, hi, hfit⟩
            · exact ih more hmore hfits j hj

theorem provided_of_link {imports : List Import} {found : List Provided}
    (h : b.link imports = .ok found) : ∀ i ∈ imports, (b.provided? i).isSome := by
  intro i hi
  obtain ⟨p, hp, -⟩ := fits_of_link h i hi
  rw [hp]
  rfl

end Sandbox
end ContainerHost.Guest
