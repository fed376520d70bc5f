import ContainerHost.Proofs.Manager.Upkeep
/-!
# Names of containers

A container keeps the name that it was made with, whatever is done with it, and scaling hands the
name on. A pool whose containers have valid names therefore keeps that (`Named`, `keeps_named`), and
so does the pool of a manager, which only makes containers of names that are valid.

A valid name holds no brace, and the text of a configuration begins with one, so that the key of a
module tells its name (`name_of_key`).
-/

namespace ContainerHost

/-- A container may have the name. -/
def ValidName (name : String) : Prop := validateName name = .ok ()

namespace ValidName

variable {name : String}

theorem nameChar (h : ValidName name) {c : Char} (hc : c ∈ name.toList) : isNameChar c = true :=
  List.all_eq_true.mp (nameFault?_eq_none_iff.mp ((validateName_eq_ok_iff name).mp h)).2.2 c hc

/-- Whatever may not stand in names does not. -/
theorem notMem (h : ValidName name) {c : Char} (hc : isNameChar c = false) : c ∉ name.toList :=
  fun hmem => Bool.false_ne_true (hc.symm.trans (h.nameChar hmem))

end ValidName

/-! ## Names in keys -/

theorem toList_fragment (c : ContainerConfig) : ∃ l, c.fragment.toList = '\x7b' :: l := by
  unfold ContainerConfig.fragment ContainerConfig.toJson Json.Value.text
  rw [String.toList_ofList]
  exact ⟨_, rfl⟩

/-- What stands before the first brace of a key is the name. -/
theorem takeWhile_key {name : String} (h : ValidName name) (c : ContainerConfig) :
    (ModuleCache.key name c).toList.takeWhile (· ≠ '\x7b') = name.toList := by
  obtain ⟨l, hl⟩ := toList_fragment c
  unfold ModuleCache.key
  rw [String.toList_append, hl]
  exact takeWhile_append_cons (h.notMem (by decide +kernel)) l

/-- A key tells the name that it was made with. -/
theorem name_of_key {name name' : String} {c c' : ContainerConfig} (h : ValidName name)
    (h' : ValidName name') (heq : ModuleCache.key name c = ModuleCache.key name' c') :
    name = name' := by
  refine String.toList_inj.mp ?_
  calc name.toList = (ModuleCache.key name c).toList.takeWhile (· ≠ '\x7b') :=
        (takeWhile_key h c).symm
    _ = (ModuleCache.key name' c').toList.takeWhile (· ≠ '\x7b') := by rw [heq]
    _ = name'.toList := takeWhile_key h' c'

/-! ## Pools and managers -/

def Pool.Named (y : Pool) : Prop := ∀ id c, y.get? id = some c → ValidName c.name

theorem Pool.named_opened (outside : Outside) : (opened outside).Named := all_opened _ outside

theorem Pool.keeps_named : Keeps Container.SameIdentity Named :=
  keeps_all fun _ _ hd hc => show ValidName _ from hd.name ▸ hc

theorem Pool.keeps_named_sameModule : Keeps Container.SameModule Named :=
  keeps_named.mono fun _ _ h => h.sameIdentity

namespace Manager

variable {m : Manager}

theorem named_startContainer (h : m.pool.Named) (r : Reservation) {name : String}
    (hname : ValidName name) (c : ContainerConfig) (module : CachedModule) :
    (m.startContainer r name c module).2.pool.Named := by
  refine all_startContainer h ?_ r ?_
  · intro c d hd hc
    exact hd.name ▸ hc
  · rintro d rfl - - -
    exact hname

theorem named_scale (h : m.pool.Named) (id : String) (n : Nat) : (m.scale id n).2.pool.Named := by
  refine all_scale h ?_ id n ?_
  · intro c d hd hc
    exact hd.name ▸ hc
  · intro c r hc hr
    exact hr.name ▸ hc

end Manager
end ContainerHost
