import ContainerHost.Proofs.Manager.Runs
/-!
# Ids are read back

An id is made of a name, the milliseconds of its creation and a suffix of eight digits in base
sixteen, with a hyphen before each of the two. A name may hold hyphens and digits itself, and may
even look like an id; the milliseconds and the suffix hold no hyphen, so that the last two hyphens
are the ones that were put in. `readId?` cuts an id there.

What is proved (`ids_unambiguous`): for every valid name, every time before the end of the signed
sixty-four bits and every suffix, the id is valid and is read back exactly, no other name, time or
suffix gives the same one, and a container that is made under it never fails for its id.
-/

namespace ContainerHost

/-! ## Stamps -/

/-- The time fits in sixty-four bits with a sign, and the suffix is eight digits in base sixteen, in
either case. -/
structure Stamp.Sound (s : Stamp) : Prop where
  millis : s.millis < 2 ^ 63
  length : s.suffix.toList.length = 8
  digits : ∀ c ∈ s.suffix.toList, (Text.Hex.value? c).isSome

theorem isNameChar_of_value? {c : Char} (h : (Text.Hex.value? c).isSome) : isNameChar c = true := by
  have hall : ∀ n < 103, (Text.Hex.value? (Char.ofNat n)).isSome →
      isNameChar (Char.ofNat n) = true := by decide +kernel
  have hbound : c.toNat < 103 := by
    unfold Text.Hex.value? at h
    split at h
    · rename_i hdigit
      have hle : c.toNat ≤ 57 := by
        simp only [Bool.and_eq_true, decide_eq_true_eq] at hdigit
        exact hdigit.2
      omega
    · split at h
      · rename_i hlower
        have hle : c.toNat ≤ 102 := by
          simp only [Bool.and_eq_true, decide_eq_true_eq] at hlower
          exact hlower.2
        omega
      · split at h
        · rename_i hupper
          have hle : c.toNat ≤ 70 := by
            simp only [Bool.and_eq_true, decide_eq_true_eq] at hupper
            exact hupper.2
          omega
        · cases h
  rw [← Char.ofNat_toNat c] at h ⊢
  exact hall _ hbound h

theorem Stamp.sound_ofSeed {millis : Nat} (h : millis < 2 ^ 63) (seed : Nat) :
    (ofSeed millis seed).Sound := by
  have hdigit : ∀ n < 16, (Text.Hex.value? (Text.Hex.digit n)).isSome := by decide +kernel
  refine ⟨h, length_suffix millis seed, fun c hc => ?_⟩
  simp only [ofSeed, Text.Hex.padded, String.toList_ofList, List.mem_reverse, List.mem_map] at hc
  obtain ⟨i, -, rfl⟩ := hc
  exact hdigit _ (Nat.mod_lt _ (by decide))

namespace Stamp.Sound

variable {s : Stamp}

theorem nameChars (h : s.Sound) : s.suffix.toList.all isNameChar = true :=
  List.all_eq_true.mpr fun c hc => isNameChar_of_value? (h.digits c hc)

theorem hyphen_notMem (h : s.Sound) : '-' ∉ s.suffix.toList := by
  intro hmem
  exact absurd (h.digits _ hmem) (by decide)

end Stamp.Sound

/-! ## Reading -/

/-- What stands before the last of some separators, and what stands behind it. -/
def cutLast? (separator : Char) (l : List Char) : Option (List Char × List Char) :=
  match l.reverse.dropWhile (· ≠ separator) with
  | [] => none
  | _ :: front => some (front.reverse, (l.reverse.takeWhile (· ≠ separator)).reverse)

theorem cutLast?_append {separator : Char} (front : List Char) {tail : List Char}
    (h : separator ∉ tail) : cutLast? separator (front ++ separator :: tail) = some (front, tail) := by
  have hreverse : (front ++ separator :: tail).reverse =
      tail.reverse ++ separator :: front.reverse := by simp
  have hnot : separator ∉ tail.reverse := fun hmem => h (List.mem_reverse.mp hmem)
  unfold cutLast?
  rw [hreverse, dropWhile_append_cons hnot, takeWhile_append_cons hnot]
  simp

/-- The number that some digits stand for. -/
def decimal? (digits : List Char) : Option Nat :=
  if digits.all Char.isDigit then some (Nat.ofDigitChars 10 digits 0) else none

theorem decimal?_toDigits (n : Nat) : decimal? (Nat.toDigits 10 n) = some n := by
  have hdigits : (Nat.toDigits 10 n).all Char.isDigit = true :=
    List.all_eq_true.mpr fun c hc => Nat.isDigit_of_mem_toDigits (by decide) (by decide) hc
  unfold decimal?
  rw [if_pos hdigits, Nat.ofDigitChars_ten_toDigits]

def readId? (id : String) : Option (String × Stamp) := do
  let (front, suffix) ← cutLast? '-' id.toList
  let (name, millis) ← cutLast? '-' front
  let n ← decimal? millis
  some (String.ofList name, ⟨n, String.ofList suffix⟩)

/-- The characters of a name do not matter, nor does its length. -/
theorem readId?_generateId (name : String) {stamp : Stamp} (h : '-' ∉ stamp.suffix.toList) :
    readId? (generateId name stamp) = some (name, stamp) := by
  have hspelled : (generateId name stamp).toList =
      (name.toList ++ '-' :: Nat.toDigits 10 stamp.millis) ++ '-' :: stamp.suffix.toList := by
    simp [generateId]
  have hmillis := hyphen_notMem_digits stamp.millis
  unfold readId?
  rw [hspelled, cutLast?_append _ h]
  simp only [Option.bind_eq_bind, Option.bind_some, cutLast?_append _ hmillis, decimal?_toDigits,
    String.ofList_toList]

/-! ## Making containers -/

namespace Guest.Sandbox

variable {b : Sandbox} {env : Surroundings} {module : Compiled} {id : String} {e : Error}

/-- No guest is refused for the id of its container. -/
theorem instantiate_error (h : b.instantiate env module id = .error e) (id' reason : String) :
    e ≠ .invalidContainerId id' reason := by
  have hrefused := instantiate_eq_error_iff.mp h
  cases hrefused <;> nofun

end Guest.Sandbox

theorem Container.instantiate_of_create_error {id name : String} {box : Guest.Sandbox}
    {module : Guest.Compiled} {digest : Option String} {env : Surroundings} {e : Error}
    (hvalid : validateId id = .ok ()) (h : create id name box module digest env = .error e) :
    box.instantiate env module id = .error e := by
  have hmade := create_of_valid hvalid name box module digest env
  cases hguest : box.instantiate env module id with
  | error e' =>
    rw [hguest] at hmade
    cases hmade.symm.trans h
    rfl
  | ok g =>
    rw [hguest] at hmade
    obtain ⟨d, hd, -⟩ := hmade
    rw [hd] at h
    cases h

/-- An id of a valid name is valid and is read back exactly; no other name and stamp give the same
id; and a container that is made under it fails only where its guest does, never for the id. -/
theorem ids_unambiguous {name : String} {stamp : Stamp} (hname : validateName name = .ok ())
    (hstamp : stamp.Sound) :
    let id := generateId name stamp
    validateId id = .ok () ∧ readId? id = some (name, stamp) ∧
    (∀ (name' : String) (stamp' : Stamp), stamp'.Sound → generateId name' stamp' = id →
      name' = name ∧ stamp' = stamp) ∧
    ∀ (box : Guest.Sandbox) (module : Guest.Compiled) (digest : Option String)
      (env : Surroundings) (e : Error), Container.create id name box module digest env = .error e →
      box.instantiate env module id = .error e ∧
        ∀ id' reason, e ≠ .invalidContainerId id' reason := by
  intro id
  have hmillis : stamp.millis < 1 <<< 64 := hstamp.millis.trans (by decide)
  have hvalid : validateId id = .ok () :=
    validateId_of_suffix hname hmillis hstamp.length hstamp.nameChars
  have hread : readId? id = some (name, stamp) := readId?_generateId name hstamp.hyphen_notMem
  refine ⟨hvalid, hread, ?_, ?_⟩
  · intro name' stamp' hstamp' heq
    have hread' := readId?_generateId name' hstamp'.hyphen_notMem
    rw [heq, hread] at hread'
    cases hread'
    exact ⟨rfl, rfl⟩
  · intro box module digest env e he
    have hguest := Container.instantiate_of_create_error hvalid he
    exact ⟨hguest, Guest.Sandbox.instantiate_error hguest⟩

/-- The name looks like an id itself. -/
theorem ids_unambiguous_nested :
    validateName "a-17-deadbeef" = .ok () ∧ Stamp.Sound ⟨1700000000000, "00C0FFEE"⟩ ∧
      readId? (generateId "a-17-deadbeef" ⟨1700000000000, "00C0FFEE"⟩) =
        some ("a-17-deadbeef", ⟨1700000000000, "00C0FFEE"⟩) ∧
      generateId "a" ⟨17, "deadbeef"⟩ ≠ generateId "a-17-deadbeef" ⟨1700000000000, "00C0FFEE"⟩ := by
  have hname : validateName "a-17-deadbeef" = .ok () := by decide +kernel
  have hsound (millis : Nat) (suffix : String) (hmillis : millis < 2 ^ 63)
      (hlength : suffix.toList.length = 8)
      (hdigits : suffix.toList.all (fun c => (Text.Hex.value? c).isSome) = true) :
      Stamp.Sound ⟨millis, suffix⟩ := ⟨hmillis, hlength, List.all_eq_true.mp hdigits⟩
  have hstamp : Stamp.Sound ⟨1700000000000, "00C0FFEE"⟩ :=
    hsound _ _ (by decide) (by decide +kernel) (by decide +kernel)
  have hother : Stamp.Sound ⟨17, "deadbeef"⟩ :=
    hsound _ _ (by decide) (by decide +kernel) (by decide +kernel)
  obtain ⟨-, hread, hinj, -⟩ := ids_unambiguous hname hstamp
  refine ⟨hname, hstamp, hread, fun heq => ?_⟩
  obtain ⟨hsame, -⟩ := hinj "a" ⟨17, "deadbeef"⟩ hother heq
  exact absurd hsame (by decide)

end ContainerHost
