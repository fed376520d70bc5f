import ContainerHost.Names
import Mathlib.Data.String.Basic
/-!
# Stamps in ids

An id ends with the digits of its stamp: the milliseconds, and a suffix of fixed length. Neither
holds the hyphen that stands before it, whatever the name is, so that the stamp can be read back.

What is proved:
  - `millis_inj`: ids with the same text were stamped with the same milliseconds;
  - `validateId_of_suffix`: a valid name gives a valid id, as long as the milliseconds fit in
    sixty-four bits, whichever digits the suffix has.
-/

namespace ContainerHost

/-! ## Separators -/

/-- What stands before the first of some separators. -/
theorem takeWhile_append_cons {c : Char} {l : List Char} (h : c ∉ l) (rest : List Char) :
    (l ++ c :: rest).takeWhile (· ≠ c) = l := by
  rw [List.takeWhile_append_of_pos]
  · simp
  · intro x hx
    have hne : x ≠ c := fun heq => h (heq ▸ hx)
    simpa using hne

/-- What the first of some separators begins. -/
theorem dropWhile_append_cons {c : Char} {l : List Char} (h : c ∉ l) (rest : List Char) :
    (l ++ c :: rest).dropWhile (· ≠ c) = c :: rest := by
  have hboth := List.takeWhile_append_dropWhile (p := (· ≠ c)) (l := l ++ c :: rest)
  rw [takeWhile_append_cons h] at hboth
  exact List.append_cancel_left hboth

/-- What stands behind the last hyphen does not depend on how it is found. -/
theorem behind_last_inj {c : Char} {l l' d d' : List Char} (hd : c ∉ d) (hd' : c ∉ d')
    (h : l ++ c :: d = l' ++ c :: d') : d = d' := by
  have htake {l d : List Char} (hd : c ∉ d) :
      (l ++ c :: d).reverse.takeWhile (· ≠ c) = d.reverse := by
    rw [List.reverse_append, List.reverse_cons, List.append_assoc]
    exact takeWhile_append_cons (fun hmem => hd (List.mem_reverse.mp hmem)) l.reverse
  have hreverse : d.reverse = d'.reverse := by
    rw [← htake hd (l := l), ← htake hd' (l := l'), h]
  exact List.reverse_inj.mp hreverse

/-! ## Milliseconds -/

theorem toList_toString (n : Nat) : (toString n).toList = Nat.toDigits 10 n := Nat.toList_repr

theorem hyphen_notMem_digits (n : Nat) : '-' ∉ Nat.toDigits 10 n := by
  intro hmem
  have hdigit := Nat.isDigit_of_mem_toDigits (by decide) (by decide) hmem
  exact absurd hdigit (by decide)

theorem length_suffix (millis seed : Nat) :
    (Stamp.ofSeed millis seed).suffix.toList.length = 8 := by
  simp [Stamp.ofSeed, Text.Hex.padded]

/-- An id tells the milliseconds of its stamp. -/
theorem millis_inj {name name' : String} {millis millis' seed seed' : Nat}
    (h : generateId name (.ofSeed millis seed) = generateId name' (.ofSeed millis' seed')) :
    millis = millis' := by
  have hlist := congrArg String.toList h
  simp only [generateId, String.toList_append] at hlist
  -- suffixes have one length, so that what stands before them is the same
  have hlength : (Stamp.ofSeed millis seed).suffix.toList.length =
      (Stamp.ofSeed millis' seed').suffix.toList.length := by
    rw [length_suffix, length_suffix]
  have hfront := List.append_cancel_right (List.append_inj' hlist hlength).1
  have hsplit (name : String) (millis : Nat) : name.toList ++ "-".toList ++
      (toString millis).toList = name.toList ++ '-' :: Nat.toDigits 10 millis := by
    rw [toList_toString, List.append_assoc]
    rfl
  simp only [Stamp.ofSeed, hsplit] at hfront
  have hdigits := behind_last_inj (hyphen_notMem_digits millis) (hyphen_notMem_digits millis')
    hfront
  calc millis = Nat.ofDigitChars 10 (Nat.toDigits 10 millis) 0 :=
        Nat.ofDigitChars_ten_toDigits.symm
    _ = Nat.ofDigitChars 10 (Nat.toDigits 10 millis') 0 := by rw [hdigits]
    _ = millis' := Nat.ofDigitChars_ten_toDigits

/-! ## Valid ids -/

theorem nameFault?_eq_none_iff {limit : Nat} {s : String} :
    nameFault? limit s = none ↔
      s.isEmpty = false ∧ s.utf8ByteSize ≤ limit ∧ s.toList.all isNameChar = true := by
  unfold nameFault?
  split
  · simp [*]
  · split
    · rename_i hlong
      simp only [reduceCtorEq, false_iff, not_and]
      intro _ hshort
      omega
    · rename_i hempty hshort
      cases hall : s.toList.all isNameChar with
      | true => simpa [hempty] using hshort
      | false => simp

theorem isNameChar_of_isDigit {c : Char} (h : c.isDigit = true) : isNameChar c = true := by
  have hall : ∀ n < 58, 48 ≤ n → isNameChar (Char.ofNat n) = true := by decide +kernel
  have hbounds : 48 ≤ c.toNat ∧ c.toNat ≤ 57 := by
    simp only [Char.isDigit, Bool.and_eq_true, decide_eq_true_eq, ge_iff_le] at h
    exact h
  rw [← Char.ofNat_toNat c]
  exact hall _ (by omega) hbounds.1

theorem isNameChar_hexDigit {n : Nat} (h : n < 16) : isNameChar (Text.Hex.digit n) = true := by
  have hall : ∀ k < 16, isNameChar (Text.Hex.digit k) = true := by decide +kernel
  exact hall n h

/-- The characters of names take one byte each. -/
theorem utf8ByteSize_of_nameChars {s : String} (h : s.toList.all isNameChar = true) :
    s.utf8ByteSize = s.toList.length := by
  have hone : nameAlphabet.toList.all (·.utf8Size == 1) = true := by decide +kernel
  have hsize : s.utf8ByteSize = String.utf8Len s.toList := by
    rw [← String.utf8ByteSize_ofList, String.ofList_toList]
  rw [hsize]
  generalize s.toList = l at h
  induction l with
  | nil => rfl
  | cons c l ih =>
    rw [List.all_cons, Bool.and_eq_true] at h
    have hc : c.utf8Size = 1 :=
      beq_iff_eq.mp (List.all_eq_true.mp hone c (List.contains_iff_mem.mp h.1))
    simp only [String.utf8Len, List.length_cons, ih h.2, hc]

theorem nameChars_suffix (millis seed : Nat) :
    (Stamp.ofSeed millis seed).suffix.toList.all isNameChar = true := by
  simp only [Stamp.ofSeed, Text.Hex.padded, String.toList_ofList, List.all_reverse, List.all_map,
    List.all_eq_true, Function.comp_apply]
  intro i _
  exact isNameChar_hexDigit (Nat.mod_lt _ (by decide))

theorem nameChars_digits (n : Nat) : (toString n).toList.all isNameChar = true := by
  rw [toList_toString, List.all_eq_true]
  intro c hc
  exact isNameChar_of_isDigit (Nat.isDigit_of_mem_toDigits (by decide) (by decide) hc)

/-- What is made of a valid name, some milliseconds and eight characters of names is a valid id. -/
theorem validateId_of_suffix {name : String} {stamp : Stamp} (hname : validateName name = .ok ())
    (hmillis : stamp.millis < 1 <<< 64) (hlength : stamp.suffix.toList.length = 8)
    (hsuffix : stamp.suffix.toList.all isNameChar = true) :
    validateId (generateId name stamp) = .ok () := by
  obtain ⟨-, hshort, hchars⟩ :=
    nameFault?_eq_none_iff.mp ((validateName_eq_ok_iff name).mp hname)
  have hdigits : (toString stamp.millis).utf8ByteSize ≤ 20 := by
    rw [utf8ByteSize_of_nameChars (nameChars_digits stamp.millis), toList_toString,
      Nat.length_toDigits_le_iff (by decide) (by decide)]
    exact hmillis.trans (by decide)
  have hsize : stamp.suffix.utf8ByteSize = 8 := by
    rw [utf8ByteSize_of_nameChars hsuffix, hlength]
  have hfault : nameFault? Limits.maxIdLength (generateId name stamp) = none := by
    refine nameFault?_eq_none_iff.mpr ⟨?_, ?_, ?_⟩
    · simp [generateId]
    · have hlimits : Limits.maxNameLength + 30 ≤ Limits.maxIdLength := by decide
      have hhyphen : "-".utf8ByteSize = 1 := rfl
      simp only [generateId, String.utf8ByteSize_append, hsize, hhyphen]
      omega
    · simp only [generateId, String.toList_append, List.all_append, hchars, hsuffix,
        nameChars_digits]
      decide +kernel
  unfold validateId
  rw [hfault]

theorem validateId_generateId {name : String} {millis : Nat} (seed : Nat)
    (hname : validateName name = .ok ()) (hmillis : millis < 1 <<< 64) :
    validateId (generateId name (.ofSeed millis seed)) = .ok () :=
  validateId_of_suffix hname hmillis (length_suffix millis seed) (nameChars_suffix millis seed)

end ContainerHost
