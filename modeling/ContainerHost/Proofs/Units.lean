import ContainerHost.Text.Utf16
import Mathlib.Data.Nat.Basic
/-!
# Texts in units of sixteen bits

A list of units falls apart in one way: into the units of characters, and units that stand alone,
which belong to no pair. `Part` is one or the other, and `Apart` says that no two that stand alone
would make a pair. Reading a list of units is reading its parts: a character is itself, and a unit
that stands alone is U+FFFD (`decode_parts`, `exists_parts`).

What is proved: what bytes say in this way is what is read from them, and nothing else (`says_iff`),
and a text that was written as bytes is what they say (`says_text`).
-/

namespace ContainerHost.Text.Utf16

/-! ## Units -/

variable {u v : UInt16} {rest : List UInt16}

theorem isHigh_iff : isHigh u = true ↔ 0xD800 ≤ u.toNat ∧ u.toNat ≤ 0xDBFF := by
  simp [isHigh, UInt16.le_iff_toNat_le]

theorem isLow_iff : isLow u = true ↔ 0xDC00 ≤ u.toNat ∧ u.toNat ≤ 0xDFFF := by
  simp [isLow, UInt16.le_iff_toNat_le]

theorem isHigh_of_isLow (h : isLow u = true) : isHigh u = false := by
  rw [isLow_iff] at h
  rw [Bool.eq_false_iff, Ne, isHigh_iff]
  omega

theorem decode_plain (hhigh : isHigh u = false) (hlow : isLow u = false) :
    decode (u :: rest) = Char.ofNat u.toNat :: decode rest := by
  rw [decode.eq_def]
  simp [hhigh, hlow]

theorem decode_pair (hhigh : isHigh u = true) (hlow : isLow v = true) :
    decode (u :: v :: rest) = pair u v :: decode rest := by
  rw [decode.eq_def]
  simp [hhigh, hlow]

theorem decode_low (h : isLow u = true) : decode (u :: rest) = '\ufffd' :: decode rest := by
  rw [decode.eq_def]
  simp [h, isHigh_of_isLow h]

/-- The first unit of a pair without a second one. -/
theorem decode_high (h : isHigh u = true) (hnext : ∀ v, rest.head? = some v → isLow v = false) :
    decode (u :: rest) = '\ufffd' :: decode rest := by
  rw [decode.eq_def]
  cases rest with
  | nil => simp [h, decode]
  | cons v rest => simp [h, hnext v rfl]

/-! ## Characters -/

/-- A character is no surrogate and within the code points. -/
theorem toNat_range (c : Char) : c.toNat < 0xD800 ∨ (0xDFFF < c.toNat ∧ c.toNat < 0x110000) :=
  c.valid

theorem toNat_ofNat {n : Nat} (h : n.isValidChar) : (Char.ofNat n).toNat = n := by
  rw [Char.ofNat, dif_pos h]
  exact UInt32.toNat_ofNatLT ..

theorem units_below {c : Char} (h : c.toNat < 0x10000) : units c = [UInt16.ofNat c.toNat] :=
  if_pos h

theorem units_above {c : Char} (h : ¬ c.toNat < 0x10000) :
    units c = [UInt16.ofNat (0xD800 + (c.toNat - 0x10000) / 0x400),
      UInt16.ofNat (0xDC00 + (c.toNat - 0x10000) % 0x400)] :=
  if_neg h

/-- A character is read back from its units, whatever follows them. -/
theorem decode_units (c : Char) (rest : List UInt16) :
    decode (units c ++ rest) = c :: decode rest := by
  have hrange := toNat_range c
  by_cases hbelow : c.toNat < 0x10000
  · have hunit : (UInt16.ofNat c.toNat).toNat = c.toNat := by
      rw [UInt16.toNat_ofNat']
      omega
    rw [units_below hbelow, List.singleton_append, decode_plain, hunit, Char.ofNat_toNat]
    · rw [Bool.eq_false_iff, Ne, isHigh_iff, hunit]
      omega
    · rw [Bool.eq_false_iff, Ne, isLow_iff, hunit]
      omega
  · have hfirst : (UInt16.ofNat (0xD800 + (c.toNat - 0x10000) / 0x400)).toNat =
        0xD800 + (c.toNat - 0x10000) / 0x400 := by
      rw [UInt16.toNat_ofNat']
      omega
    have hsecond : (UInt16.ofNat (0xDC00 + (c.toNat - 0x10000) % 0x400)).toNat =
        0xDC00 + (c.toNat - 0x10000) % 0x400 := by
      rw [UInt16.toNat_ofNat']
      omega
    rw [units_above hbelow, List.cons_append, List.singleton_append, decode_pair]
    · have hpoint : 0x10000 + (0xD800 + (c.toNat - 0x10000) / 0x400 - 0xD800) * 0x400 +
          (0xDC00 + (c.toNat - 0x10000) % 0x400 - 0xDC00) = c.toNat := by
        omega
      rw [pair, hfirst, hsecond, hpoint, Char.ofNat_toNat]
    · rw [isHigh_iff, hfirst]
      omega
    · rw [isLow_iff, hsecond]
      omega

theorem head?_units (c : Char) (rest : List UInt16) :
    ∀ v, (units c ++ rest).head? = some v → isLow v = false := by
  intro v hv
  have hrange := toNat_range c
  rw [Bool.eq_false_iff, Ne, isLow_iff]
  by_cases hbelow : c.toNat < 0x10000
  · rw [units_below hbelow, List.singleton_append, List.head?_cons, Option.some.injEq] at hv
    rw [← hv, UInt16.toNat_ofNat']
    omega
  · rw [units_above hbelow, List.cons_append, List.head?_cons, Option.some.injEq] at hv
    rw [← hv, UInt16.toNat_ofNat']
    omega

/-- The character of a unit that belongs to no pair is written as that unit. -/
theorem units_ofNat (hhigh : isHigh u = false) (hlow : isLow u = false) :
    units (Char.ofNat u.toNat) = [u] := by
  rw [Bool.eq_false_iff, Ne, isHigh_iff] at hhigh
  rw [Bool.eq_false_iff, Ne, isLow_iff] at hlow
  have hlt := u.toNat_lt
  have hvalid : u.toNat.isValidChar := by
    simp only [Nat.isValidChar]
    omega
  rw [units_below (by rw [toNat_ofNat hvalid]; omega), toNat_ofNat hvalid, UInt16.ofNat_toNat]

/-- The character of a pair is written as that pair. -/
theorem units_pair (hhigh : isHigh u = true) (hlow : isLow v = true) :
    units (pair u v) = [u, v] := by
  rw [isHigh_iff] at hhigh
  rw [isLow_iff] at hlow
  have hvalid : (0x10000 + (u.toNat - 0xD800) * 0x400 + (v.toNat - 0xDC00)).isValidChar := by
    simp only [Nat.isValidChar]
    omega
  have hpoint : (pair u v).toNat = 0x10000 + (u.toNat - 0xD800) * 0x400 + (v.toNat - 0xDC00) :=
    toNat_ofNat hvalid
  have hfirst : 0xD800 + ((pair u v).toNat - 0x10000) / 0x400 = u.toNat := by omega
  have hsecond : 0xDC00 + ((pair u v).toNat - 0x10000) % 0x400 = v.toNat := by omega
  rw [units_above (by omega), hfirst, hsecond, UInt16.ofNat_toNat, UInt16.ofNat_toNat]

/-! ## Parts -/

/-- A character, or a unit that stands alone. -/
inductive Part where
  | char (c : Char)
  | lone (u : UInt16)

namespace Part

def units : Part → List UInt16
  | char c => Utf16.units c
  | lone u => [u]

def shown : Part → Char
  | char c => c
  | lone _ => '\ufffd'

end Part

/-- Each unit that stands alone is one of a pair, and no two of them make a pair. -/
inductive Apart : List Part → Prop where
  | nil : Apart []
  | char (c : Char) {ps : List Part} (h : Apart ps) : Apart (.char c :: ps)
  | low {u : UInt16} (hu : isLow u = true) {ps : List Part} (h : Apart ps) : Apart (.lone u :: ps)
  | high {u : UInt16} (hu : isHigh u = true) {ps : List Part} (h : Apart ps)
    (hnext : ∀ v, ps.head? = some (.lone v) → isLow v = false) : Apart (.lone u :: ps)

variable {ps : List Part}

/-- What follows a unit that waits for the second one of its pair is none, if no part is. -/
theorem isLow_head (hnext : ∀ v, ps.head? = some (.lone v) → isLow v = false) :
    ∀ v, (ps.flatMap Part.units).head? = some v → isLow v = false := by
  intro v hv
  cases ps with
  | nil => cases hv
  | cons p ps =>
    cases p with
    | char c => exact head?_units c _ v hv
    | lone w =>
      cases hv
      exact hnext v rfl

/-- Reading units is reading their parts. -/
theorem decode_parts (h : Apart ps) : decode (ps.flatMap Part.units) = ps.map Part.shown := by
  induction h with
  | nil => rfl
  | char c _ ih =>
    rw [List.flatMap_cons, Part.units, decode_units, ih]
    rfl
  | low hu _ ih =>
    rw [List.flatMap_cons, Part.units, List.singleton_append, decode_low hu, ih]
    rfl
  | high hu _ hnext ih =>
    rw [List.flatMap_cons, Part.units, List.singleton_append, decode_high hu (isLow_head hnext), ih]
    rfl

/-- Any units fall apart. The cases are those of reading them. -/
theorem exists_parts (us : List UInt16) : ∃ ps, Apart ps ∧ ps.flatMap Part.units = us := by
  fun_induction decode us with
  | case1 => exact ⟨[], .nil, rfl⟩
  | case2 u hhigh v rest hlow ih =>
    obtain ⟨ps, hapart, rfl⟩ := ih
    refine ⟨.char (pair u v) :: ps, .char _ hapart, ?_⟩
    rw [List.flatMap_cons, Part.units, units_pair hhigh hlow]
    rfl
  | case3 u hhigh v rest hlow ih =>
    obtain ⟨ps, hapart, hunits⟩ := ih
    refine ⟨.lone u :: ps, .high hhigh hapart fun w hw => ?_, ?_⟩
    · cases ps with
      | nil => cases hw
      | cons p ps =>
        cases hw
        cases hunits
        exact Bool.eq_false_iff.mpr hlow
    · rw [List.flatMap_cons, hunits]
      rfl
  | case4 u hhigh => exact ⟨[.lone u], .high hhigh .nil (fun v hv => by cases hv), rfl⟩
  | case5 u rest hhigh hlow ih =>
    obtain ⟨ps, hapart, rfl⟩ := ih
    exact ⟨.lone u :: ps, .low hlow hapart, rfl⟩
  | case6 u rest hhigh hlow ih =>
    obtain ⟨ps, hapart, rfl⟩ := ih
    refine ⟨.char (Char.ofNat u.toNat) :: ps, .char _ hapart, ?_⟩
    rw [List.flatMap_cons, Part.units,
      units_ofNat (Bool.eq_false_iff.mpr hhigh) (Bool.eq_false_iff.mpr hlow)]
    rfl

theorem apart_chars (cs : List Char) : Apart (cs.map .char) := by
  induction cs with
  | nil => exact .nil
  | cons c cs ih => exact .char c ih

/-! ## Bytes -/

/-- The bytes of units, the lower one of each first. -/
def toBytes (us : List UInt16) : List UInt8 :=
  us.flatMap fun u : UInt16 => [u.toUInt8, (u >>> 8).toUInt8]

@[simp] theorem length_toBytes (us : List UInt16) : (toBytes us).length = 2 * us.length := by
  induction us with
  | nil => rfl
  | cons u us ih =>
    change (toBytes us).length + 2 = 2 * (us.length + 1)
    omega

/-- The number that two bytes make. -/
theorem toNat_ofBytes (a b : UInt8) :
    (UInt16.ofNat a.toNat ||| UInt16.ofNat b.toNat <<< 8).toNat = a.toNat + 256 * b.toNat := by
  have ha := a.toNat_lt
  have hb := b.toNat_lt
  have hlower : (UInt16.ofNat a.toNat).toNat = a.toNat := by
    rw [UInt16.toNat_ofNat']
    omega
  have hupper : (UInt16.ofNat b.toNat <<< 8).toNat = b.toNat <<< 8 := by
    rw [UInt16.toNat_shiftLeft, UInt16.toNat_ofNat', Nat.mod_eq_of_lt (by omega : b.toNat < 2 ^ 16)]
    change b.toNat <<< 8 % 2 ^ 16 = b.toNat <<< 8
    rw [Nat.shiftLeft_eq]
    omega
  rw [UInt16.toNat_or, hlower, hupper, Nat.or_comm, ← Nat.shiftLeft_add_eq_or_of_lt ha,
    Nat.shiftLeft_eq]
  omega

theorem ofBytes_toBytes (us : List UInt16) : ofBytes (toBytes us) = us := by
  induction us with
  | nil => rfl
  | cons u us ih =>
    have hlt := u.toNat_lt
    have hunit :
        UInt16.ofNat u.toUInt8.toNat ||| UInt16.ofNat (u >>> 8).toUInt8.toNat <<< 8 = u := by
      rw [← UInt16.toNat_inj, toNat_ofBytes, UInt16.toNat_toUInt8, UInt16.toNat_toUInt8,
        UInt16.toNat_shiftRight]
      change u.toNat % 2 ^ 8 + 256 * (u.toNat >>> 8 % 2 ^ 8) = u.toNat
      rw [Nat.shiftRight_eq_div_pow]
      omega
    change _ :: ofBytes (toBytes us) = u :: us
    rw [ih, hunit]

theorem toBytes_ofBytes {bytes : List UInt8} (h : bytes.length % 2 = 0) :
    toBytes (ofBytes bytes) = bytes := by
  fun_induction ofBytes bytes with
  | case1 a b rest ih =>
    have ha := a.toNat_lt
    have hb := b.toNat_lt
    have hlower : (UInt16.ofNat a.toNat ||| UInt16.ofNat b.toNat <<< 8).toUInt8 = a := by
      rw [← UInt8.toNat_inj, UInt16.toNat_toUInt8, toNat_ofBytes]
      omega
    have hupper : ((UInt16.ofNat a.toNat ||| UInt16.ofNat b.toNat <<< 8) >>> 8).toUInt8 = b := by
      rw [← UInt8.toNat_inj, UInt16.toNat_toUInt8, UInt16.toNat_shiftRight, toNat_ofBytes]
      change (a.toNat + 256 * b.toNat) >>> 8 % 2 ^ 8 = b.toNat
      rw [Nat.shiftRight_eq_div_pow]
      omega
    have heven : rest.length % 2 = 0 := by
      rw [List.length_cons, List.length_cons] at h
      omega
    change _ :: _ :: toBytes (ofBytes rest) = a :: b :: rest
    rw [hlower, hupper, ih heven]
  | case2 bytes hnot =>
    match bytes, hnot with
    | [], _ => rfl
    | [a], _ => cases h
    | a :: b :: rest, hnot => exact (hnot a b rest rfl).elim

/-! ## What bytes say -/

/-- The bytes are those of parts that stand apart, and the text shows these one by one. -/
def Says (bytes : List UInt8) (text : String) : Prop :=
  ∃ ps, Apart ps ∧ toBytes (ps.flatMap Part.units) = bytes ∧
    text = String.ofList (ps.map Part.shown)

/-- What is read from whole units is what they say, and they say nothing else. -/
theorem says_iff {bytes : List UInt8} (h : bytes.length % 2 = 0) (text : String) :
    Says bytes text ↔ text = String.ofList (decode (ofBytes bytes)) := by
  constructor
  · rintro ⟨ps, hapart, rfl, rfl⟩
    rw [ofBytes_toBytes, decode_parts hapart]
  · rintro rfl
    obtain ⟨ps, hapart, hunits⟩ := exists_parts (ofBytes bytes)
    refine ⟨ps, hapart, ?_, ?_⟩
    · rw [hunits, toBytes_ofBytes h]
    · rw [← hunits, decode_parts hapart]

def bytesOf (text : String) : List UInt8 := toBytes (encode text.toList)

theorem says_text (text : String) : Says (bytesOf text) text := by
  refine ⟨text.toList.map .char, apart_chars _, ?_, ?_⟩
  · rw [List.flatMap_map]
    rfl
  · rw [List.map_map]
    change text = String.ofList (text.toList.map id)
    rw [List.map_id, String.ofList_toList]

end ContainerHost.Text.Utf16
