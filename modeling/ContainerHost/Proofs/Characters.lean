import ContainerHost.Text.Utf8
/-!
# The bytes of a text

Bytes are read as UTF-8 in one pass that never fails, with U+FFFD for what is no text, so that
different bytes can read as the same text. With the bytes that a text is written as this does not
happen: each character is read back from its own bytes, whatever follows them (`decode_character`),
and so is a text (`decodeString_bytes`).
-/

namespace ContainerHost.Text.Utf8

/-! ## Single bytes -/

theorem toNat_byte {n : Nat} (h : n < 256) : (UInt8.ofNat n).toNat = n := by
  rw [UInt8.toNat_ofNat', Nat.mod_eq_of_lt h]

/-- The first of two bytes. -/
theorem Lead.of?_two {n : Nat} (hlow : 0xC2 ≤ n) (hhigh : n ≤ 0xDF) :
    Lead.of? (.ofNat n) = some ⟨0x80, 0xBF, 0, n - 0xC0⟩ := by
  have hn : (UInt8.ofNat n).toNat = n := toNat_byte (by omega)
  simp [Lead.of?, UInt8.le_iff_toNat_le, hn, hlow, hhigh]

/-- The first of three bytes. After 0xE0 two bytes would do for the least second bytes, and after
0xED the greatest would make surrogates. -/
theorem Lead.of?_three {n : Nat} (hlow : 0xE0 ≤ n) (hhigh : n ≤ 0xEF) :
    Lead.of? (.ofNat n) = some ⟨if n = 0xE0 then 0xA0 else 0x80, if n = 0xED then 0x9F else 0xBF, 1,
      n - 0xE0⟩ := by
  have hn : (UInt8.ofNat n).toNat = n := toNat_byte (by omega)
  simp only [Lead.of?, UInt8.le_iff_toNat_le, ← UInt8.toNat_inj, hn, beq_iff_eq]
  simp
  grind

/-- The first of four bytes. After 0xF0 three bytes would do for the least second bytes, and after
0xF4 the greatest would go beyond the last character. -/
theorem Lead.of?_four {n : Nat} (hlow : 0xF0 ≤ n) (hhigh : n ≤ 0xF4) :
    Lead.of? (.ofNat n) = some ⟨if n = 0xF0 then 0x90 else 0x80, if n = 0xF4 then 0x8F else 0xBF, 2,
      n - 0xF0⟩ := by
  have hn : (UInt8.ofNat n).toNat = n := toNat_byte (by omega)
  simp only [Lead.of?, UInt8.le_iff_toNat_le, ← UInt8.toNat_inj, hn, beq_iff_eq]
  simp
  grind

theorem tails_cons {bits : Nat} (h : bits < 64) (acc n : Nat) (rest : List UInt8) :
    tails acc (n + 1) (.ofNat (bits + 0x80) :: rest) = tails (acc * 64 + bits) n rest := by
  have hbyte : (UInt8.ofNat (bits + 0x80)).toNat = bits + 0x80 := toNat_byte (by omega)
  have htail : (0x80 ≤ UInt8.ofNat (bits + 0x80) && UInt8.ofNat (bits + 0x80) ≤ 0xBF) = true := by
    rw [Bool.and_eq_true, decide_eq_true_eq, decide_eq_true_eq, UInt8.le_iff_toNat_le,
      UInt8.le_iff_toNat_le, hbyte]
    exact ⟨Nat.le_add_left _ _, Nat.add_le_add_right (Nat.le_of_lt_succ h) _⟩
  rw [tails, if_pos htail, hbyte, Nat.add_sub_cancel]

/-- A first byte adds its bits to those of a second byte that it allows. -/
theorem next_lead {n bits : Nat} {lead : Lead} (hn : 0x80 ≤ n) (hbyte : n < 256)
    (hlead : Lead.of? (.ofNat n) = some lead) (hbits : bits < 64)
    (hlow : lead.low.toNat ≤ bits + 0x80) (hhigh : bits + 0x80 ≤ lead.high.toNat)
    (rest : List UInt8) :
    next (.ofNat n) (.ofNat (bits + 0x80) :: rest) =
      tails (lead.bits * 64 + bits) lead.more rest := by
  have hfirst : ¬ UInt8.ofNat n < 0x80 := by
    rw [UInt8.lt_iff_toNat_lt, toNat_byte hbyte]
    exact Nat.not_lt.mpr hn
  have hsecond : (UInt8.ofNat (bits + 0x80)).toNat = bits + 0x80 := toNat_byte (by omega)
  simp only [next, hfirst, if_false, hlead, UInt8.le_iff_toNat_le, hsecond, hlow, hhigh]
  simp

/-! ## Characters -/

variable {v : Nat}

theorem next_one (h : v ≤ 0x7F) (rest : List UInt8) :
    next (.ofNat v) rest = (Char.ofNat v, rest) := by
  have hbyte : (UInt8.ofNat v).toNat = v := toNat_byte (by omega)
  have hone : UInt8.ofNat v < 0x80 := by
    rw [UInt8.lt_iff_toNat_lt, hbyte]
    exact Nat.lt_succ_of_le h
  simp only [next, hone, if_true, hbyte]

theorem next_two (hlow : 0x7F < v) (hhigh : v ≤ 0x7FF) (rest : List UInt8) :
    next (.ofNat (v / 64 % 32 + 0xC0)) (.ofNat (v % 64 + 0x80) :: rest) = (Char.ofNat v, rest) := by
  have hlead := Lead.of?_two (n := v / 64 % 32 + 0xC0) (by omega) (by omega)
  have hvalue : (v / 64 % 32 + 0xC0 - 0xC0) * 64 + v % 64 = v := by omega
  rw [next_lead (by omega) (by omega) hlead (by omega)]
  · dsimp only
    rw [hvalue, tails]
  · exact show 0x80 ≤ _ by omega
  · exact show _ ≤ 0xBF by omega

theorem next_three (hlow : 0x7FF < v) (hhigh : v ≤ 0xFFFF) (hvalid : v < 0xD800 ∨ 0xDFFF < v)
    (rest : List UInt8) :
    next (.ofNat (v / 4096 % 16 + 0xE0))
      (.ofNat (v / 64 % 64 + 0x80) :: .ofNat (v % 64 + 0x80) :: rest) = (Char.ofNat v, rest) := by
  have hlead := Lead.of?_three (n := v / 4096 % 16 + 0xE0) (by omega) (by omega)
  have hvalue : ((v / 4096 % 16 + 0xE0 - 0xE0) * 64 + v / 64 % 64) * 64 + v % 64 = v := by omega
  rw [next_lead (by omega) (by omega) hlead (by omega)]
  · dsimp only
    rw [tails_cons (by omega), hvalue, tails]
  · dsimp only
    split
    · exact show 0xA0 ≤ _ by omega
    · exact show 0x80 ≤ _ by omega
  · dsimp only
    split
    · exact show _ ≤ 0x9F by omega
    · exact show _ ≤ 0xBF by omega

theorem next_four (hlow : 0xFFFF < v) (hhigh : v < 0x110000) (rest : List UInt8) :
    next (.ofNat (v / 262144 % 8 + 0xF0)) (.ofNat (v / 4096 % 64 + 0x80) ::
      .ofNat (v / 64 % 64 + 0x80) :: .ofNat (v % 64 + 0x80) :: rest) = (Char.ofNat v, rest) := by
  have hlead := Lead.of?_four (n := v / 262144 % 8 + 0xF0) (by omega) (by omega)
  have hvalue : (((v / 262144 % 8 + 0xF0 - 0xF0) * 64 + v / 4096 % 64) * 64 + v / 64 % 64) * 64 +
      v % 64 = v := by omega
  rw [next_lead (by omega) (by omega) hlead (by omega)]
  · dsimp only
    rw [tails_cons (by omega), tails_cons (by omega), hvalue, tails]
  · dsimp only
    split
    · exact show 0x90 ≤ _ by omega
    · exact show 0x80 ≤ _ by omega
  · dsimp only
    split
    · exact show _ ≤ 0x8F by omega
    · exact show _ ≤ 0xBF by omega

/-- A character is read back from its bytes, and what follows them is read as it would be alone. -/
theorem decode_character (c : Char) (rest : List UInt8) :
    decode (String.utf8EncodeChar c ++ rest) = c :: decode rest := by
  have hchar : Char.ofNat c.val.toNat = c := Char.ofNat_toNat c
  have hvalid : c.val.toNat < 0xD800 ∨ 0xDFFF < c.val.toNat ∧ c.val.toNat < 0x110000 := c.valid
  unfold String.utf8EncodeChar
  generalize c.val.toNat = v at hchar hvalid
  subst hchar
  dsimp only
  split
  · rw [List.singleton_append, decode, next_one (by omega)]
  · split
    · rw [List.cons_append, List.singleton_append, decode, next_two (by omega) (by omega)]
    · split
      · rw [List.cons_append, List.cons_append, List.singleton_append, decode,
          next_three (by omega) (by omega) (by omega)]
      · rw [List.cons_append, List.cons_append, List.cons_append, List.singleton_append, decode,
          next_four (by omega) (by omega)]

/-! ## Texts -/

theorem decode_flatMap (l : List Char) : decode (l.flatMap String.utf8EncodeChar) = l := by
  induction l with
  | nil => exact decode_nil
  | cons c l ih => rw [List.flatMap_cons, decode_character, ih]

/-- A text is read back from its bytes. -/
theorem decodeString_bytes (text : String) : decodeString text.toUTF8.data.toList = text := by
  have hbytes : text.toUTF8.data.toList = text.toList.flatMap String.utf8EncodeChar := by
    rw [String.toUTF8, ← String.utf8Encode_toList, List.utf8Encode, List.data_toByteArray]
  rw [decodeString, hbytes, decode_flatMap, String.ofList_toList]

/-- These are the bytes of a text. -/
def IsText (bytes : List UInt8) : Prop := ∃ text : String, bytes = text.toUTF8.data.toList

theorem decodeString_inj {bytes bytes' : List UInt8} (h : IsText bytes) (h' : IsText bytes') :
    decodeString bytes = decodeString bytes' ↔ bytes = bytes' := by
  obtain ⟨text, rfl⟩ := h
  obtain ⟨text', rfl⟩ := h'
  rw [decodeString_bytes, decodeString_bytes]
  refine ⟨fun heq => by rw [heq], fun heq => ?_⟩
  rw [← decodeString_bytes text, heq, decodeString_bytes]

end ContainerHost.Text.Utf8
