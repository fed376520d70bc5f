/-!
# Text from bytes

Reading bytes as UTF-8 without ever failing: each longest run of bytes that begins a character but
does not finish one is read as U+FFFD, and so is each byte that begins none. `decode_ascii` says
that bytes below 0x80 stand for themselves.
-/

namespace ContainerHost.Text.Utf8

/-- The character that stands for bytes which are no text. -/
def replacement : Char := '\ufffd'

/-- What a leading byte announces: the range of the byte after it, how many further tail bytes
follow that one, and the bits the leading byte itself contributes. -/
structure Lead where
  low : UInt8
  high : UInt8
  more : Nat
  bits : Nat

/-- The announcement of a byte above 0x7F, if it may begin a character. -/
def Lead.of? (b : UInt8) : Option Lead :=
  if 0xC2 ≤ b && b ≤ 0xDF then some ⟨0x80, 0xBF, 0, b.toNat - 0xC0⟩
  else if b == 0xE0 then some ⟨0xA0, 0xBF, 1, 0⟩
  else if b == 0xED then some ⟨0x80, 0x9F, 1, 0xD⟩
  else if 0xE1 ≤ b && b ≤ 0xEF then some ⟨0x80, 0xBF, 1, b.toNat - 0xE0⟩
  else if b == 0xF0 then some ⟨0x90, 0xBF, 2, 0⟩
  else if 0xF1 ≤ b && b ≤ 0xF3 then some ⟨0x80, 0xBF, 2, b.toNat - 0xF0⟩
  else if b == 0xF4 then some ⟨0x80, 0x8F, 2, 4⟩
  else none

/-- Reads `n` tail bytes after the bits `acc`, stopping in front of the first byte that is none. -/
def tails (acc : Nat) : Nat → List UInt8 → Char × List UInt8
  | 0, rest => (Char.ofNat acc, rest)
  | _ + 1, [] => (replacement, [])
  | n + 1, b :: rest =>
    if 0x80 ≤ b && b ≤ 0xBF then tails (acc * 64 + (b.toNat - 0x80)) n rest
    else (replacement, b :: rest)

/-- Reads one character from a byte and what follows it. -/
def next (b : UInt8) (rest : List UInt8) : Char × List UInt8 :=
  if b < 0x80 then (Char.ofNat b.toNat, rest)
  else match Lead.of? b, rest with
    | some lead, c :: rest' =>
      if lead.low ≤ c && c ≤ lead.high then
        tails (lead.bits * 64 + (c.toNat - 0x80)) lead.more rest'
      else (replacement, rest)
    | _, _ => (replacement, rest)

theorem tails_length_le (acc n : Nat) (l : List UInt8) : (tails acc n l).2.length ≤ l.length := by
  induction n generalizing acc l with
  | zero => simp [tails]
  | succ n ih =>
    cases l with
    | nil => simp [tails]
    | cons b rest =>
      simp only [tails]
      split
      · exact Nat.le_succ_of_le (ih _ _)
      · simp

theorem next_length_le (b : UInt8) (l : List UInt8) : (next b l).2.length ≤ l.length := by
  unfold next
  split
  · simp
  · split
    · split
      · exact Nat.le_succ_of_le (tails_length_le _ _ _)
      · simp
    · simp

/-- The characters a list of bytes stands for. -/
def decode : List UInt8 → List Char
  | [] => []
  | b :: rest => (next b rest).1 :: decode (next b rest).2
termination_by l => l.length
decreasing_by
  have := next_length_le b rest
  simp only [List.length_cons]
  omega

def decodeString (bytes : List UInt8) : String := String.ofList (decode bytes)

theorem decode_nil : decode [] = [] := by rw [decode]

/-- Bytes below 0x80 stand for themselves. -/
theorem decode_ascii (l : List UInt8) (h : ∀ b ∈ l, b < 0x80) :
    decode l = l.map fun b => Char.ofNat b.toNat := by
  induction l with
  | nil => exact decode_nil
  | cons b rest ih =>
    have hb : b < 0x80 := h b (by simp)
    rw [decode]
    simp only [next, hb, if_true, List.map_cons]
    rw [ih fun c hc => h c (by simp [hc])]

end ContainerHost.Text.Utf8
