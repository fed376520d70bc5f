import ContainerHost.Json.Printer
import ContainerHost.Json.Reader
import Mathlib.Data.Nat.Basic
/-!
# Reading JSON back

What is written as JSON is read back as it was: strings character by character, whatever they hold
(`readString_escape`), integers digit by digit (`readNumeral_print`), and values as a whole, with
anything behind them that cannot go on with a numeral (`readDocument_print`). A value whose numbers
are integers of at most sixty-four bits is `Legible`; its text is read as the document that says
this value and nothing else (`read?_text`).
-/

namespace ContainerHost.Json

/-! ## Strings -/

/-- The piece stands for the character, whatever pieces come behind it. -/
def Piece.Spells (p : Piece) (c : Char) : Prop :=
  ∀ ps, joinPieces (p :: ps) = (joinPieces ps).map (c :: ·)

theorem spells_char (c : Char) : (Piece.char c).Spells c := fun ps => by rw [joinPieces]

/-- A unit below the pairs is a character of its own. -/
theorem spells_unit {n : Nat} (h : n < 0x20) :
    (Piece.unit (UInt16.ofNat n)).Spells (Char.ofNat n) := by
  intro ps
  have hvalue : (UInt16.ofNat n).toNat = n := by
    rw [UInt16.toNat_ofNat']
    omega
  have hhigh : Text.Utf16.isHigh (UInt16.ofNat n) = false := by
    simp only [Text.Utf16.isHigh, Bool.and_eq_false_iff, decide_eq_false_iff_not,
      UInt16.le_iff_toNat_le, hvalue]
    exact .inl (by simp; omega)
  have hlow : Text.Utf16.isLow (UInt16.ofNat n) = false := by
    simp only [Text.Utf16.isLow, Bool.and_eq_false_iff, decide_eq_false_iff_not,
      UInt16.le_iff_toNat_le, hvalue]
    exact .inl (by simp; omega)
  rw [joinPieces.eq_def]
  simp [hhigh, hlow, hvalue]

/-- The four digits of a control character are read as its number. -/
theorem number?_padded : ∀ n < 0x20,
    ∃ a b c d, Text.Hex.padded 4 n = [a, b, c, d] ∧ Text.Hex.number? [a, b, c, d] = some n := by
  intro n hn
  refine ⟨_, _, _, _, rfl, ?_⟩
  revert n
  decide

theorem readPieces_plain {c : Char} (hquote : c ≠ '"') (hslash : c ≠ '\\')
    (hcontrol : ¬ c.toNat < 0x20) (rest : List Char) :
    readPieces (c :: rest) = (readPieces rest).map fun r => (.char c :: r.1, r.2) := by
  rw [readPieces.eq_def]
  split
  case h_5 =>
    rename_i heq
    obtain ⟨rfl, rfl⟩ := List.cons.inj heq
    rw [if_neg hcontrol]
    cases readPieces rest <;> rfl
  all_goals simp_all

theorem readPieces_escape (c : Char) : ∃ p : Piece, p.Spells c ∧ ∀ rest,
    readPieces (escape c ++ rest) = (readPieces rest).map fun r => (p :: r.1, r.2) := by
  unfold escape
  split
  iterate 7
    refine ⟨.char _, spells_char _, fun rest => ?_⟩
    cases h : readPieces rest <;> simp [readPieces, shortEscape?, h]
  rename_i hquote hslash _ _ _ _ _
  split
  · rename_i hcontrol
    obtain ⟨a, b, d, e, hpadded, hnumber⟩ := number?_padded c.toNat hcontrol
    have hspells := spells_unit hcontrol
    rw [Char.ofNat_toNat] at hspells
    refine ⟨.unit (UInt16.ofNat c.toNat), hspells, fun rest => ?_⟩
    rw [hpadded]
    cases h : readPieces rest <;> simp [readPieces, hnumber, h]
  · rename_i hcontrol
    exact ⟨.char c, spells_char c, readPieces_plain hquote hslash hcontrol⟩

theorem readPieces_flatMap_escape (cs rest : List Char) :
    ∃ ps, readPieces (cs.flatMap escape ++ '"' :: rest) = some (ps, rest) ∧
      joinPieces ps = some cs := by
  induction cs with
  | nil => exact ⟨[], by simp [readPieces], rfl⟩
  | cons c cs ih =>
    obtain ⟨ps, hread, hjoin⟩ := ih
    obtain ⟨p, hspells, hpiece⟩ := readPieces_escape c
    refine ⟨p :: ps, ?_, ?_⟩
    · rw [List.flatMap_cons, List.append_assoc, hpiece, hread]
      rfl
    · rw [hspells, hjoin]
      rfl

/-- A string is read back, whatever it holds. -/
theorem readString_escape (s : String) (rest : List Char) :
    readString (s.toList.flatMap escape ++ '"' :: rest) = some (some s, rest) := by
  obtain ⟨ps, hread, hjoin⟩ := readPieces_flatMap_escape s.toList rest
  simp [readString, hread, hjoin]

/-! ## Numerals -/

/-- The text does not go on with a numeral that stands before it. -/
def Stops (rest : List Char) : Prop :=
  ∀ c ∈ rest.head?, c.isDigit = false ∧ c ≠ '.' ∧ c ≠ 'e' ∧ c ≠ 'E'

theorem stops_nil : Stops [] := fun _ hc => absurd hc (by simp)

theorem stops_cons {c : Char} {rest : List Char} (h : c = ',' ∨ c = ']' ∨ c = '\x7d') :
    Stops (c :: rest) := by
  intro d hd
  obtain rfl : c = d := by simpa using hd
  rcases h with rfl | rfl | rfl <;> decide

def digitValues (n : Nat) : List Nat := (Decimal.digitsOf n).map fun c => c.toNat - 0x30

theorem digitsValue_digitValues (n : Nat) : digitsValue (digitValues n) = n := by
  have hstep : (fun (k : Nat) (c : Char) => k * 10 + (c.toNat - 0x30)) =
      fun k c => 10 * k + (c.toNat - '0'.toNat) := by
    funext k c
    rw [Nat.mul_comm]
    rfl
  calc digitsValue (digitValues n) = Nat.ofDigitChars 10 (Nat.toDigits 10 n) 0 := by
        rw [digitsValue, digitValues, List.foldl_map, Nat.ofDigitChars_eq_foldl, hstep]
        rfl
    _ = n := Nat.ofDigitChars_ten_toDigits

theorem isDigit_of_mem_digitsOf {n : Nat} {c : Char} (h : c ∈ Decimal.digitsOf n) :
    c.isDigit = true := Nat.isDigit_of_mem_toDigits (by decide) (by decide) h

theorem isDigit_ne {c d : Char} (h : c.isDigit = true) (hd : d.isDigit = false) : c ≠ d := by
  rintro rfl
  exact absurd (h.symm.trans hd) (by decide)

/-- A number is written with a digit in front, which is zero for zero alone. -/
theorem digitsOf_eq_cons (n : Nat) :
    ∃ c l, Decimal.digitsOf n = c :: l ∧ c.isDigit = true ∧ (0 < n → c ≠ '0') := by
  have hchar : ∀ d < 10, 0 < d → Nat.digitChar d ≠ '0' := by decide
  induction n using Nat.strongRecOn with
  | ind n ih =>
    by_cases hsmall : n < 10
    · have hdigits : Decimal.digitsOf n = [Nat.digitChar n] := Nat.toDigits_of_lt_base hsmall
      have hdigit := isDigit_of_mem_digitsOf (hdigits ▸ List.mem_singleton_self _)
      exact ⟨_, [], hdigits, hdigit, hchar n hsmall⟩
    · have hdigits : Decimal.digitsOf n =
          Decimal.digitsOf (n / 10) ++ [Nat.digitChar (n % 10)] :=
        Nat.toDigits_of_base_le (by decide) (by omega)
      obtain ⟨c, l, hfront, hdigit, hne⟩ := ih (n / 10) (by omega)
      rw [hfront] at hdigits
      exact ⟨c, _, hdigits, hdigit, fun _ => hne (by omega)⟩

theorem takeDigits_append {n : Nat} {rest : List Char} (h : Stops rest) :
    takeDigits (Decimal.digitsOf n ++ rest) = (digitValues n, rest) := by
  have hall : ∀ c ∈ Decimal.digitsOf n, c.isDigit = true := fun _ => isDigit_of_mem_digitsOf
  have hrest : rest.takeWhile Char.isDigit = [] ∧ rest.dropWhile Char.isDigit = rest := by
    cases rest with
    | nil => exact ⟨rfl, rfl⟩
    | cons c rest =>
      have hc := (h c rfl).1
      simp [hc]
  rw [takeDigits, List.takeWhile_append_of_pos hall, List.dropWhile_append_of_pos hall, hrest.1,
    hrest.2, List.append_nil]
  rfl

theorem readFraction_of_stops {rest : List Char} (h : Stops rest) :
    readFraction rest = some (none, rest) := by
  cases rest with
  | nil => rfl
  | cons c rest =>
    have hc := (h c rfl).2.1
    unfold readFraction
    split
    · rename_i heq
      exact absurd (List.cons.inj heq).1 hc
    · rfl

theorem readExponent_of_stops {rest : List Char} (h : Stops rest) :
    readExponent rest = some (none, rest) := by
  cases rest with
  | nil => rfl
  | cons c rest =>
    obtain ⟨-, -, hlower, hupper⟩ := h c rfl
    simp [readExponent, hlower, hupper]

theorem readUnsigned_digitsOf (negative : Bool) (n : Nat) {rest : List Char} (h : Stops rest) :
    readUnsigned negative (Decimal.digitsOf n ++ rest) =
      some (⟨negative, digitValues n, none, none⟩, rest) := by
  rcases Nat.eq_zero_or_pos n with rfl | hpos
  · have hzero : Decimal.digitsOf 0 ++ rest = '0' :: rest := rfl
    simp [readUnsigned, hzero, readFraction_of_stops h, readExponent_of_stops h]
    rfl
  · obtain ⟨c, l, hdigits, -, hzero⟩ := digitsOf_eq_cons n
    have htake := takeDigits_append h (n := n)
    have hne : digitValues n ≠ [] := by simp [digitValues, hdigits]
    rw [hdigits, List.cons_append] at htake ⊢
    unfold readUnsigned
    split
    · rename_i heq
      exact absurd (List.cons.inj heq).1 (hzero hpos)
    · simp [htake, hne, readFraction_of_stops h, readExponent_of_stops h]

def numeralOf (i : Int) : Numeral := ⟨decide (i < 0), digitValues i.natAbs, none, none⟩

theorem number?_numeralOf {i : Int} (h : Number.isWide i = true) :
    (numeralOf i).number? = some (.int i) := by
  have hsigned : (if decide (i < 0) = true then -(i.natAbs : Int) else i.natAbs) = i := by
    split
    · rename_i hneg
      have hneg := of_decide_eq_true hneg
      omega
    · rename_i hneg
      have hneg : ¬ i < 0 := fun hneg' => hneg (decide_eq_true hneg')
      omega
  have hzero : (decide (i < 0) && i.natAbs == 0) = false := by
    rw [Bool.and_eq_false_iff, decide_eq_false_iff_not, beq_eq_false_iff_ne]
    omega
  unfold Numeral.number? numeralOf
  rw [digitsValue_digitValues]
  dsimp only
  rw [hsigned, h, hzero]
  rfl

/-- What is written for an integer begins with a minus or a digit. -/
theorem printInt_eq_cons (i : Int) :
    ∃ c l, printInt i = c :: l ∧ (c = '-' ↔ i < 0) ∧ (c = '-' ∨ c.isDigit = true) := by
  obtain ⟨c, l, hdigits, hdigit, -⟩ := digitsOf_eq_cons i.natAbs
  unfold printInt
  by_cases hneg : i < 0
  · exact ⟨'-', _, if_pos hneg, by simp [hneg], .inl rfl⟩
  · refine ⟨c, l, (if_neg hneg).trans hdigits, ?_, .inr hdigit⟩
    simp [hneg, isDigit_ne hdigit (d := '-') rfl]

theorem numeral_ne {c d : Char} (h : c = '-' ∨ c.isDigit = true) (hminus : d ≠ '-')
    (hd : d.isDigit = false) : c ≠ d := by
  rcases h with rfl | hdigit
  · exact hminus.symm
  · exact isDigit_ne hdigit hd

theorem isSpace_of_numeral {c : Char} (h : c = '-' ∨ c.isDigit = true) : isSpace c = false := by
  have hne {d : Char} (hminus : d ≠ '-') (hd : d.isDigit = false) : c ≠ d :=
    numeral_ne h hminus hd
  simp [isSpace, hne (d := ' ') (by decide) rfl, hne (d := '\n') (by decide) rfl,
    hne (d := '\t') (by decide) rfl, hne (d := '\r') (by decide) rfl]

theorem readNumeral_print (i : Int) {rest : List Char} (h : Stops rest) :
    readNumeral (printInt i ++ rest) = some (numeralOf i, rest) := by
  by_cases hneg : i < 0
  · have hprint : printInt i = '-' :: Decimal.digitsOf i.natAbs := if_pos hneg
    rw [hprint, numeralOf, decide_eq_true hneg]
    exact readUnsigned_digitsOf true i.natAbs h
  · have hprint : printInt i = Decimal.digitsOf i.natAbs := if_neg hneg
    obtain ⟨c, l, hcons, hminus, -⟩ := printInt_eq_cons i
    rw [numeralOf, decide_eq_false hneg, ← readUnsigned_digitsOf false i.natAbs h, ← hprint, hcons,
      List.cons_append]
    unfold readNumeral
    split
    · rename_i heq
      exact absurd (hminus.mp (List.cons.inj heq).1) hneg
    · rfl

/-! ## Values -/

namespace Value

/-- Every number of the value is an integer that counts as one when it is read. -/
inductive Legible : Value → Prop where
  | null : Legible .null
  | bool (b : Bool) : Legible (.bool b)
  | int {i : Int} (wide : Number.isWide i = true) : Legible (.number (.int i))
  | str (s : String) : Legible (.str s)
  | arr {items : List Value} (legible : ∀ v ∈ items, Legible v) : Legible (.arr items)
  | obj {members : List (String × Value)} (legible : ∀ m ∈ members, Legible m.2) :
    Legible (.obj members)

/-- What is written begins with a character that is neither a blank nor a closing bracket. -/
theorem print_eq_cons {v : Value} (h : v.Legible) :
    ∃ c l, v.print = c :: l ∧ isSpace c = false ∧ c ≠ ']' := by
  cases h with
  | null => exact ⟨_, _, rfl, by decide, by decide⟩
  | bool b => cases b <;> exact ⟨_, _, rfl, by decide, by decide⟩
  | @int i wide =>
    obtain ⟨c, l, hcons, -, hc⟩ := printInt_eq_cons i
    exact ⟨c, l, hcons, isSpace_of_numeral hc, numeral_ne hc (by decide) rfl⟩
  | str s => exact ⟨_, _, rfl, by decide, by decide⟩
  | arr legible => exact ⟨_, _, rfl, by decide, by decide⟩
  | obj legible => exact ⟨_, _, rfl, by decide, by decide⟩

end Value

theorem skipSpace_cons {c : Char} (h : isSpace c = false) (rest : List Char) :
    skipSpace (c :: rest) = c :: rest := by
  simp [skipSpace, h]

/-- With the fuel, all that is legible and no longer than the fuel is read back. -/
structure Reads (fuel : Nat) : Prop where
  document : ∀ v rest, v.Legible → Stops rest → v.print.length ≤ fuel →
    readDocument fuel (v.print ++ rest) = some (Document.ofValue v, rest)
  items : ∀ vs rest, vs ≠ [] → (∀ v ∈ vs, v.Legible) → (printItems vs).length ≤ fuel →
    readItems fuel (printItems vs ++ rest) = some (Document.ofValues vs, rest)
  members : ∀ ms rest, ms ≠ [] → (∀ m ∈ ms, m.2.Legible) → (printMembers ms).length ≤ fuel →
    readMembers fuel (printMembers ms ++ rest) = some (Document.ofMembers ms, rest)

theorem readDocument_int {fuel : Nat} {i : Int} {rest : List Char}
    (hwide : Number.isWide i = true) (hrest : Stops rest) :
    readDocument (fuel + 1) (printInt i ++ rest) = some (.number (some (.int i)), rest) := by
  have hread := readNumeral_print i hrest
  obtain ⟨c, l, hcons, -, hc⟩ := printInt_eq_cons i
  rw [hcons, List.cons_append] at hread ⊢
  unfold readDocument
  rw [skipSpace_cons (isSpace_of_numeral hc)]
  split
  case h_1 heq => cases heq
  case h_8 =>
    rw [hread, Option.map_some]
    dsimp only
    rw [number?_numeralOf hwide]
  all_goals
    rename_i heq
    exact absurd (List.cons.inj heq).1 (numeral_ne hc (by decide) rfl)

theorem printItems_eq_cons {v : Value} (h : v.Legible) (vs : List Value) :
    ∃ c l, printItems (v :: vs) = c :: l ∧ isSpace c = false ∧ c ≠ ']' := by
  obtain ⟨c, l, hcons, hspace, hne⟩ := Value.print_eq_cons h
  cases vs with
  | nil => exact ⟨c, l ++ [']'], by rw [printItems, hcons]; rfl, hspace, hne⟩
  | cons w vs => exact ⟨c, _, by rw [printItems, hcons]; rfl, hspace, hne⟩

theorem readDocument_arr {fuel : Nat} {items : List Value} {rest : List Char} (ih : Reads fuel)
    (h : ∀ v ∈ items, v.Legible) (hfuel : (printItems items).length ≤ fuel) :
    readDocument (fuel + 1) ('[' :: printItems items ++ rest) =
      some (.arr (Document.ofValues items), rest) := by
  cases items with
  | nil => rfl
  | cons v vs =>
    have hread := ih.items (v :: vs) rest (List.cons_ne_nil v vs) h hfuel
    obtain ⟨c, l, hcons, hspace, hne⟩ := printItems_eq_cons (h v List.mem_cons_self) vs
    have hskip : skipSpace (printItems (v :: vs) ++ rest) = printItems (v :: vs) ++ rest := by
      rw [hcons]
      exact skipSpace_cons hspace _
    simp only [List.cons_append, readDocument, skipSpace_cons (c := '[') rfl, hskip]
    split
    · rename_i heq
      rw [hcons] at heq
      exact absurd (List.cons.inj heq).1 hne
    · rw [hread]
      rfl

theorem printMembers_eq_cons (m : String × Value) (ms : List (String × Value)) :
    ∃ l, printMembers (m :: ms) = '"' :: l := by
  cases ms with
  | nil => exact ⟨_, rfl⟩
  | cons n ms => exact ⟨_, rfl⟩

theorem readDocument_obj {fuel : Nat} {members : List (String × Value)} {rest : List Char}
    (ih : Reads fuel) (h : ∀ m ∈ members, m.2.Legible)
    (hfuel : (printMembers members).length ≤ fuel) :
    readDocument (fuel + 1) ('\x7b' :: printMembers members ++ rest) =
      some (.obj (Document.ofMembers members), rest) := by
  cases members with
  | nil => rfl
  | cons m ms =>
    have hread := ih.members (m :: ms) rest (List.cons_ne_nil m ms) h hfuel
    obtain ⟨l, hcons⟩ := printMembers_eq_cons m ms
    rw [hcons] at hread ⊢
    simp only [List.cons_append, readDocument, skipSpace_cons (c := '\x7b') rfl,
      skipSpace_cons (c := '"') rfl]
    change Option.map _ (readMembers fuel ('"' :: l ++ rest)) = _
    rw [hread]
    rfl

theorem readItems_succ {fuel : Nat} {vs : List Value} {rest : List Char} (ih : Reads fuel)
    (hne : vs ≠ []) (h : ∀ v ∈ vs, v.Legible) (hfuel : (printItems vs).length ≤ fuel + 1) :
    readItems (fuel + 1) (printItems vs ++ rest) = some (Document.ofValues vs, rest) := by
  match vs with
  | [v] =>
    have hlength : v.print.length ≤ fuel := by
      simp only [printItems, List.length_append, List.length_singleton] at hfuel
      omega
    have hread := ih.document v (']' :: rest) (h v List.mem_cons_self) (stops_cons (by decide))
      hlength
    simp [printItems, readItems, hread, skipSpace, isSpace, Document.ofValues]
  | v :: w :: vs =>
    simp only [printItems, List.length_append, List.length_cons] at hfuel
    have hrest := ih.items (w :: vs) rest (by simp) (fun u hu => h u (List.mem_cons_of_mem _ hu))
      (by omega)
    have hread := ih.document v (',' :: (printItems (w :: vs) ++ rest)) (h v List.mem_cons_self)
      (stops_cons (by decide)) (by omega)
    simp [printItems, readItems, hread, hrest, skipSpace, isSpace, Document.ofValues]

theorem readMembers_succ {fuel : Nat} {ms : List (String × Value)} {rest : List Char}
    (ih : Reads fuel) (hne : ms ≠ []) (h : ∀ m ∈ ms, m.2.Legible)
    (hfuel : (printMembers ms).length ≤ fuel + 1) :
    readMembers (fuel + 1) (printMembers ms ++ rest) = some (Document.ofMembers ms, rest) := by
  match ms with
  | [(k, v)] =>
    simp only [printMembers, List.length_append, List.length_cons] at hfuel
    have hkey := readString_escape k (':' :: (v.print ++ '\x7d' :: rest))
    have hread := ih.document v ('\x7d' :: rest) (h _ List.mem_cons_self) (stops_cons (by decide))
      (by omega)
    simp [printMembers, printString, readMembers, hkey, hread, skipSpace, isSpace,
      Document.ofMembers]
  | (k, v) :: m :: ms =>
    simp only [printMembers, List.length_append, List.length_cons] at hfuel
    have hkey := readString_escape k (':' :: (v.print ++ ',' :: (printMembers (m :: ms) ++ rest)))
    have hread := ih.document v (',' :: (printMembers (m :: ms) ++ rest)) (h _ List.mem_cons_self)
      (stops_cons (by decide)) (by omega)
    have hrest := ih.members (m :: ms) rest (by simp) (fun u hu => h u (List.mem_cons_of_mem _ hu))
      (by omega)
    simp [printMembers, printString, readMembers, hkey, hread, hrest, skipSpace, isSpace,
      Document.ofMembers]

/-- The fuel that reading starts with is the length of the text and more, so that it never runs
out. -/
theorem reads (fuel : Nat) : Reads fuel := by
  induction fuel with
  | zero =>
    -- every text is longer than that
    constructor
    · intro v rest hv hrest hfuel
      obtain ⟨c, l, hcons, -, -⟩ := Value.print_eq_cons hv
      simp [hcons] at hfuel
    · intro vs rest hne hvs hfuel
      cases vs with
      | nil => exact absurd rfl hne
      | cons v vs =>
        obtain ⟨c, l, hcons, -, -⟩ := printItems_eq_cons (hvs v List.mem_cons_self) vs
        simp [hcons] at hfuel
    · intro ms rest hne hms hfuel
      cases ms with
      | nil => exact absurd rfl hne
      | cons m ms =>
        obtain ⟨l, hcons⟩ := printMembers_eq_cons m ms
        simp [hcons] at hfuel
  | succ fuel ih =>
    constructor
    · intro v rest hv hrest hfuel
      cases hv with
      | null => rfl
      | bool b => cases b <;> rfl
      | int wide => exact readDocument_int wide hrest
      | str s =>
        have hread := readString_escape s rest
        simp [Value.print, printString, readDocument, skipSpace, isSpace, hread, Document.ofValue]
      | arr legible =>
        exact readDocument_arr ih legible (Nat.le_of_succ_le_succ hfuel)
      | obj legible =>
        exact readDocument_obj ih legible (Nat.le_of_succ_le_succ hfuel)
    · intro vs rest hne hvs hfuel
      exact readItems_succ ih hne hvs hfuel
    · intro ms rest hne hms hfuel
      exact readMembers_succ ih hne hms hfuel

theorem read?_text {v : Value} (h : v.Legible) :
    Document.read? v.text = some (Document.ofValue v) := by
  have hread := (reads (2 * v.print.length + 2)).document v [] h stops_nil (by omega)
  rw [List.append_nil] at hread
  unfold Document.read? Value.text
  rw [String.toList_ofList]
  simp [hread, skipSpace]

end ContainerHost.Json
