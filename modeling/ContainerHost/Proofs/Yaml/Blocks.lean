import ContainerHost.Proofs.Yaml.Lines
/-!
# Reading blocks

A reader of documents in blocks. It goes by columns, keys, marks and empty collections, and leaves
scalars to a reader of their own, of which nothing is known but what is granted for some texts
(`ScalarReader.Reads`): the scalar that is written for such a text is read as that text, up to its
end, as a key and as the last thing of a line.

What is proved: a document whose scalars are granted is read back from its print (`read_print`). The
lines of its parts are read one by one, each with whatever may stand behind them (`Behind`).

Correspondence: `Block.read` ↔ what a YAML reader makes of block mappings, block sequences, explicit
keys, `[]` and `{}`.
-/

namespace ContainerHost.Yaml

/-- Takes the scalar that a text begins with, whose further lines begin at a column; returns what is
left of the text. -/
abbrev ScalarReader := Nat → List Char → Option (String × List Char)

/-- A text goes on with a line that begins before a column, or with nothing. -/
def Below (n : Nat) (cs : List Char) : Prop :=
  cs = [] ∨ ∃ m c rest, cs = List.replicate m ' ' ++ c :: rest ∧ m < n ∧ isGap c = false

/-- What is granted for a text: it is read back from its scalar, on lines of its own or as a key. -/
structure ScalarReader.Reads (scan : ScalarReader) (s : String) : Prop where
  line : ∀ n rest, Below n rest →
    scan n (scalarLine n s ++ rest) = some (s, lineEnd (written n s) ++ rest)
  key : isSimpleKey s = true → ∀ n rest, atGapOrEnd rest = true →
    scan n (written n s ++ ':' :: rest) = some (s, ':' :: rest)

namespace Block

/-! ## The reader -/

/-- The line that a text begins with, if it begins at a column. -/
def lineAt? (n : Nat) (cs : List Char) : Option (List Char) :=
  if (cs.takeWhile (· = ' ')).length = n ∧ cs.drop n ≠ [] then some (cs.drop n) else none

def mark? (m : Char) : List Char → Option (List Char)
  | c :: rest => if c = m && atGapOrEnd rest then some rest else none
  | [] => none

def pastBreak : List Char → List Char
  | '\n' :: rest => rest
  | cs => cs

/-- Takes a collection without items or entries. -/
def empty? : List Char → Option (Tree × List Char)
  | '\x7b' :: '\x7d' :: rest => some (.mapping [], pastBreak rest)
  | '[' :: ']' :: rest => some (.sequence [], pastBreak rest)
  | _ => none

def startsItem (n : Nat) (cs : List Char) : Bool := ((lineAt? n cs).bind (mark? '-')).isSome

variable (scan : ScalarReader)

/-- Takes a text and the end of its line. -/
def text? (n : Nat) (cs : List Char) : Option (Tree × List Char) :=
  (scan n cs).map fun r => (.text r.1, pastBreak r.2)

/-- An entry begins here: there is the mark of a key, or a colon behind a scalar. -/
def startsEntry (n : Nat) (cs : List Char) : Bool :=
  (mark? '?' cs).isSome || ((scan n cs).bind fun r => mark? ':' r.2).isSome

def markedKey? (n : Nat) (cs : List Char) : Option (String × List Char) := do
  let (k, cs) ← scan (n + 2) (cs.drop 1)
  let line ← lineAt? n (pastBreak cs)
  let cs ← mark? ':' line
  some (k, cs)

/-- Takes a key and its colon. -/
def key? (n : Nat) (cs : List Char) : Option (String × List Char) := do
  let (k, cs) ← scan (n + 2) cs
  let cs ← mark? ':' cs
  some (k, cs)

mutual
/-- Takes the entries at a column; `here` says that the blanks before the first were taken. -/
def entries (here : Bool) : Nat → Nat → List Char → Option (List (String × Tree) × List Char)
  | 0, _, _ => none
  | fuel + 1, n, cs =>
    match if here then some cs else lineAt? n cs with
    | none => some ([], cs)
    | some cs =>
      match mark? '?' cs with
      | some cs => do
        let (k, cs) ← markedKey? scan n cs
        let (t, cs) ← inline fuel (n + 2) cs
        let (rest, cs) ← entries false fuel n cs
        some ((k, t) :: rest, cs)
      | none => do
        let (k, cs) ← key? scan n cs
        let (t, cs) ← value fuel n cs
        let (rest, cs) ← entries false fuel n cs
        some ((k, t) :: rest, cs)
  termination_by structural fuel => fuel

/-- Takes what stands behind a key at a column. -/
def value : Nat → Nat → List Char → Option (Tree × List Char)
  | 0, _, _ => none
  | fuel + 1, n, cs =>
    match cs with
    | '\n' :: cs =>
      if startsItem n cs then (items false fuel n cs).map fun r => (.sequence r.1, r.2)
      else (entries false fuel (n + 2) cs).map fun r => (.mapping r.1, r.2)
    | ' ' :: cs => (empty? cs).or (text? scan (n + 2) cs)
    | _ => none
  termination_by structural fuel => fuel

/-- Takes what stands behind a mark, with its further lines at a column. -/
def inline : Nat → Nat → List Char → Option (Tree × List Char)
  | 0, _, _ => none
  | fuel + 1, n, cs =>
    match cs with
    | ' ' :: cs =>
      match empty? cs with
      | some r => some r
      | none =>
        if (mark? '-' cs).isSome then (items true fuel n cs).map fun r => (.sequence r.1, r.2)
        else if startsEntry scan n cs then
          (entries true fuel n cs).map fun r => (.mapping r.1, r.2)
        else text? scan n cs
    | _ => none
  termination_by structural fuel => fuel

/-- Takes the items at a column. -/
def items (here : Bool) : Nat → Nat → List Char → Option (List Tree × List Char)
  | 0, _, _ => none
  | fuel + 1, n, cs =>
    match (if here then some cs else lineAt? n cs).bind (mark? '-') with
    | none => some ([], cs)
    | some cs => do
      let (t, cs) ← inline fuel (n + 2) cs
      let (rest, cs) ← items false fuel n cs
      some (t :: rest, cs)
  termination_by structural fuel => fuel
end

def read (s : String) : Option (List (String × Tree)) :=
  match entries scan false (s.toList.length + 1) 0 s.toList with
  | some (es, []) => some es
  | _ => none

end Block

/-! ## How scalars begin -/

/-- How a scalar begins: not like a collection, not with a gap, and not with a mark. -/
structure Opens (cs : List Char) : Prop where
  filled : ∃ c rest, cs = c :: rest ∧ isGap c = false
  scalar : Block.empty? cs = none
  unmarked : ∀ m ∈ ['-', '?', ':'], Block.mark? m cs = none

theorem opens_of_head {c : Char} {w : List Char} (hgap : isGap c = false) (hmapping : c ≠ '\x7b')
    (hsequence : c ≠ '[') (hmark : c ∈ ['-', '?', ':'] → atGapOrEnd w = false) (rest : List Char) :
    Opens (c :: w ++ rest) := by
  refine ⟨⟨c, w ++ rest, rfl, hgap⟩, ?_, ?_⟩
  · unfold Block.empty?
    split
    · rename_i heq
      exact absurd (List.cons.inj heq).1 hmapping
    · rename_i heq
      exact absurd (List.cons.inj heq).1 hsequence
    · rfl
  · intro m hm
    show (if c = m && atGapOrEnd (w ++ rest) then some (w ++ rest) else none) = none
    by_cases hc : c = m
    · have hinside := hmark (hc ▸ hm)
      cases w with
      | nil => cases hinside
      | cons d w =>
        have hd : isGap d = false := hinside
        simp [atGapOrEnd, hd]
    · simp [hc]

theorem plain_of_styleOf {s : String} (h : styleOf s = .plain) :
    isAmbiguous s = false ∧ (Allowed.of s.toList).plain = true := by
  unfold styleOf at h
  dsimp only at h
  split at h
  · split at h <;> cases h
  · split at h
    · rename_i hplain
      simpa using hplain
    · split at h <;> cases h

/-- What a text that is written plain holds: it begins with no gap and no indicator, and nothing in
it ends it. -/
theorem exists_cons_of_plain {s : String} (h : styleOf s = .plain) :
    ∃ c w, s.toList = c :: w ∧ isGap c = false ∧ isFirstIndicator c = false ∧
      (c ∈ ['-', '?', ':'] → atGapOrEnd w = false) ∧ endsPlain s.toList = false := by
  obtain ⟨hclear, hplain⟩ := plain_of_styleOf h
  cases hcs : s.toList with
  | nil =>
    obtain rfl := String.toList_eq_nil_iff.mp hcs
    cases hclear.symm.trans (show isAmbiguous "" = true by decide)
  | cons c w =>
    rw [hcs] at hplain
    simp only [Allowed.of, Bool.and_eq_true, Bool.not_eq_eq_eq_not, Bool.not_true, hasIndicator,
      Bool.or_eq_false_iff, List.head?_cons, Option.any_some, List.all_cons] at hplain
    obtain ⟨⟨⟨⟨⟨⟨hblank, hbreak⟩, -⟩, -⟩, hprints, -⟩, -⟩, ⟨-, hfirst, hmark⟩, hends⟩ := hplain
    refine ⟨c, w, rfl, ?_, hfirst, ?_, hends⟩
    · have htab : c ≠ '\t' := by
        rintro rfl
        cases (Bool.and_eq_true_iff.mp hprints).1
      simp [isGap, isBlank, hbreak, htab, of_decide_eq_false hblank]
    · intro hc
      rw [List.contains_iff_mem.mpr hc, Bool.true_and] at hmark
      exact hmark

theorem opens_plain {s : String} (h : styleOf s = .plain) (rest : List Char) :
    Opens (s.toList ++ rest) := by
  obtain ⟨c, w, hcs, hgap, hfirst, hmark, -⟩ := exists_cons_of_plain h
  rw [hcs]
  refine opens_of_head hgap ?_ ?_ hmark rest
  · rintro rfl
    cases hfirst
  · rintro rfl
    cases hfirst

theorem opens_written (n : Nat) (s : String) (rest : List Char) : Opens (written n s ++ rest) := by
  unfold written
  split
  · rename_i h
    exact opens_plain h rest
  · exact opens_of_head rfl (by decide) (by decide) (fun h => absurd h (by decide)) rest
  · exact opens_of_head rfl (by decide) (by decide) (fun h => absurd h (by decide)) rest
  · exact opens_of_head rfl (by decide) (by decide) (fun h => absurd h (by decide)) rest
  · exact opens_of_head rfl (by decide) (by decide) (fun h => absurd h (by decide)) rest

/-! ## Keys that stand in one line -/

theorem indented_of_line {cs : List Char} (h : cs.any isBreak = false) (n : Nat)
    (each : Char → List Char) : indented n each false cs = cs.flatMap each := by
  induction cs with
  | nil => rfl
  | cons c cs ih =>
    rw [List.any_cons, Bool.or_eq_false_iff] at h
    rw [indented, if_neg (by simp [h.1]), ih h.2]
    rfl

theorem block_of_styleOf {s : String} (h : styleOf s = .literal ∨ styleOf s = .folded) :
    '\n' ∈ s.toList := by
  unfold styleOf at h
  dsimp only at h
  split at h
  · rename_i hfeed
    simpa using hfeed
  · split at h
    · rcases h with h | h <;> cases h
    · split at h <;> rcases h with h | h <;> cases h

/-- A key in one line is written in the same way at all columns. -/
theorem written_of_isSimpleKey {s : String} (h : isSimpleKey s = true) (n m : Nat) :
    written n s = written m s := by
  have hline : s.toList.any isBreak = false := by
    unfold isSimpleKey at h
    simpa using (Bool.and_eq_true_iff.mp h).1
  have hbreak (c : Char) (hc : c ∈ s.toList) : isBreak c = false :=
    Bool.eq_false_iff.mpr (List.any_eq_false.mp hline c hc)
  have hlast : s.toList.getLast?.any isBreak = false := by
    cases hlast : s.toList.getLast? with
    | none => rfl
    | some c => exact hbreak c (List.mem_of_getLast? hlast)
  have hfeed : '\n' ∉ s.toList := fun hmem => by cases hbreak _ hmem
  unfold written
  split
  · rfl
  · simp only [inSingleQuotes, indented_of_line hline, hlast]
    rfl
  · exact absurd (block_of_styleOf (.inl ‹_›)) hfeed
  · exact absurd (block_of_styleOf (.inr ‹_›)) hfeed
  · rfl

/-! ## Columns -/

namespace Block

theorem takeWhile_column (n : Nat) {c : Char} (hc : isGap c = false) (rest : List Char) :
    (List.replicate n ' ' ++ c :: rest).takeWhile (· = ' ') = List.replicate n ' ' := by
  have hblank : c ≠ ' ' := by
    rintro rfl
    cases hc
  rw [List.takeWhile_append_of_pos (by simp), List.takeWhile_cons_of_neg (by simpa using hblank),
    List.append_nil]

theorem lineAt?_self (n : Nat) {c : Char} (hc : isGap c = false) (rest : List Char) :
    lineAt? n (List.replicate n ' ' ++ c :: rest) = some (c :: rest) := by
  unfold lineAt?
  rw [takeWhile_column n hc, List.drop_left' List.length_replicate, if_pos (by simp)]

theorem lineAt?_of_ne {n m : Nat} (h : m ≠ n) {c : Char} (hc : isGap c = false)
    (rest : List Char) : lineAt? n (List.replicate m ' ' ++ c :: rest) = none := by
  unfold lineAt?
  rw [takeWhile_column m hc, if_neg (by simp [h])]

theorem lineAt?_of_below {n m : Nat} {cs : List Char} (h : Below n cs) (hn : n ≤ m) :
    lineAt? m cs = none := by
  rcases h with rfl | ⟨k, c, rest, rfl, hk, hc⟩
  · simp [lineAt?]
  · exact lineAt?_of_ne (by omega) hc rest

theorem mark?_of_ne {m c : Char} (h : c ≠ m) (rest : List Char) : mark? m (c :: rest) = none := by
  simp [mark?, h]

theorem mark?_self {m : Char} {rest : List Char} (h : atGapOrEnd rest = true) :
    mark? m (m :: rest) = some rest := by
  simp [mark?, h]

/-- Where a line is moved to the right no mark begins. -/
theorem mark?_line (n : Nat) {m : Char} (hm : m ≠ ' ') {cs : List Char} (h : mark? m cs = none) :
    mark? m (List.replicate n ' ' ++ cs) = none := by
  cases n with
  | zero => exact h
  | succ n => exact mark?_of_ne hm.symm _

/-- What may stand behind the lines of something at a column. -/
structure Behind (n : Nat) (cs : List Char) : Prop where
  below : Below n cs
  colon : mark? ':' cs = none

theorem Behind.mono {n m : Nat} {cs : List Char} (h : Behind n cs) (hn : n ≤ m) : Behind m cs := by
  refine ⟨?_, h.colon⟩
  rcases h.below with rfl | ⟨k, c, rest, rfl, hk, hc⟩
  · exact .inl rfl
  · exact .inr ⟨k, c, rest, rfl, by omega, hc⟩

theorem behind_nil (n : Nat) : Behind n [] := ⟨.inl rfl, rfl⟩

theorem startsItem_of_below {n m : Nat} {cs : List Char} (h : Below n cs) (hn : n ≤ m) :
    startsItem m cs = false := by
  rw [startsItem, lineAt?_of_below h hn]
  rfl

/-- What may stand behind the items at a column: no further item. -/
structure BehindItems (n : Nat) (cs : List Char) : Prop where
  behind : Behind (n + 1) cs
  ends : startsItem n cs = false

theorem Behind.items {n : Nat} {cs : List Char} (h : Behind n cs) : BehindItems n cs :=
  ⟨h.mono (Nat.le_succ n), startsItem_of_below h.below (Nat.le_refl n)⟩

/-! ## Lines -/

open Yaml.Tree

section

variable {n : Nat} {k : String} {value inline rest : List Char}

theorem entryLines_begins (n : Nat) (k : String) (value inline rest : List Char) :
    ∃ c line, entryLines n k value inline ++ rest = c :: line ∧ isGap c = false ∧
      mark? '-' (c :: line) = none ∧ mark? ':' (c :: line) = none ∧ empty? (c :: line) = none := by
  unfold entryLines
  split
  · rw [List.append_assoc]
    have hopens := opens_written (n + 2) k (':' :: value ++ rest)
    obtain ⟨c, line, heq, hc⟩ := hopens.filled
    exact ⟨c, line, heq, hc, heq ▸ hopens.unmarked '-' (by simp), heq ▸ hopens.unmarked ':' (by simp),
      heq ▸ hopens.scalar⟩
  · exact ⟨'?', _, rfl, rfl, mark?_of_ne (by decide) _, mark?_of_ne (by decide) _, rfl⟩

theorem behind_entriesLines (h : Behind n rest) (entries : List (String × Tree)) :
    BehindItems n (entriesLines n entries ++ rest) := by
  cases entries with
  | nil => exact h.items
  | cons e es =>
    obtain ⟨k, t⟩ := e
    obtain ⟨c, line, heq, hc, hitem, hcolon, -⟩ := entryLines_begins n k (valueLines n t)
      (inlineLines (n + 2) t) (entriesLines n es ++ rest)
    rw [entriesLines, List.append_assoc, List.append_assoc, heq]
    refine ⟨⟨.inr ⟨n, c, line, rfl, Nat.lt_succ_self n, hc⟩, mark?_line n (by decide) hcolon⟩, ?_⟩
    rw [startsItem, lineAt?_self n hc, Option.bind_some, hitem]
    rfl

theorem behind_itemsLines (h : Behind (n + 1) rest) (items : List Tree) :
    Behind (n + 2) (itemsLines n items ++ rest) := by
  cases items with
  | nil => exact h.mono (Nat.le_succ _)
  | cons t ts =>
    rw [itemsLines, List.append_assoc]
    refine ⟨.inr ⟨n, '-', _, rfl, by omega, rfl⟩, ?_⟩
    exact mark?_line n (by decide) (mark?_of_ne (by decide) _)

theorem atGapOrEnd_valueLines (n : Nat) (t : Tree) (rest : List Char) :
    atGapOrEnd (valueLines n t ++ rest) = true := by
  cases t with
  | text s => rfl
  | sequence items => cases items <;> rfl
  | mapping entries => cases entries <;> rfl

theorem atGapOrEnd_inlineLines (n : Nat) (t : Tree) (rest : List Char) :
    atGapOrEnd (inlineLines n t ++ rest) = true := by
  cases t with
  | text s => rfl
  | sequence items => cases items <;> rfl
  | mapping entries => cases entries <;> rfl

end

/-! ## Reading lines -/

variable {scan : ScalarReader} {n : Nat} {rest : List Char}

theorem pastBreak_lineEnd {w : List Char} (h : Below n rest) :
    pastBreak (lineEnd w ++ rest) = rest := by
  unfold lineEnd
  split
  · -- a literal ends its own line, and what stands behind begins with no break
    rcases h with rfl | ⟨_ | m, c, tail, rfl, -, hc⟩
    · rfl
    · show pastBreak (c :: tail) = c :: tail
      unfold pastBreak
      split
      · rename_i heq
        rw [(List.cons.inj heq).1] at hc
        cases hc
      · rfl
    · rfl
  · rfl

theorem text?_scalarLine {s : String} (hs : scan.Reads s) (h : Below n rest) :
    text? scan n (scalarLine n s ++ rest) = some (.text s, rest) := by
  unfold text?
  rw [hs.line n rest h, Option.map_some, pastBreak_lineEnd h]

theorem key?_written {k : String} (hk : scan.Reads k) (hsimple : isSimpleKey k = true)
    (hrest : atGapOrEnd rest = true) :
    key? scan n (written (n + 2) k ++ ':' :: rest) = some (k, rest) := by
  unfold key?
  rw [hk.key hsimple (n + 2) rest hrest]
  simp [mark?_self hrest]

theorem markedKey?_scalarLine {k : String} (hk : scan.Reads k) (hrest : atGapOrEnd rest = true) :
    markedKey? scan n (' ' :: scalarLine (n + 2) k ++ List.replicate n ' ' ++ ':' :: rest) =
      some (k, rest) := by
  have hbelow : Below (n + 2) (List.replicate n ' ' ++ ':' :: rest) :=
    .inr ⟨n, ':', rest, rfl, by omega, rfl⟩
  unfold markedKey?
  rw [List.cons_append, List.cons_append, List.drop_succ_cons, List.drop_zero, List.append_assoc,
    hk.line _ _ hbelow]
  simp [pastBreak_lineEnd hbelow, lineAt?_self n (c := ':') rfl, mark?_self hrest]

theorem entries_cons {b : Bool} {fuel : Nat} {cs : List Char} {k : String} {t : Tree}
    {es : List (String × Tree)} (hk : scan.Reads k)
    (hline : (if b then some cs else lineAt? n cs) = some
      (entryLines n k (valueLines n t) (inlineLines (n + 2) t) ++ (entriesLines n es ++ rest)))
    (hvalue : isSimpleKey k = true →
      value scan fuel n (valueLines n t ++ (entriesLines n es ++ rest)) =
        some (t, entriesLines n es ++ rest))
    (hinline : isSimpleKey k = false →
      inline scan fuel (n + 2) (inlineLines (n + 2) t ++ (entriesLines n es ++ rest)) =
        some (t, entriesLines n es ++ rest))
    (hmore : entries scan false fuel n (entriesLines n es ++ rest) = some (es, rest)) :
    entries scan b (fuel + 1) n cs = some ((k, t) :: es, rest) := by
  rw [entries, hline]
  unfold entryLines
  by_cases hsimple : isSimpleKey k = true
  · have hkey := key?_written (n := n) hk hsimple
      (atGapOrEnd_valueLines n t (entriesLines n es ++ rest))
    rw [if_pos hsimple, List.append_assoc]
    dsimp only
    rw [(opens_written (n + 2) k _).unmarked '?' (by simp)]
    simp [hkey, hvalue hsimple, hmore]
  · have hkey := markedKey?_scalarLine (n := n) hk
      (atGapOrEnd_inlineLines (n + 2) t (entriesLines n es ++ rest))
    rw [if_neg hsimple]
    simp only [List.cons_append, List.append_assoc] at hkey ⊢
    rw [mark?_self rfl]
    simp [hkey, hinline (Bool.eq_false_iff.mpr hsimple), hmore]

/-- An entry is told from a text by the colon behind its key. -/
theorem startsEntry_entryLines {k : String} (hk : scan.Reads k) {value inline : List Char}
    (hvalue : atGapOrEnd (value ++ rest) = true) :
    startsEntry scan n (entryLines n k value inline ++ rest) = true := by
  unfold startsEntry entryLines
  split
  · rename_i hsimple
    rw [List.append_assoc, written_of_isSimpleKey hsimple (n + 2) n, List.cons_append,
      hk.key hsimple n _ hvalue]
    simp [mark?_self hvalue]
  · have hmark {cs : List Char} : mark? '?' ('?' :: ' ' :: cs) = some (' ' :: cs) := mark?_self rfl
    simp [hmark]

theorem startsEntry_scalarLine {s : String} (hs : scan.Reads s) (h : Behind n rest) :
    startsEntry scan n (scalarLine n s ++ rest) = false := by
  have hcolon : mark? ':' (lineEnd (written n s) ++ rest) = none := by
    unfold lineEnd
    split
    · exact h.colon
    · exact mark?_of_ne (by decide) _
  unfold startsEntry
  rw [hs.line n rest h.below, scalarLine, List.append_assoc,
    (opens_written n s _).unmarked '?' (by simp)]
  simp [hcolon]

end Block

/-! ## Reading documents -/

namespace Tree

mutual
def texts : Tree → List String
  | .text s => [s]
  | .sequence items => itemTexts items
  | .mapping entries => entryTexts entries

def entryTexts : List (String × Tree) → List String
  | [] => []
  | (k, t) :: rest => k :: (texts t ++ entryTexts rest)

def itemTexts : List Tree → List String
  | [] => []
  | t :: rest => texts t ++ itemTexts rest
end

end Tree

namespace Block

open Yaml.Tree

variable {scan : ScalarReader}

/-- What is read of an entry needs less fuel than there are characters of it. -/
theorem fuel_entry {n fuel : Nat} {k : String} {t : Tree} {es : List (String × Tree)}
    (h : (entryLines n k (valueLines n t) (inlineLines (n + 2) t) ++ entriesLines n es).length <
      fuel + 1) :
    (isSimpleKey k = true → (valueLines n t).length < fuel) ∧
      (isSimpleKey k = false → (inlineLines (n + 2) t).length < fuel) ∧
      (entriesLines n es).length < fuel := by
  have hwritten := List.length_pos_iff.mpr (written_ne_nil (n + 2) k)
  unfold entryLines at h
  split at h
  · rename_i hsimple
    simp only [List.length_append, List.length_cons] at h
    exact ⟨fun _ => by omega, fun hno => (Bool.false_ne_true (hno.symm.trans hsimple)).elim, by omega⟩
  · rename_i hsimple
    simp only [List.length_append, List.length_cons] at h
    exact ⟨fun hyes => absurd hyes hsimple, fun _ => by omega, by omega⟩

-- By induction on what was written. There is more fuel than there are characters, and each call of the
-- reader is paid for by one that was written for it. Of the rest of a document it is enough to know how
-- its first line begins.
mutual
theorem entries_entriesLines (n : Nat) : (es : List (String × Tree)) →
    (∀ s ∈ entryTexts es, scan.Reads s) → (fuel : Nat) → (entriesLines n es).length < fuel →
    (rest : List Char) → Behind n rest →
    entries scan false fuel n (entriesLines n es ++ rest) = some (es, rest)
  | _, _, 0, hfuel, _, _ => absurd hfuel (Nat.not_lt_zero _)
  | [], _, fuel + 1, _, rest, hrest => by
    rw [entries, entriesLines, List.nil_append, if_neg Bool.false_ne_true,
      lineAt?_of_below hrest.below (Nat.le_refl n)]
  | (k, t) :: es, hs, fuel + 1, hfuel, rest, hrest => by
    rw [entryTexts, List.forall_mem_cons, List.forall_mem_append] at hs
    obtain ⟨hk, ht, hes⟩ := hs
    rw [entriesLines, List.length_append] at hfuel
    obtain ⟨hvalue, hinline, hmore⟩ := fuel_entry (Nat.lt_of_le_of_lt (Nat.le_add_left _ _) hfuel)
    have hbehind := behind_entriesLines hrest es
    refine entries_cons hk ?_
      (fun hsimple => value_valueLines n t ht fuel (hvalue hsimple) _ hbehind)
      (fun hlong => inline_inlineLines (n + 2) t ht fuel (hinline hlong) _
        (hbehind.behind.mono (by omega)))
      (entries_entriesLines n es hes fuel hmore rest hrest)
    obtain ⟨c, line, heq, hc, -⟩ := entryLines_begins n k (valueLines n t) (inlineLines (n + 2) t)
      (entriesLines n es ++ rest)
    rw [entriesLines, List.append_assoc, List.append_assoc, heq, if_neg Bool.false_ne_true,
      lineAt?_self n hc]

theorem value_valueLines (n : Nat) : (t : Tree) → (∀ s ∈ texts t, scan.Reads s) → (fuel : Nat) →
    (valueLines n t).length < fuel → (rest : List Char) → BehindItems n rest →
    value scan fuel n (valueLines n t ++ rest) = some (t, rest)
  | _, _, 0, hfuel, _, _ => absurd hfuel (Nat.not_lt_zero _)
  | .text s, hs, fuel + 1, _, rest, hrest => by
    have hread := text?_scalarLine (hs s List.mem_cons_self)
      (hrest.behind.mono (m := n + 2) (by omega)).below
    have hscalar := (opens_written (n + 2) s (lineEnd (written (n + 2) s) ++ rest)).scalar
    rw [← List.append_assoc] at hscalar
    -- no scalar begins like an empty collection
    show (empty? (scalarLine (n + 2) s ++ rest)).or _ = _
    rw [scalarLine, hscalar]
    exact hread
  | .mapping [], _, fuel + 1, _, rest, _ => rfl
  | .mapping (e :: es), hs, fuel + 1, hfuel, rest, hrest => by
    have hentries := entries_entriesLines (n + 2) (e :: es) hs fuel
      (by simpa [valueLines] using hfuel) rest (hrest.behind.mono (by omega))
    obtain ⟨k, t⟩ := e
    obtain ⟨c, line, heq, hc, -⟩ := entryLines_begins (n + 2) k (valueLines (n + 2) t)
      (inlineLines (n + 2 + 2) t) (entriesLines (n + 2) es ++ rest)
    have hbegins : entriesLines (n + 2) ((k, t) :: es) ++ rest =
        List.replicate (n + 2) ' ' ++ c :: line := by
      rw [entriesLines, List.append_assoc, List.append_assoc, heq]
    -- the entries are two columns on, where no item of this column can be
    have hitem : startsItem n (entriesLines (n + 2) ((k, t) :: es) ++ rest) = false := by
      rw [hbegins, startsItem, lineAt?_of_ne (by omega) hc]
      rfl
    show (if startsItem n (entriesLines (n + 2) ((k, t) :: es) ++ rest) then _ else _) = _
    rw [hitem, if_neg Bool.false_ne_true]
    exact congrArg (Option.map _) hentries
  | .sequence [], _, fuel + 1, _, rest, _ => rfl
  | .sequence (i :: is), hs, fuel + 1, hfuel, rest, hrest => by
    have hitems := items_itemsLines n (i :: is) hs fuel (by simpa [valueLines] using hfuel) rest hrest
    have hitem : startsItem n (itemsLines n (i :: is) ++ rest) = true := by
      rw [itemsLines, List.append_assoc, List.cons_append, startsItem, lineAt?_self n rfl,
        Option.bind_some, List.append_assoc, mark?_self (atGapOrEnd_inlineLines ..)]
      rfl
    show (if startsItem n (itemsLines n (i :: is) ++ rest) then _ else _) = _
    rw [if_pos hitem]
    exact congrArg (Option.map _) hitems

theorem inline_inlineLines (n : Nat) : (t : Tree) → (∀ s ∈ texts t, scan.Reads s) → (fuel : Nat) →
    (inlineLines n t).length < fuel → (rest : List Char) → Behind n rest →
    inline scan fuel n (inlineLines n t ++ rest) = some (t, rest)
  | _, _, 0, hfuel, _, _ => absurd hfuel (Nat.not_lt_zero _)
  | .text s, hs, fuel + 1, _, rest, hrest => by
    have hread := text?_scalarLine (hs s List.mem_cons_self) hrest.below
    have hentry := startsEntry_scalarLine (hs s List.mem_cons_self) hrest
    have hopens := opens_written n s (lineEnd (written n s) ++ rest)
    rw [← List.append_assoc] at hopens
    rw [scalarLine] at hread hentry
    rw [inlineLines, List.cons_append, inline, scalarLine, hopens.scalar,
      hopens.unmarked '-' (by simp), hentry]
    exact hread
  | .mapping [], _, fuel + 1, _, rest, _ => rfl
  | .mapping (_ :: _), _, 1, hfuel, _, _ => by simp [inlineLines] at hfuel
  | .mapping ((k, t) :: es), hs, fuel + 2, hfuel, rest, hrest => by
    rw [texts, entryTexts, List.forall_mem_cons, List.forall_mem_append] at hs
    obtain ⟨hk, ht, hes⟩ := hs
    -- the first entry stands behind the mark, without its blanks
    rw [inlineLines, drop_entriesLines] at hfuel ⊢
    obtain ⟨hvalue, hinline, hmore⟩ := fuel_entry (Nat.lt_of_succ_lt_succ hfuel)
    have hbehind := behind_entriesLines hrest es
    obtain ⟨c, line, heq, -, hitem, -, hscalar⟩ := entryLines_begins n k (valueLines n t)
      (inlineLines (n + 2) t) (entriesLines n es ++ rest)
    have hentry : startsEntry scan n (entryLines n k (valueLines n t) (inlineLines (n + 2) t) ++
        (entriesLines n es ++ rest)) = true :=
      startsEntry_entryLines hk (atGapOrEnd_valueLines n t (entriesLines n es ++ rest))
    have hentries := entries_cons (b := true) hk (if_pos rfl)
      (fun hsimple => value_valueLines n t ht fuel (hvalue hsimple) _ hbehind)
      (fun hlong => inline_inlineLines (n + 2) t ht fuel (hinline hlong) _
        (hbehind.behind.mono (by omega)))
      (entries_entriesLines n es hes fuel hmore rest hrest)
    rw [List.cons_append, List.append_assoc, inline]
    rw [← heq] at hitem hscalar
    rw [hscalar, hitem, hentry]
    exact congrArg (Option.map _) hentries
  | .sequence [], _, fuel + 1, _, rest, _ => rfl
  | .sequence (_ :: _), _, 1, hfuel, _, _ => by simp [inlineLines] at hfuel
  | .sequence (i :: is), hs, fuel + 2, hfuel, rest, hrest => by
    rw [texts, itemTexts, List.forall_mem_append] at hs
    rw [inlineLines, drop_itemsLines] at hfuel ⊢
    simp only [List.length_append, List.length_cons] at hfuel
    have hinline := inline_inlineLines (n + 2) i hs.1 fuel (by omega) (itemsLines n is ++ rest)
      (behind_itemsLines hrest.items.behind is)
    have hmore := items_itemsLines n is hs.2 fuel (by omega) rest hrest.items
    have hmark := mark?_self (m := '-') (atGapOrEnd_inlineLines (n + 2) i (itemsLines n is ++ rest))
    have hitems : items scan true (fuel + 1) n
        ('-' :: (inlineLines (n + 2) i ++ (itemsLines n is ++ rest))) = some (i :: is, rest) := by
      rw [items, if_pos rfl, Option.bind_some, hmark]
      simp [hinline, hmore]
    rw [List.cons_append, List.cons_append, List.append_assoc, inline, hmark]
    exact congrArg (Option.map _) hitems

theorem items_itemsLines (n : Nat) : (ts : List Tree) → (∀ s ∈ itemTexts ts, scan.Reads s) →
    (fuel : Nat) → (itemsLines n ts).length < fuel → (rest : List Char) → BehindItems n rest →
    items scan false fuel n (itemsLines n ts ++ rest) = some (ts, rest)
  | _, _, 0, hfuel, _, _ => absurd hfuel (Nat.not_lt_zero _)
  | [], _, fuel + 1, _, rest, hrest => by
    have hends := hrest.ends
    rw [startsItem, Option.isSome_eq_false_iff, Option.isNone_iff_eq_none] at hends
    rw [items, itemsLines, List.nil_append, if_neg Bool.false_ne_true, hends]
  | t :: ts, hs, fuel + 1, hfuel, rest, hrest => by
    rw [itemTexts, List.forall_mem_append] at hs
    simp only [itemsLines, List.length_append, List.length_cons] at hfuel
    have hinline := inline_inlineLines (n + 2) t hs.1 fuel (by omega) (itemsLines n ts ++ rest)
      (behind_itemsLines hrest.behind ts)
    have hmore := items_itemsLines n ts hs.2 fuel (by omega) rest hrest
    rw [items, itemsLines, List.append_assoc, List.cons_append, List.append_assoc,
      if_neg Bool.false_ne_true, lineAt?_self n rfl, Option.bind_some,
      mark?_self (atGapOrEnd_inlineLines ..)]
    simp [hinline, hmore]
end

/-- A document is read back from its print, if its scalars are. -/
theorem read_print {entries : List (String × Tree)}
    (h : ∀ s ∈ entryTexts entries, scan.Reads s) : read scan (print entries) = some entries := by
  have hread := entries_entriesLines 0 entries h ((entriesLines 0 entries).length + 1)
    (Nat.lt_succ_self _) [] (behind_nil 0)
  rw [List.append_nil] at hread
  unfold read
  rw [toList_print, hread]

end Block
end ContainerHost.Yaml
