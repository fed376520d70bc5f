import ContainerHost.Proofs.Yaml.Blocks
/-!
# Reading words

A reader of scalars in one line, plain or in single quotes, which is what most texts of a document are
written as. A plain scalar goes on up to the end of its line, a colon before a gap, or a comment.

What is proved: `reads_of_isWord`, the grant of a scalar reader for such texts.
-/

namespace ContainerHost.Yaml

namespace Word

/-! ## The reader -/

/-- A plain scalar ends before this character. -/
def endsBefore (c : Char) (rest : List Char) : Bool :=
  isBreak c || (c = ':' && atGapOrEnd rest) || (isGap c && rest.head? = some '#')

/-- Takes a plain scalar. -/
def plain : List Char → List Char × List Char
  | [] => ([], [])
  | c :: rest =>
    if endsBefore c rest then ([], c :: rest)
    else (c :: (plain rest).1, (plain rest).2)

/-- Takes what stands in single quotes, behind the first. -/
def quoted? : List Char → Option (List Char × List Char)
  | '\'' :: '\'' :: rest => (quoted? rest).map fun r => ('\'' :: r.1, r.2)
  | '\'' :: rest => some ([], rest)
  | c :: rest => (quoted? rest).map fun r => (c :: r.1, r.2)
  | [] => none

/-- Takes a scalar in one line. -/
def scan : ScalarReader := fun _ cs =>
  match cs with
  | '\'' :: rest => (quoted? rest).map fun r => (String.ofList r.1, r.2)
  | cs => some (String.ofList (plain cs).1, (plain cs).2)

def isWord (s : String) : Bool :=
  !s.toList.any isBreak && (styleOf s = .plain || styleOf s = .singleQuoted)

/-! ## What is read -/

/-- What ends a scalar in one line: the end of the line, or a colon before a gap. -/
def Stops (rest : List Char) : Prop := ∀ c more, rest = c :: more → endsBefore c more = true ∧ c ≠ '#'

theorem stops_colon {rest : List Char} (h : atGapOrEnd rest = true) : Stops (':' :: rest) := by
  rintro c more heq
  cases heq
  simp [endsBefore, h]

theorem stops_break (rest : List Char) : Stops ('\n' :: rest) := by
  rintro c more heq
  cases heq
  exact ⟨rfl, by decide⟩

theorem plain_append {cs rest : List Char} (hline : cs.any isBreak = false)
    (hplain : endsPlain cs = false) (hrest : Stops rest) : plain (cs ++ rest) = (cs, rest) := by
  induction cs with
  | nil =>
    cases rest with
    | nil => rfl
    | cons c more => exact if_pos (hrest c more rfl).1
  | cons a cs ih =>
    rw [List.any_cons, Bool.or_eq_false_iff] at hline
    have hgoesOn : endsBefore a (cs ++ rest) = false ∧ endsPlain cs = false := by
      cases cs with
      | nil =>
        have hcolon : a ≠ ':' := of_decide_eq_false hplain
        have hhash : rest.head? ≠ some '#' := by
          intro hhead
          obtain ⟨more, rfl⟩ := List.head?_eq_some_iff.mp hhead
          exact (hrest _ _ rfl).2 rfl
        simp [endsBefore, hline.1, hcolon, hhash, endsPlain]
      | cons b cs =>
        rw [endsPlain, Bool.or_eq_false_iff, Bool.or_eq_false_iff] at hplain
        obtain ⟨⟨hcolon, hhash⟩, hmore⟩ := hplain
        refine ⟨?_, hmore⟩
        simp only [endsBefore, hline.1, List.cons_append, atGapOrEnd, hcolon, List.head?_cons,
          Bool.false_or, Option.some.injEq]
        exact hhash
    rw [List.cons_append, plain, hgoesOn.1, if_neg Bool.false_ne_true, ih hline.2 hgoesOn.2]

theorem quoted?_quote {rest : List Char} (h : rest.head? ≠ some '\'') :
    quoted? ('\'' :: rest) = some ([], rest) := by
  refine quoted?.eq_2 rest ?_
  rintro more rfl
  exact h rfl

theorem quoted?_cons {c : Char} (h : c ≠ '\'') (rest : List Char) :
    quoted? (c :: rest) = (quoted? rest).map fun r => (c :: r.1, r.2) := by
  refine quoted?.eq_3 c rest ?_ ?_
  · rintro more rfl
    exact absurd rfl h
  · rintro rfl
    exact absurd rfl h

theorem quoted?_append {cs rest : List Char} (hrest : rest.head? ≠ some '\'') :
    quoted? (cs.flatMap (fun c => if c = '\'' then ['\'', '\''] else [c]) ++ '\'' :: rest) =
      some (cs, rest) := by
  induction cs with
  | nil => exact quoted?_quote hrest
  | cons c cs ih =>
    rw [List.flatMap_cons, List.append_assoc]
    by_cases hc : c = '\''
    · subst hc
      rw [if_pos rfl]
      exact congrArg (Option.map _) ih
    · rw [if_neg hc, List.singleton_append, quoted?_cons hc, ih]
      rfl

theorem lineEnd_of_line {w : List Char} (hne : w ≠ []) (h : isBreak (w.getLast hne) = false) :
    lineEnd w = ['\n'] := by
  unfold lineEnd
  rw [List.getLast?_eq_some_getLast hne, Option.all_some, h, if_neg Bool.false_ne_true]

def inQuotes (s : String) : List Char :=
  '\'' :: (s.toList.flatMap (fun c => if c = '\'' then ['\'', '\''] else [c]) ++ ['\''])

theorem written_of_isWord {s : String} (h : isWord s = true) (n : Nat) :
    (styleOf s = .plain ∧ written n s = s.toList ∨ written n s = inQuotes s) ∧
      lineEnd (written n s) = ['\n'] := by
  obtain ⟨hline, hstyle⟩ := Bool.and_eq_true_iff.mp h
  have hline : s.toList.any isBreak = false := by simpa using hline
  have hbreak (c : Char) (hc : c ∈ s.toList) : isBreak c = false :=
    Bool.eq_false_iff.mpr (List.any_eq_false.mp hline c hc)
  rcases (by simpa using hstyle : styleOf s = .plain ∨ styleOf s = .singleQuoted) with hs | hs
  · have hwritten : written n s = s.toList := by
      unfold written
      rw [hs]
    have hne : s.toList ≠ [] := hwritten ▸ written_ne_nil n s
    rw [hwritten]
    exact ⟨.inl ⟨hs, rfl⟩, lineEnd_of_line hne (hbreak _ (List.getLast_mem hne))⟩
  · have hlast : s.toList.getLast?.any isBreak = false := by
      cases hlast : s.toList.getLast? with
      | none => rfl
      | some c => exact hbreak c (List.mem_of_getLast? hlast)
    have hwritten : written n s = inQuotes s := by
      unfold written inQuotes
      rw [hs]
      simp [inSingleQuotes, indented_of_line hline, hlast]
    rw [hwritten]
    exact ⟨.inr rfl, lineEnd_append (w := ['\'']) (List.cons_ne_nil _ _) ('\'' :: _)⟩

theorem scan_written {s : String} (h : isWord s = true) {rest : List Char} (hrest : Stops rest)
    (n : Nat) : scan n (written n s ++ rest) = some (s, rest) := by
  have hline : s.toList.any isBreak = false := by simpa using (Bool.and_eq_true_iff.mp h).1
  rcases (written_of_isWord h n).1 with ⟨hs, hwritten⟩ | hwritten
  · obtain ⟨c, w, hcs, -, hfirst, -, hends⟩ := exists_cons_of_plain hs
    have hunquoted : c ≠ '\'' := by
      rintro rfl
      cases hfirst
    have hplain := plain_append hline hends hrest
    rw [hwritten]
    rw [hcs] at hplain ⊢
    rw [List.cons_append] at hplain ⊢
    simp [scan, hunquoted, hplain, ← hcs]
  · have hquote : rest.head? ≠ some '\'' := by
      intro hhead
      obtain ⟨more, rfl⟩ := List.head?_eq_some_iff.mp hhead
      cases (hrest _ _ rfl).1
    rw [hwritten, inQuotes, List.cons_append, List.append_assoc]
    show (quoted? _).map _ = _
    rw [List.singleton_append, quoted?_append hquote, Option.map_some, String.ofList_toList]

theorem reads_of_isWord {s : String} (h : isWord s = true) : scan.Reads s where
  line := by
    intro n rest _
    rw [scalarLine, List.append_assoc, (written_of_isWord h n).2]
    exact scan_written h (stops_break rest) n
  key := fun _ n _ hrest => scan_written h (stops_colon hrest) n

end Word
end ContainerHost.Yaml
