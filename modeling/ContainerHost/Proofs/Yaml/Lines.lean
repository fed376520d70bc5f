import ContainerHost.Yaml.Tree
/-!
# The lines of a printed document

A document is printed behind a text that is there already. Once the line that was begun is ended,
what was added are whole lines, each at the column of its entry or item. A scalar that does not end
its line by itself is followed by a line feed.

What is proved: `Tree.toList_print`, the lines of a document.

Correspondence: `Tree.print` ↔ `serde_yaml::to_string`.
-/

namespace ContainerHost.Yaml

def lineEnd (cs : List Char) : List Char := if cs.getLast?.all isBreak then [] else ['\n']

theorem lineEnd_append {w : List Char} (h : w ≠ []) (cs : List Char) :
    lineEnd (cs ++ w) = lineEnd w := by
  unfold lineEnd
  rw [List.getLast?_append, List.getLast?_eq_some_getLast h]
  rfl

def ended (s : String) : List Char := s.toList ++ lineEnd s.toList

theorem toList_toColumn (n : Nat) (s : String) :
    (toColumn n s).toList = ended s ++ List.replicate n ' ' := by
  unfold toColumn ended lineEnd
  rw [String.toList_append, String.toList_ofList]
  by_cases hempty : s.isEmpty = true
  · obtain rfl := String.isEmpty_iff.mp hempty
    rfl
  · have hne : s.toList ≠ [] :=
      fun h => hempty (String.isEmpty_iff.mpr (String.toList_eq_nil_iff.mp h))
    have hback : s.back = s.toList.getLast hne := by
      rw [String.back_eq, String.back?_eq, List.getLast?_eq_some_getLast hne]
      rfl
    rw [List.getLast?_eq_some_getLast hne, hback]
    by_cases hbreak : isBreak (s.toList.getLast hne) = true
    · simp [hbreak]
    · simp [hbreak, hempty]

theorem written_ne_nil (n : Nat) (s : String) : written n s ≠ [] := by
  unfold written
  split
  · rename_i hplain
    intro hnil
    -- the text without characters would be taken for no value
    obtain rfl := String.toList_eq_nil_iff.mp hnil
    revert hplain
    decide
  · simp [inSingleQuotes]
  · simp
  · simp
  · simp

def scalarLine (n : Nat) (s : String) : List Char := written n s ++ lineEnd (written n s)

namespace Tree

/-- An entry at a column behind the blanks before it, with its value behind the key or inline. -/
def entryLines (n : Nat) (k : String) (value inline : List Char) : List Char :=
  if isSimpleKey k then written (n + 2) k ++ ':' :: value
  else '?' :: ' ' :: scalarLine (n + 2) k ++ List.replicate n ' ' ++ ':' :: inline

mutual
def entriesLines (n : Nat) : List (String × Tree) → List Char
  | [] => []
  | (k, t) :: rest =>
    List.replicate n ' ' ++ (entryLines n k (valueLines n t) (inlineLines (n + 2) t) ++
      entriesLines n rest)

/-- What stands behind a key at a column. -/
def valueLines (n : Nat) : Tree → List Char
  | .text s => ' ' :: scalarLine (n + 2) s
  | .mapping [] => [' ', '\x7b', '\x7d', '\n']
  | .mapping (e :: es) => '\n' :: entriesLines (n + 2) (e :: es)
  | .sequence [] => [' ', '[', ']', '\n']
  | .sequence (i :: is) => '\n' :: itemsLines n (i :: is)

/-- What stands behind a mark, with its further lines at a column. -/
def inlineLines (n : Nat) : Tree → List Char
  | .text s => ' ' :: scalarLine n s
  | .mapping [] => [' ', '\x7b', '\x7d', '\n']
  | .mapping (e :: es) => ' ' :: (entriesLines n (e :: es)).drop n
  | .sequence [] => [' ', '[', ']', '\n']
  | .sequence (i :: is) => ' ' :: (itemsLines n (i :: is)).drop n

def itemsLines (n : Nat) : List Tree → List Char
  | [] => []
  | t :: rest => List.replicate n ' ' ++ ('-' :: (inlineLines (n + 2) t ++ itemsLines n rest))
end

theorem drop_entriesLines (n : Nat) (k : String) (t : Tree) (rest : List (String × Tree)) :
    (entriesLines n ((k, t) :: rest)).drop n =
      entryLines n k (valueLines n t) (inlineLines (n + 2) t) ++ entriesLines n rest := by
  rw [entriesLines, List.drop_left' List.length_replicate]

theorem drop_itemsLines (n : Nat) (t : Tree) (rest : List Tree) :
    (itemsLines n (t :: rest)).drop n = '-' :: (inlineLines (n + 2) t ++ itemsLines n rest) := by
  rw [itemsLines, List.drop_left' List.length_replicate]

/-! ## Printing -/

theorem lineEnd_cons {w : List Char} (h : w ≠ []) (c : Char) (cs : List Char) :
    lineEnd (cs ++ c :: w) = lineEnd w := by
  rw [List.append_cons, lineEnd_append h]

theorem ended_append (s : String) (w : List Char) (h : w ≠ []) (out : String)
    (hs : s.toList = out.toList ++ w) : ended s = out.toList ++ (w ++ lineEnd w) := by
  rw [ended, hs, lineEnd_append h, List.append_assoc]

theorem ended_putText (n : Nat) (s out : String) :
    ended (putText n s out) = out.toList ++ ' ' :: scalarLine n s := by
  rw [ended_append _ (' ' :: written n s) (List.cons_ne_nil _ _) out (by simp [putText]),
    ← List.nil_append (' ' :: written n s), lineEnd_cons (written_ne_nil n s)]
  rfl

theorem ended_entry {n : Nat} {k : String} {t : Tree}
    (hvalue : ∀ out, lineEnd out.toList = ['\n'] →
      ended (putValue n t out) = out.toList ++ valueLines n t)
    (hinline : ∀ out, ended (putInline (n + 2) t out) = out.toList ++ inlineLines (n + 2) t)
    (out : String) :
    ended (if isSimpleKey k then putValue n t (out ++ String.ofList (written (n + 2) k) ++ ":")
      else putInline (n + 2) t
        (toColumn n (out ++ "? " ++ String.ofList (written (n + 2) k)) ++ ":")) =
      out.toList ++ entryLines n k (valueLines n t) (inlineLines (n + 2) t) := by
  unfold entryLines
  split
  · rw [hvalue]
    · simp
    · rw [String.toList_append]
      exact lineEnd_append (List.cons_ne_nil _ _) _
  · rw [hinline, String.toList_append, toList_toColumn,
      ended_append _ ('?' :: ' ' :: written (n + 2) k) (List.cons_ne_nil _ _) out (by simp),
      ← List.singleton_append, lineEnd_cons (written_ne_nil (n + 2) k)]
    simp [scalarLine]

mutual
theorem ended_putEntries (n : Nat) : (entries : List (String × Tree)) → (out : String) →
    ended (putEntries n false entries out) = ended out ++ entriesLines n entries
  | [], out => by rw [putEntries, entriesLines, List.append_nil]
  | (k, t) :: rest, out => by
    rw [putEntries, entriesLines, ended_putEntries n rest,
      ended_entry (ended_putValue n t) (ended_putInline (n + 2) t), if_neg Bool.false_ne_true,
      toList_toColumn]
    simp

theorem ended_putValue (n : Nat) : (t : Tree) → (out : String) → lineEnd out.toList = ['\n'] →
    ended (putValue n t out) = out.toList ++ valueLines n t
  | .text s, out, _ => ended_putText (n + 2) s out
  | .mapping [], out, _ =>
    ended_append _ [' ', '\x7b', '\x7d'] (List.cons_ne_nil _ _) out (by simp [putValue])
  | .mapping (e :: es), out, hout => by
    rw [putValue, ended_putEntries, ended, hout]
    simp [valueLines]
  | .sequence [], out, _ =>
    ended_append _ [' ', '[', ']'] (List.cons_ne_nil _ _) out (by simp [putValue])
  | .sequence (i :: is), out, hout => by
    rw [putValue, ended_putItems, ended, hout]
    simp [valueLines]

theorem ended_putInline (n : Nat) : (t : Tree) → (out : String) →
    ended (putInline n t out) = out.toList ++ inlineLines n t
  | .text s, out => ended_putText n s out
  | .mapping [], out =>
    ended_append _ [' ', '\x7b', '\x7d'] (List.cons_ne_nil _ _) out (by simp [putInline])
  | .mapping ((k, t) :: es), out => by
    rw [putInline, putEntries, ended_putEntries n es,
      ended_entry (ended_putValue n t) (ended_putInline (n + 2) t), if_pos rfl, inlineLines,
      drop_entriesLines]
    simp
  | .sequence [], out =>
    ended_append _ [' ', '[', ']'] (List.cons_ne_nil _ _) out (by simp [putInline])
  | .sequence (i :: is), out => by
    rw [putInline, putItems, ended_putItems n is, ended_putInline (n + 2) i, if_pos rfl, inlineLines,
      drop_itemsLines]
    simp

theorem ended_putItems (n : Nat) : (items : List Tree) → (out : String) →
    ended (putItems n false items out) = ended out ++ itemsLines n items
  | [], out => by rw [putItems, itemsLines, List.append_nil]
  | t :: rest, out => by
    rw [putItems, itemsLines, ended_putItems n rest, ended_putInline (n + 2) t,
      if_neg Bool.false_ne_true, String.toList_append, toList_toColumn]
    simp
end

theorem toList_print (entries : List (String × Tree)) :
    (print entries).toList = entriesLines 0 entries := by
  unfold print
  rw [toList_toColumn]
  cases entries with
  | nil => rfl
  | cons e rest =>
    obtain ⟨k, t⟩ := e
    rw [putEntries, ended_putEntries, ended_entry (ended_putValue 0 t) (ended_putInline 2 t),
      if_pos rfl, entriesLines]
    simp

end Tree
end ContainerHost.Yaml
