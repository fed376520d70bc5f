import ContainerHost.Yaml.Written
/-!
# Writing documents

A tree of texts, written as a document in blocks of two columns. The items of a sequence that is a
value stand below their key; a key that is too long for one line, or has several, is marked.
-/

namespace ContainerHost.Yaml

/-- A document made of texts. -/
inductive Tree where
  | text (s : String)
  | sequence (items : List Tree)
  | mapping (entries : List (String × Tree))
  deriving Inhabited, Repr

/-- A key needs no mark: it is in one line of at most 128 bytes. -/
def isSimpleKey (s : String) : Bool := !s.toList.any isBreak && s.utf8ByteSize ≤ 128

/-- Goes to a column of a new line, or of the line that was just begun. -/
def toColumn (n : Nat) (out : String) : String :=
  (if out.isEmpty || isBreak out.back then out else out.push '\n') ++ String.ofList (List.replicate n ' ')

def putText (indent : Nat) (s out : String) : String := out ++ " " ++ String.ofList (written indent s)

namespace Tree

mutual
/-- Writes entries at a column, the first one in the line that was begun if `here` says so. -/
def putEntries (n : Nat) (here : Bool) : List (String × Tree) → String → String
  | [], out => out
  | (k, t) :: rest, out =>
    let out := if here then out else toColumn n out
    let key := String.ofList (written (n + 2) k)
    putEntries n false rest <|
      if isSimpleKey k then putValue n t (out ++ key ++ ":")
      else putInline (n + 2) t (toColumn n (out ++ "? " ++ key) ++ ":")

/-- Writes a value behind its key; the entries stand at a column. -/
def putValue (n : Nat) : Tree → String → String
  | .text s, out => putText (n + 2) s out
  | .mapping [], out => out ++ " \x7b\x7d"
  | .mapping (e :: es), out => putEntries (n + 2) false (e :: es) out
  | .sequence [], out => out ++ " []"
  | .sequence (i :: is), out => putItems n false (i :: is) out

/-- Writes something behind a mark, its lines at a column. -/
def putInline (n : Nat) : Tree → String → String
  | .text s, out => putText n s out
  | .mapping [], out => out ++ " \x7b\x7d"
  | .mapping (e :: es), out => putEntries n true (e :: es) (out ++ " ")
  | .sequence [], out => out ++ " []"
  | .sequence (i :: is), out => putItems n true (i :: is) (out ++ " ")

def putItems (n : Nat) (here : Bool) : List Tree → String → String
  | [], out => out
  | t :: rest, out =>
    let out := if here then out else toColumn n out
    putItems n false rest (putInline (n + 2) t (out ++ "-"))
end

/-- The text of a mapping as a document. -/
def print (entries : List (String × Tree)) : String := toColumn 0 (putEntries 0 true entries "")

end Tree
end ContainerHost.Yaml
