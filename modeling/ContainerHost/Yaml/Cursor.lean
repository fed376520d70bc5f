/-!
# Places in a YAML text

The classes of characters that YAML tells apart, and a cursor that knows the line and the column of
what is left of a text. Line breaks are the line feed, the carriage return, both together, the next
line character and the two separators of Unicode; what a break stands for is read by `takeBreak?`.
-/

namespace ContainerHost.Yaml

/-! ## Characters -/

/-- The character may stand in a YAML text. -/
def isAllowed (c : Char) : Bool :=
  let n := c.toNat
  n = 0x09 || n = 0x0a || n = 0x0d || (0x20 ≤ n && n ≤ 0x7e) || n = 0x85 ||
  (0xa0 ≤ n && n ≤ 0xd7ff) || (0xe000 ≤ n && n ≤ 0xfffd) || 0x10000 ≤ n

def isBlank (c : Char) : Bool := c = ' ' || c = '\t'

def isBreak (c : Char) : Bool :=
  c = '\n' || c = '\r' || c = '\u0085' || c = '\u2028' || c = '\u2029'

def isGap (c : Char) : Bool := isBlank c || isBreak c

def isWordChar (c : Char) : Bool := c.isAlphanum || c = '-' || c = '_'

/-- A text begins with a line break, or there is none left. -/
def atBreakOrEnd : List Char → Bool
  | [] => true
  | c :: _ => isBreak c

/-- A text begins with a blank or a line break, or there is none left. -/
def atGapOrEnd : List Char → Bool
  | [] => true
  | c :: _ => isGap c

/-- A text begins with a marker of three characters and a blank, a break or the end behind it. -/
def atMarker (mark : Char) : List Char → Bool
  | a :: b :: c :: rest => a = mark && b = mark && c = mark && atGapOrEnd rest
  | _ => false

/-- A text begins with the marker of a document's start or end. -/
def atDocumentMarker (cs : List Char) : Bool := atMarker '-' cs || atMarker '.' cs

/-! ## Cursors -/

/-- What is left of a text, and where it begins. -/
structure Cursor where
  rest : List Char
  index : Nat
  line : Nat
  column : Nat
  deriving Repr, Inhabited

namespace Cursor

def start (cs : List Char) : Cursor := ⟨cs, 0, 0, 0⟩

/-- The next character is this one. -/
def startsWith (c : Cursor) (x : Char) : Bool := c.rest.head? == some x

/-- Some characters further on in the line. -/
def skip (c : Cursor) (n : Nat) : Cursor := ⟨c.rest.drop n, c.index + n, c.line, c.column + n⟩

/-- Takes the characters of a class; none of them ends a line. -/
def takeWhile (c : Cursor) (p : Char → Bool) : List Char × Cursor :=
  let taken := c.rest.takeWhile p
  (taken, c.skip taken.length)

/-- Leaves the characters of a class out. -/
def skipWhile (c : Cursor) (p : Char → Bool) : Cursor := (c.takeWhile p).2

/-- The line after one whose break has some characters. -/
def nextLine (c : Cursor) (n : Nat) : Cursor := ⟨c.rest.drop n, c.index + n, c.line + 1, 0⟩

/-- Takes a line break and what it stands for: a line feed, or the separator itself. -/
def takeBreak? (c : Cursor) : Option (List Char × Cursor) :=
  match c.rest with
  | '\r' :: '\n' :: _ => some (['\n'], c.nextLine 2)
  | x :: _ =>
    if x = '\n' || x = '\r' || x = '\u0085' then some (['\n'], c.nextLine 1)
    else if isBreak x then some ([x], c.nextLine 1)
    else none
  | [] => none

/-- Leaves a line break out, if there is one. -/
def skipBreak (c : Cursor) : Cursor := ((c.takeBreak?).map (·.2)).getD c

/-- Leaves blanks and a comment out. -/
def skipComment (c : Cursor) : Cursor :=
  if c.startsWith '#' then c.skipWhile (fun x => !isBreak x) else c

end Cursor
end ContainerHost.Yaml
