import ContainerHost.Text.Hex
import ContainerHost.Yaml.Cursor
/-!
# Scalars as they are written

The five ways to write a scalar: plain, in single or double quotes, and as a literal or a folded
block. Each reader takes the scalar at a cursor and returns its text. In the flow styles a single
line break between words is a blank, and each further one is a line feed.
-/

namespace ContainerHost.Yaml

/-- How a scalar is written. -/
inductive Style where
  | plain
  | singleQuoted
  | doubleQuoted
  | literal
  | folded
  deriving DecidableEq, Repr, Inhabited

/-! ## Gaps between words -/

/-- Blanks and line breaks between words: the blanks if there is no break, else the breaks. -/
structure Gap where
  blanks : List Char
  firstBreak : Option (List Char)
  laterBreaks : List Char
  deriving Repr, Inhabited

namespace Gap

def empty : Gap := ⟨[], none, []⟩

def text (g : Gap) : List Char :=
  match g.firstBreak with
  | none => g.blanks
  | some ['\n'] => if g.laterBreaks.isEmpty then [' '] else g.laterBreaks
  | some first => first ++ g.laterBreaks

def addBlank (g : Gap) (c : Char) : Gap :=
  if g.firstBreak.isNone then { g with blanks := g.blanks ++ [c] } else g

def addBreak (g : Gap) (b : List Char) : Gap :=
  match g.firstBreak with
  | none => { g with firstBreak := some b }
  | some _ => { g with laterBreaks := g.laterBreaks ++ b }

/-- Takes the gap at a cursor. Behind a line break, a tab before the column `indent` is an error. -/
def take (indent : Nat) : Nat → Gap → Cursor → Option (Gap × Cursor)
  | 0, g, c => some (g, c)
  | fuel + 1, g, c =>
    match c.rest with
    | [] => some (g, c)
    | x :: _ =>
      if isBlank x then
        if g.firstBreak.isSome && c.column < indent && x = '\t' then none
        else take indent fuel (g.addBlank x) (c.skip 1)
      else match c.takeBreak? with
        | some (b, c) => take indent fuel (g.addBreak b) c
        | none => some (g, c)

end Gap

/-! ## Plain scalars -/

/-- A character that begins or ends a collection, or separates its items, inside brackets. -/
def isFlowMark (c : Char) : Bool := c = ',' || c = '[' || c = ']' || c = '\x7b' || c = '\x7d'

/-- The length of the word at the beginning of a text. Inside brackets a colon with a mark behind
it is an error. -/
def wordLength? (inFlow : Bool) : List Char → Option Nat
  | [] => some 0
  | x :: rest =>
    if isGap x then some 0
    else if x = ':' && inFlow && (rest.head?.any fun y => isFlowMark y || y = '?') then none
    else if x = ':' && atGapOrEnd rest then some 0
    else if inFlow && isFlowMark x then some 0
    else (wordLength? inFlow rest).map (· + 1)

/-- A scalar that was read, the cursor behind it, and whether a line break stands between. -/
structure Reading where
  text : List Char
  cursor : Cursor
  brokeLine : Bool
  deriving Inhabited

/-- Takes the words of a plain scalar; its lines begin at column `indent` or later. -/
def takePlain (inFlow : Bool) (indent : Nat) : Nat → List Char → Gap → Cursor → Option Reading
  | 0, _, _, _ => none
  | fuel + 1, text, gap, c =>
    let done : Reading := ⟨text, c, gap.firstBreak.isSome⟩
    if (c.column = 0 && atDocumentMarker c.rest) || c.startsWith '#' then some done
    else match wordLength? inFlow c.rest with
      | none => none
      | some 0 => some done
      | some n =>
        let text := text ++ gap.text ++ c.rest.take n
        let c := c.skip n
        if c.rest.isEmpty || !atGapOrEnd c.rest then some ⟨text, c, false⟩
        else match Gap.take indent (c.rest.length + 1) .empty c with
          | none => none
          | some (gap, c) =>
            if !inFlow && c.column < indent then some ⟨text, c, gap.firstBreak.isSome⟩
            else takePlain inFlow indent fuel text gap c

/-! ## Quoted scalars -/

def hexNumber? (n : Nat) (cs : List Char) : Option Nat :=
  let digits := cs.take n
  if digits.length = n then Text.Hex.number? digits else none

def charOfNumber? (n : Nat) : Option Char :=
  if h : n.isValidChar then some (Char.ofNatAux n h) else none

/-- The characters that a letter behind a backslash stands for. -/
def shortEscapes : List (Char × Char) :=
  [('0', '\x00'), ('a', '\x07'), ('b', '\x08'), ('t', '\t'), ('\t', '\t'), ('n', '\n'),
   ('v', '\x0b'), ('f', '\x0c'), ('r', '\r'), ('e', '\x1b'), (' ', ' '), ('"', '"'), ('/', '/'),
   ('\\', '\\'), ('N', '\u0085'), ('_', '\u00a0'), ('L', '\u2028'), ('P', '\u2029')]

/-- Reads what stands behind a backslash; returns the character and how long its escape is. -/
def escape? : List Char → Option (Char × Nat)
  | 'x' :: rest => (hexNumber? 2 rest).bind fun n => (charOfNumber? n).map (·, 3)
  | 'u' :: rest => (hexNumber? 4 rest).bind fun n => (charOfNumber? n).map (·, 5)
  | 'U' :: rest => (hexNumber? 8 rest).bind fun n => (charOfNumber? n).map (·, 9)
  | x :: _ => (shortEscapes.lookup x).map (·, 1)
  | [] => none

/-- Takes what stands in quotes up to a gap or the end of the quotes. The last part says whether an
escaped line break ends it. -/
def takeQuotedWord (double : Bool) : Nat → List Char → Cursor → Option (List Char × Cursor × Bool)
  | 0, _, _ => none
  | fuel + 1, text, c =>
    match double, c.rest with
    | _, [] => some (text, c, false)
    | false, '\'' :: '\'' :: _ => takeQuotedWord double fuel (text ++ ['\'']) (c.skip 2)
    | false, '\'' :: _ => some (text, c, false)
    | true, '"' :: _ => some (text, c, false)
    | true, '\\' :: rest =>
      if rest.head?.any isBreak then some (text, (c.skip 1).skipBreak, true)
      else match escape? rest with
        | some (x, n) => takeQuotedWord double fuel (text ++ [x]) (c.skip (n + 1))
        | none => none
    | _, x :: _ =>
      if isGap x then some (text, c, false)
      else takeQuotedWord double fuel (text ++ [x]) (c.skip 1)

/-- Takes a quoted scalar behind its first quote. -/
def takeQuoted (double : Bool) : Nat → List Char → Cursor → Option Reading
  | 0, _, _ => none
  | fuel + 1, text, c =>
    if c.column = 0 && atDocumentMarker c.rest then none
    else match takeQuotedWord double (c.rest.length + 1) text c with
      | none => none
      | some (text, c, escapedBreak) =>
        if c.startsWith (if double then '"' else '\'') then some ⟨text, c.skip 1, false⟩
        else if c.rest.isEmpty then none
        else
          let gap : Gap := if escapedBreak then ⟨[], some [], []⟩ else .empty
          match Gap.take 0 (c.rest.length + 1) gap c with
          | none => none
          | some (gap, c) => takeQuoted double fuel (text ++ gap.text) c

/-! ## Block scalars -/

/-- What happens to the line breaks at the end of a block. -/
inductive Chomping where
  | strip
  | clip
  | keep
  deriving DecidableEq, Repr, Inhabited

def Chomping.ofChar? : Char → Option Chomping
  | '-' => some .strip
  | '+' => some .keep
  | _ => none

/-- The indentation of an indicator: a digit that is not zero. -/
def indentOfChar? (c : Char) : Option Nat :=
  if c.isDigit && c ≠ '0' then some (c.toNat - 0x30) else none

/-- Reads the indicators of a block in either order. -/
def takeIndicators? (c : Cursor) : Option (Chomping × Option Nat × Cursor) :=
  let digit? (c : Cursor) : Option (Option Nat × Cursor) :=
    match c.rest.head? with
    | some x => if x.isDigit then (indentOfChar? x).map fun n => (some n, c.skip 1) else some (none, c)
    | none => some (none, c)
  match c.rest.head?.bind Chomping.ofChar? with
  | some chomping => (digit? (c.skip 1)).map fun (n, c) => (chomping, n, c)
  | none =>
    match digit? c with
    | none => none
    | some (none, c) => some (.clip, none, c)
    | some (some n, c) =>
      match c.rest.head?.bind Chomping.ofChar? with
      | some chomping => some (chomping, some n, c.skip 1)
      | none => some (.clip, some n, c)

/-- Takes the empty lines before a line of a block. Without a known indentation, the deepest column
is found; a tab in the indentation is an error. -/
def takeEmptyLines (indent : Option Nat) : Nat → Nat → List Char → Cursor →
    Option (Nat × List Char × Cursor)
  | 0, deepest, breaks, c => some (deepest, breaks, c)
  | fuel + 1, deepest, breaks, c =>
    let spaces := (c.rest.takeWhile (· = ' ')).length
    let c := c.skip <| match indent with
      | none => spaces
      | some n => min spaces (n - c.column)
    let deepest := max deepest c.column
    if c.startsWith '\t' && (indent.all fun n => c.column < n) then none
    else match c.takeBreak? with
      | some (b, c) => takeEmptyLines indent fuel deepest (breaks ++ b) c
      | none => some (deepest, breaks, c)

/-- The line break before the next line of a folded block, when the lines around it do not begin
with a blank and no empty lines follow, is a blank. -/
def foldedBreak (leading trailing : List Char) (blankAround : Bool) : List Char :=
  if leading.head? == some '\n' && !blankAround then
    (if trailing.isEmpty then [' '] else []) ++ trailing
  else leading ++ trailing

/-- Takes the lines of a block: its text, and the breaks behind it. -/
def takeLines (literal : Bool) (indent : Nat) : Nat → List Char → List Char → List Char → Bool →
    Cursor → Option (List Char × List Char × List Char × Cursor)
  | 0, _, _, _, _, _ => none
  | fuel + 1, text, leading, trailing, leadingBlank, c =>
    if c.column ≠ indent || c.rest.isEmpty then some (text, leading, trailing, c)
    else
      let blank := c.rest.head?.any isBlank
      let text := text ++
        (if literal then leading ++ trailing else foldedBreak leading trailing (leadingBlank || blank))
      let (line, c) := c.takeWhile (fun x => !isBreak x)
      let (leading, c) := (c.takeBreak?).getD ([], c)
      match takeEmptyLines (some indent) (c.rest.length + 1) 0 [] c with
      | none => none
      | some (_, trailing, c) => takeLines literal indent fuel (text ++ line) leading trailing blank c

/-- Takes a block scalar behind its first indicator, inside a collection at column `parent`. -/
def takeBlock (literal : Bool) (parent : Option Nat) (c : Cursor) : Option Reading :=
  match takeIndicators? c with
  | none => none
  | some (chomping, increment, c) =>
    let c := (c.skipWhile isBlank).skipComment
    if !atBreakOrEnd c.rest then none
    else
      let c := c.skipBreak
      let known := increment.map fun n => n + parent.getD 0
      match takeEmptyLines known (c.rest.length + 1) 0 [] c with
      | none => none
      | some (deepest, trailing, c) =>
        let indent := known.getD (max deepest (max 1 ((parent.map (· + 1)).getD 0)))
        match takeLines literal indent (c.rest.length + 1) [] [] trailing false c with
        | none => none
        | some (text, leading, trailing, c) =>
          some ⟨text ++ (if chomping = .strip then [] else leading) ++
            (if chomping = .keep then trailing else []), c, true⟩

end ContainerHost.Yaml
