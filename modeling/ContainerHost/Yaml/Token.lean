import ContainerHost.Text.Utf8
import ContainerHost.Yaml.Scalar
/-!
# Tokens of YAML

The indicators and scalars of a text, with the tokens that stand for its indentation: a block
begins where something stands further right than the block around it, and ends where something
stands further left. A colon makes what stands before it in its line a key, so the tokens of a key
are put in front of it when the colon is found.
-/

namespace ContainerHost.Yaml

inductive Token where
  | streamEnd
  | version (major minor : Nat)
  | tagDirective (handle stem : List Char)
  | documentStart
  | documentEnd
  | blockSequenceStart
  | blockMappingStart
  | blockEnd
  | flowSequenceStart
  | flowSequenceEnd
  | flowMappingStart
  | flowMappingEnd
  | blockEntry
  | flowEntry
  | key
  | value
  | alias (name : List Char)
  | anchor (name : List Char)
  | tag (handle suffix : List Char)
  | scalar (style : Style) (text : List Char)
  deriving DecidableEq, Repr, Inhabited

/-- Something that is a key if a colon follows it: the number of its first token, and where it
begins. In a block it must be one if it stands where the keys of the block stand. -/
structure PossibleKey where
  required : Bool
  position : Nat
  index : Nat
  line : Nat
  column : Nat
  deriving Repr, Inhabited

/-- A text on the way to its tokens. `indent` is the column of the innermost block, `keys` has the
possible key of each level of brackets, the innermost first. -/
structure Lexer where
  cursor : Cursor
  tokens : Array Token
  indent : Option Nat
  outer : List (Option Nat)
  keyAllowed : Bool
  keys : List (Option PossibleKey)
  deriving Inhabited

namespace Lexer

def start (cs : List Char) : Lexer := ⟨.start cs, #[], none, [], true, [none]⟩

def inFlow (l : Lexer) : Bool := l.keys.length > 1

def push (l : Lexer) (t : Token) : Lexer := { l with tokens := l.tokens.push t }

/-- A token of some characters; says whether a key may follow. -/
def mark (l : Lexer) (t : Token) (n : Nat) (keyAllowed : Bool) : Lexer :=
  { l with cursor := l.cursor.skip n, tokens := l.tokens.push t, keyAllowed := keyAllowed }

/-! ## Indentation -/

/-- A column is further right than the innermost block. -/
def isDeeper (l : Lexer) (column : Nat) : Bool := l.indent.all fun n => n < column

/-- Begins a block at a column that is further right than the innermost block; its token is put at a
position. -/
def openBlock (l : Lexer) (column position : Nat) (t : Token) : Lexer :=
  if l.inFlow || !l.isDeeper column then l
  else { l with
    indent := some column
    outer := l.indent :: l.outer
    tokens := l.tokens.insertIdxIfInBounds position t }

def closeBlocks (column : Option Nat) : List (Option Nat) → Option Nat → Array Token →
    Option Nat × List (Option Nat) × Array Token
  | [], indent, tokens => (indent, [], tokens)
  | next :: outer, indent, tokens =>
    match indent with
    | none => (none, next :: outer, tokens)
    | some n =>
      if column.all fun c => c < n then closeBlocks column outer next (tokens.push .blockEnd)
      else (some n, next :: outer, tokens)

/-- Ends the blocks that are further right than a column, unless inside brackets. -/
def dedent (l : Lexer) (column : Option Nat) : Lexer :=
  if l.inFlow then l
  else
    let (indent, outer, tokens) := closeBlocks column l.outer l.indent l.tokens
    { l with indent := indent, outer := outer, tokens := tokens }

/-! ## Keys -/

/-- A possible key that cannot have its colon any more: it was in an earlier line, or too far
back. -/
def isStale (c : Cursor) (k : PossibleKey) : Bool := k.line < c.line || k.index + 1024 < c.index

/-- Gives up the possible keys that are stale; one that must be a key is an error. -/
def dropStale (l : Lexer) : Option Lexer := do
  let keys ← l.keys.mapM fun k =>
    match k with
    | none => some none
    | some k =>
      if isStale l.cursor k then if k.required then none else some none
      else some (some k)
  some { l with keys := keys }

/-- Gives up the possible key of the innermost level. -/
def dropKey (l : Lexer) : Option Lexer :=
  match l.keys with
  | some k :: rest => if k.required then none else some { l with keys := none :: rest }
  | _ => some l

/-- What begins here may be a key. -/
def saveKey (l : Lexer) : Option Lexer :=
  if !l.keyAllowed then some l
  else do
    let l ← l.dropKey
    let c := l.cursor
    let key : PossibleKey :=
      ⟨!l.inFlow && l.indent = some c.column, l.tokens.size, c.index, c.line, c.column⟩
    some { l with keys := some key :: l.keys.drop 1 }

/-! ## Blanks, breaks and comments -/

/-- Leaves out what stands between tokens. Where a key may begin, tabs are not blanks. -/
def skipGap : Nat → Lexer → Lexer
  | 0, l => l
  | fuel + 1, l =>
    let tabs := l.inFlow || !l.keyAllowed
    let c := l.cursor
    let c := if c.index = 0 && c.startsWith '\ufeff' then c.skip 1 else c
    let c := (c.skipWhile fun x => x = ' ' || (tabs && x = '\t')).skipComment
    match c.takeBreak? with
    | some (_, c) => skipGap fuel { l with cursor := c, keyAllowed := l.keyAllowed || !l.inFlow }
    | none => { l with cursor := c }

/-! ## Directives, tags and anchors -/

/-- Takes a number of at most nine digits. -/
def takeNumber? (c : Cursor) : Option (Nat × Cursor) :=
  let (ds, c) := c.takeWhile Char.isDigit
  if ds.isEmpty || ds.length > 9 then none
  else some (ds.foldl (fun n d => n * 10 + (d.toNat - 0x30)) 0, c)

/-- The character may stand in a tag; some only in tags that are marked off. -/
def isTagChar (markedOff : Bool) (c : Char) : Bool :=
  isWordChar c || ";/?:@&=+$.%!~*'()".contains c || (markedOff && ",[]".contains c)

/-- Reads escaped bytes in front of a text as one character; returns the rest of the text. -/
def takeEscapedChar? (cs : List Char) : Option (Char × Nat) :=
  let byte? (k : Nat) : Option UInt8 :=
    match cs.drop (3 * k) with
    | '%' :: rest => (hexNumber? 2 rest).map UInt8.ofNat
    | _ => none
  (byte? 0).bind fun first =>
    let n := if first < 0x80 then 1 else if first < 0xe0 then 2 else if first < 0xf0 then 3 else 4
    ((List.range n).mapM byte?).bind fun bytes =>
      match String.fromUTF8? ⟨bytes.toArray⟩ with
      | some s =>
        match s.toList with
        | [c] => some (c, 3 * n)
        | _ => none
      | none => none

/-- Takes the characters of a tag. -/
def takeTagText (markedOff : Bool) : Nat → List Char → Cursor → Option (List Char × Cursor)
  | 0, text, c => some (text, c)
  | fuel + 1, text, c =>
    match c.rest.head? with
    | none => some (text, c)
    | some x =>
      if x = '%' then
        match takeEscapedChar? c.rest with
        | some (y, n) => takeTagText markedOff fuel (text ++ [y]) (c.skip n)
        | none => none
      else if isTagChar markedOff x then takeTagText markedOff fuel (text ++ [x]) (c.skip 1)
      else some (text, c)

/-- Takes the characters of a tag behind those that are known; there has to be one. -/
def takeTag? (markedOff : Bool) (known : List Char) (c : Cursor) : Option (List Char × Cursor) :=
  match takeTagText markedOff c.rest.length known c with
  | some (text, c') => if known.isEmpty && c'.index = c.index then none else some (text, c')
  | none => none

/-- Takes the handle of a tag: words between exclamation marks, of which the second may be
missing. -/
def takeHandle? (directive : Bool) (c : Cursor) : Option (List Char × Cursor) :=
  if !c.startsWith '!' then none
  else
    let (word, c) := (c.skip 1).takeWhile isWordChar
    if c.startsWith '!' then some ('!' :: word ++ ['!'], c.skip 1)
    else if directive && !word.isEmpty then none
    else some ('!' :: word, c)

def takeDirective? (c : Cursor) : Option (Token × Cursor) := do
  let (name, c) := (c.skip 1).takeWhile isWordChar
  if name.isEmpty || !atGapOrEnd c.rest then none
  let c := c.skipWhile isBlank
  let (token, c) ←
    if name = "YAML".toList then do
      let (major, c) ← takeNumber? c
      if !c.startsWith '.' then none
      let (minor, c) ← takeNumber? (c.skip 1)
      some (Token.version major minor, c)
    else if name = "TAG".toList then do
      let (handle, c) ← takeHandle? true c
      if !c.rest.head?.any isBlank then none
      let (stem, c) ← takeTag? true [] (c.skipWhile isBlank)
      if !atGapOrEnd c.rest then none
      some (Token.tagDirective handle stem, c)
    else none
  let c := (c.skipWhile isBlank).skipComment
  if !atBreakOrEnd c.rest then none
  some (token, c.skipBreak)

def takeTagToken? (inFlow : Bool) (c : Cursor) : Option (Token × Cursor) := do
  let (token, c) ←
    if c.rest[1]? = some '<' then do
      let (suffix, c) ← takeTag? true [] (c.skip 2)
      if !c.startsWith '>' then none
      some (Token.tag [] suffix, c.skip 1)
    else do
      let (handle, c') ← takeHandle? false c
      if handle.length > 1 && handle.getLast? = some '!' then do
        let (suffix, c) ← takeTag? false [] c'
        some (Token.tag handle suffix, c)
      else do
        let (suffix, c) ← takeTag? false (handle.drop 1) c' <|> some ([], c')
        some (if suffix.isEmpty then Token.tag [] ['!'] else Token.tag ['!'] suffix, c)
  if atGapOrEnd c.rest || (inFlow && c.startsWith ',') then some (token, c) else none

/-- Takes the name of an anchor or an alias. -/
def takeName? (c : Cursor) : Option (List Char × Cursor) :=
  let (name, c) := (c.skip 1).takeWhile isWordChar
  let ends := atGapOrEnd c.rest || c.rest.head?.any fun x => "?:,]\x7d%@`".contains x
  if name.isEmpty || !ends then none else some (name, c)

/-! ## All tokens -/

def withKey (l : Lexer) (read : Cursor → Option (Token × Cursor)) : Option Lexer := do
  let l ← l.saveKey
  let (t, c) ← read l.cursor
  some { l with cursor := c, tokens := l.tokens.push t, keyAllowed := false }

/-- Begins a collection in brackets. -/
def openFlow (l : Lexer) (t : Token) : Option Lexer := do
  let l ← l.saveKey
  some ({ l with keys := none :: l.keys }.mark t 1 true)

/-- Ends a collection in brackets. -/
def closeFlow (l : Lexer) (t : Token) : Option Lexer := do
  let l ← l.dropKey
  let keys := if l.inFlow then l.keys.drop 1 else l.keys
  some ({ l with keys := keys }.mark t 1 false)

def blockEntry (l : Lexer) : Option Lexer := do
  if !l.inFlow && !l.keyAllowed then none
  let l ← (l.openBlock l.cursor.column l.tokens.size .blockSequenceStart).dropKey
  some (l.mark .blockEntry 1 true)

def keyMark (l : Lexer) : Option Lexer := do
  if !l.inFlow && !l.keyAllowed then none
  let l ← (l.openBlock l.cursor.column l.tokens.size .blockMappingStart).dropKey
  some (l.mark .key 1 (!l.inFlow))

/-- Begins a value: what stands before it is its key, if it may be one. -/
def valueMark (l : Lexer) : Option Lexer :=
  match l.keys with
  | some k :: rest =>
    let l := { l with tokens := l.tokens.insertIdxIfInBounds k.position .key, keys := none :: rest }
    some ((l.openBlock k.column k.position .blockMappingStart).mark .value 1 false)
  | _ =>
    if !l.inFlow && !l.keyAllowed then none
    else some ((l.openBlock l.cursor.column l.tokens.size .blockMappingStart).mark .value 1 (!l.inFlow))

def quoted (l : Lexer) (double : Bool) : Option Lexer :=
  l.withKey fun c => (takeQuoted double (c.rest.length + 1) [] (c.skip 1)).map fun r =>
    (.scalar (if double then .doubleQuoted else .singleQuoted) r.text, r.cursor)

def block (l : Lexer) (literal : Bool) : Option Lexer := do
  let l ← l.dropKey
  let r ← takeBlock literal l.indent (l.cursor.skip 1)
  some { l with
    cursor := r.cursor
    tokens := l.tokens.push (.scalar (if literal then .literal else .folded) r.text)
    keyAllowed := true }

def plain (l : Lexer) : Option Lexer := do
  let l ← l.saveKey
  let indent := (l.indent.map (· + 1)).getD 0
  let r ← takePlain l.inFlow indent (l.cursor.rest.length + 1) [] .empty l.cursor
  some { l with
    cursor := r.cursor
    tokens := l.tokens.push (.scalar .plain r.text)
    keyAllowed := r.brokeLine }

/-- A character with a meaning of its own, which cannot begin a plain scalar. -/
def isIndicator (c : Char) : Bool := "-?:,[]\x7b\x7d#&*!|>'\"%@`".contains c

/-- A plain scalar can begin here. -/
def startsPlain (inFlow : Bool) : List Char → Bool
  | [] => false
  | x :: rest =>
    (!isGap x && !isIndicator x) || (x = '-' && !rest.head?.any isBlank) ||
    (!inFlow && (x = '?' || x = ':') && !atGapOrEnd rest)

/-- A marker or a directive, which ends all blocks. -/
def outermost (l : Lexer) (read : Cursor → Option (Token × Cursor)) : Option Lexer := do
  let l ← (l.dedent none).dropKey
  let (t, c) ← read l.cursor
  some { l with cursor := c, tokens := l.tokens.push t, keyAllowed := false }

/-- Takes the next token; `none` stands for a text that is no YAML. -/
def step (l : Lexer) : Option Lexer :=
  let c := l.cursor
  match c.rest with
  | [] => none
  | x :: rest =>
    if c.column = 0 && x = '%' then l.outermost takeDirective?
    else if c.column = 0 && atMarker '-' c.rest then
      l.outermost fun c => some (.documentStart, c.skip 3)
    else if c.column = 0 && atMarker '.' c.rest then l.outermost fun c => some (.documentEnd, c.skip 3)
    else if x = '[' then l.openFlow .flowSequenceStart
    else if x = '\x7b' then l.openFlow .flowMappingStart
    else if x = ']' then l.closeFlow .flowSequenceEnd
    else if x = '\x7d' then l.closeFlow .flowMappingEnd
    else if x = ',' then l.dropKey.map fun l => l.mark .flowEntry 1 true
    else if x = '-' && atGapOrEnd rest then l.blockEntry
    else if x = '?' && (l.inFlow || atGapOrEnd rest) then l.keyMark
    else if x = ':' && (l.inFlow || atGapOrEnd rest) then l.valueMark
    else if x = '*' then l.withKey fun c => (takeName? c).map fun (n, c) => (.alias n, c)
    else if x = '&' then l.withKey fun c => (takeName? c).map fun (n, c) => (.anchor n, c)
    else if x = '!' then l.withKey (takeTagToken? l.inFlow)
    else if x = '|' && !l.inFlow then l.block true
    else if x = '>' && !l.inFlow then l.block false
    else if x = '\'' then l.quoted false
    else if x = '"' then l.quoted true
    else if startsPlain l.inFlow c.rest then l.plain
    else none

def finish (l : Lexer) : Option (List Token) := do
  let l ← (l.dedent none).dropKey
  some (l.push .streamEnd).tokens.toList

/-- Takes tokens to the end of the text. -/
def run : Nat → Lexer → Option (List Token)
  | 0, _ => none
  | fuel + 1, l =>
    let l := skipGap (l.cursor.rest.length + 1) l
    match l.dropStale with
    | none => none
    | some l =>
      let l := l.dedent (some l.cursor.column)
      if l.cursor.rest.isEmpty then l.finish
      else match l.step with
        | none => none
        | some l => run fuel l

end Lexer

/-- The tokens of a text, if it has any. A mark of byte order at its beginning is no part of it. -/
def Token.ofText? (s : String) : Option (List Token) :=
  let cs := match s.toList with
    | '\ufeff' :: rest => rest
    | cs => cs
  if cs.all isAllowed then Lexer.run (cs.length + 1) (.start cs) else none

end ContainerHost.Yaml
