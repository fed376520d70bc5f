import ContainerHost.Yaml.Token
/-!
# YAML documents

What the tokens of a text make up: scalars, sequences and mappings, with their tags, and aliases
for what was named before. `Document.ofText?` reads all documents of a text.
-/

namespace ContainerHost.Yaml

/-- A part of a document. An alias stands for the part with its number. -/
inductive Node where
  | scalar (tag : Option String) (style : Style) (text : String)
  | sequence (tag : Option String) (items : List Node)
  | mapping (tag : Option String) (entries : List (Node × Node))
  | alias (target : Nat)
  deriving Inhabited, Repr

/-- Nothing where something could stand. -/
def Node.empty : Node := .scalar none .plain ""

/-- A document, with its named parts by their numbers. -/
structure Document where
  root : Node
  named : List (Nat × Node)
  deriving Inhabited, Repr

/-- What an alias stands for; other parts stand for themselves. -/
def Document.resolve (d : Document) : Node → Node
  | .alias n => (d.named.lookup n).getD .empty
  | n => n

/-- Tokens that are left, the handles of tags, and the names that were given. -/
structure Feed where
  tokens : List Token
  handles : List (List Char × List Char)
  anchors : List (List Char × Nat)
  named : List (Nat × Node)
  deriving Inhabited

/-- Reads something from the tokens, or fails. -/
abbrev Read (α : Type) : Type := StateT Feed Option α

namespace Read

def peek : Read Token := do return (← get).tokens.headD .streamEnd

def drop : Read Unit := modify fun f => { f with tokens := f.tokens.drop 1 }

/-- Leaves a token out if it is this one; says whether it was. -/
def accept (t : Token) : Read Bool := do
  if (← peek) = t then
    drop
    return true
  else return false

/-- The next token is one of these. -/
def ahead (ts : List Token) : Read Bool := do return ts.contains (← peek)

/-! ## Properties of a node -/

/-- The handles that need no directive. -/
def standardHandles : List (List Char × List Char) :=
  [(['!'], ['!']), (['!', '!'], "tag:yaml.org,2002:".toList)]

def fullTag (handle suffix : List Char) : Read String := do
  if handle.isEmpty then return String.ofList suffix
  else match (← get).handles.lookup handle with
    | some stem => return String.ofList (stem ++ suffix)
    | none => failure

def tag? : Read (Option String) := do
  match ← peek with
  | .tag handle suffix =>
    drop
    return some (← fullTag handle suffix)
  | _ => return none

def anchor? : Read (Option (List Char)) := do
  match ← peek with
  | .anchor name =>
    drop
    return some name
  | _ => return none

/-- Takes a name and a tag in either order. -/
def properties : Read (Option (List Char) × Option String) := do
  match ← anchor? with
  | some name => return (some name, ← tag?)
  | none =>
    match ← tag? with
    | some tag => return (← anchor?, some tag)
    | none => return (none, none)

/-- Gives a name a number: as many names as are in use. -/
def register (name : List Char) : Read Nat := do
  let f ← get
  let number := f.anchors.length
  set { f with anchors := (name, number) :: f.anchors.filter (·.1 ≠ name) }
  return number

/-- The tag of a scalar: the mark that excludes one is none. -/
def scalarTag (tag : Option String) : Option String := tag.filter (· ≠ "!")

/-! ## Nodes -/

mutual
/-- Takes a node; a block may stand where `block` says so, and a sequence without indentation of
its own where `indentless` does. -/
def node (block indentless : Bool) : Nat → Read Node
  | 0 => failure
  | fuel + 1 => do
    match ← peek with
    | .alias name =>
      drop
      match (← get).anchors.lookup name with
      | some n => return .alias n
      | none => failure
    | _ =>
      let (name, tag) ← properties
      match name with
      | none => content block indentless name.isSome tag fuel
      | some name =>
        let number ← register name
        let n ← content block indentless true tag fuel
        modify fun f => { f with named := (number, n) :: f.named }
        return n

/-- Takes a node behind its properties. -/
def content (block indentless named : Bool) (tag : Option String) : Nat → Read Node
  | 0 => failure
  | fuel + 1 => do
    match ← peek, block with
    | .scalar style text, _ =>
      drop
      return .scalar (scalarTag tag) style (String.ofList text)
    | .blockEntry, _ =>
      if indentless then return .sequence tag (← indentlessItems fuel)
      else if named || tag.isSome then return .scalar (scalarTag tag) .plain ""
      else failure
    | .flowSequenceStart, _ =>
      drop
      return .sequence tag (← flowItems true fuel)
    | .flowMappingStart, _ =>
      drop
      return .mapping tag (← flowEntries true fuel)
    | .blockSequenceStart, true =>
      drop
      return .sequence tag (← blockItems fuel)
    | .blockMappingStart, true =>
      drop
      return .mapping tag (← blockEntries fuel)
    | _, _ =>
      if named || tag.isSome then return .scalar (scalarTag tag) .plain "" else failure

def nodeUnless (ends : List Token) (block indentless : Bool) : Nat → Read Node
  | 0 => failure
  | fuel + 1 => do
    if ← ahead ends then return .empty else node block indentless fuel

def blockItems : Nat → Read (List Node)
  | 0 => failure
  | fuel + 1 => do
    if ← accept .blockEntry then
      let item ← nodeUnless [.blockEntry, .blockEnd] true false fuel
      return item :: (← blockItems fuel)
    else if ← accept .blockEnd then return []
    else failure

/-- Takes the items of a sequence that ends where no further item begins. -/
def indentlessItems : Nat → Read (List Node)
  | 0 => failure
  | fuel + 1 => do
    if ← accept .blockEntry then
      let item ← nodeUnless [.blockEntry, .key, .value, .blockEnd] true false fuel
      return item :: (← indentlessItems fuel)
    else return []

def blockEntries : Nat → Read (List (Node × Node))
  | 0 => failure
  | fuel + 1 => do
    if ← accept .key then
      let key ← nodeUnless [.key, .value, .blockEnd] true true fuel
      let value ←
        if ← accept .value then nodeUnless [.key, .value, .blockEnd] true true fuel
        else pure .empty
      return (key, value) :: (← blockEntries fuel)
    else if ← accept .blockEnd then return []
    else failure

def flowItems (first : Bool) : Nat → Read (List Node)
  | 0 => failure
  | fuel + 1 => do
    if ← accept .flowSequenceEnd then return []
    if !first then
      if !(← accept .flowEntry) then failure
      if ← accept .flowSequenceEnd then return []
    let item ←
      if ← accept .key then singleEntry fuel else node false false fuel
    return item :: (← flowItems false fuel)

/-- Takes a mapping of one entry that is an item of a sequence. A key that is not there costs the
token in its place. -/
def singleEntry : Nat → Read Node
  | 0 => failure
  | fuel + 1 => do
    let key ←
      if ← ahead [.value, .flowEntry, .flowSequenceEnd] then do
        drop
        pure .empty
      else node false false fuel
    let value ←
      if ← accept .value then nodeUnless [.flowEntry, .flowSequenceEnd] false false fuel
      else pure .empty
    return .mapping none [(key, value)]

def flowEntries (first : Bool) : Nat → Read (List (Node × Node))
  | 0 => failure
  | fuel + 1 => do
    if ← accept .flowMappingEnd then return []
    if !first then
      if !(← accept .flowEntry) then failure
      if ← accept .flowMappingEnd then return []
    let entry ←
      if ← accept .key then do
        let key ← nodeUnless [.value, .flowEntry, .flowMappingEnd] false false fuel
        let value ←
          if ← accept .value then nodeUnless [.flowEntry, .flowMappingEnd] false false fuel
          else pure .empty
        pure (key, value)
      else do
        let key ← node false false fuel
        pure (key, .empty)
    return entry :: (← flowEntries false fuel)
end

/-! ## Documents -/

/-- Takes directives; says whether there were any. -/
def directives (hasVersion : Bool) : Nat → Read Bool
  | 0 => failure
  | fuel + 1 => do
    match ← peek with
    | .version major minor =>
      if hasVersion || major ≠ 1 || (minor ≠ 1 && minor ≠ 2) then failure
      drop
      let _ ← directives true fuel
      return true
    | .tagDirective handle stem =>
      if ((← get).handles.lookup handle).isSome then failure
      drop
      modify fun f => { f with handles := (handle, stem) :: f.handles }
      let _ ← directives hasVersion fuel
      return true
    | _ => return false

def isOutermost : Token → Bool
  | .version .. => true
  | .tagDirective .. => true
  | .documentStart => true
  | .documentEnd => true
  | .streamEnd => true
  | _ => false

/-- Takes the contents of a document and the marker of its end. A document with a marker of its start
may be empty. -/
def contents (explicit : Bool) (fuel : Nat) : Read Document := do
  let root ←
    if explicit && isOutermost (← peek) then pure .empty else node true false fuel
  let _ ← accept .documentEnd
  return ⟨root, (← get).named⟩

/-- Leaves markers of ends out. -/
def skipEnds : Nat → Read Unit
  | 0 => return
  | fuel + 1 => do
    if ← accept .documentEnd then skipEnds fuel

/-- Takes all documents that are left. Only the first needs no marker of its start. -/
def documents (first : Bool) : Nat → Read (List Document)
  | 0 => failure
  | fuel + 1 => do
    if !first then skipEnds fuel
    modify fun f => { f with handles := [], anchors := [], named := [] }
    if (← peek) = .streamEnd then return []
    let directed ← directives false fuel
    let explicit ← accept .documentStart
    if !explicit && (directed || !first) then failure
    modify fun f => { f with handles := f.handles ++ standardHandles }
    let d ← contents explicit fuel
    return d :: (← documents false fuel)

end Read

def Document.ofTokens? (ts : List Token) : Option (List Document) :=
  ((Read.documents true (4 * ts.length + 8)).run ⟨ts, [], [], []⟩).map (·.1)

def Document.ofText? (s : String) : Option (List Document) := (Token.ofText? s).bind ofTokens?

end ContainerHost.Yaml
