import ContainerHost.Text.Hex
import ContainerHost.Yaml.Document
/-!
# Values in YAML documents

Reading parts of a document as values of known types. Numbers, truth values and the absence of a
value are plain scalars of certain spellings; a text is any scalar, as it stands.
-/

namespace ContainerHost.Yaml

/-! ## Spellings -/

/-- The spellings of the absence of a value. -/
def isNullWord (s : String) : Bool := ["null", "Null", "NULL", "~"].contains s

/-- The spellings of truth values. -/
def boolOfWord? (s : String) : Option Bool :=
  if ["true", "True", "TRUE"].contains s then some true
  else if ["false", "False", "FALSE"].contains s then some false
  else none

/-- The number that a nonempty run of digits to a base stands for. -/
def digitsOfBase? (base : Nat) (cs : List Char) : Option Nat :=
  if cs.isEmpty then none
  else cs.foldl (fun acc c => do
    let n ← acc
    let d ← Text.Hex.value? c
    if d < base then some (n * base + d) else none) (some 0)

/-- The digits behind the mark of a base: `0x`, `0o` or `0b`. -/
def baseAndDigits : List Char → Nat × List Char
  | '0' :: 'x' :: rest => (16, rest)
  | '0' :: 'o' :: rest => (8, rest)
  | '0' :: 'b' :: rest => (2, rest)
  | cs => (10, cs)

/-- Digits that begin with a zero and are no number for that reason. -/
def isPaddedNumber : List Char → Bool
  | '0' :: c :: rest => (c :: rest).all Char.isDigit
  | _ => false

def magnitude? (cs : List Char) : Option Nat :=
  if isPaddedNumber cs then none
  else
    let (base, digits) := baseAndDigits cs
    digitsOfBase? base digits

/-- A number without a sign or with a plus, of at most sixty-four bits. -/
def natOfWord? (s : String) : Option Nat :=
  let n? := match s.toList with
    | '+' :: rest => magnitude? rest
    | cs => magnitude? cs
  n?.filter (· < 1 <<< 64)

/-! ## Reading -/

namespace Node

def text? : Node → Option String
  | .scalar _ _ text => some text
  | _ => none

/-- The text of a scalar that may be a value of a type with a tag: it is plain, or a literal block
with the tag. -/
def word? (type : String) : Node → Option String
  | .scalar _ .plain text => some text
  | .scalar (some tag) .literal text => if tag = "tag:yaml.org,2002:" ++ type then some text else none
  | _ => none

/-- A number of at most sixty-four bits. -/
def nat? (n : Node) : Option Nat := (n.word? "int").bind natOfWord?

def bool? (n : Node) : Option Bool := (n.word? "bool").bind boolOfWord?

def optionalText? : Node → Option (Option String)
  | .scalar tag .plain text =>
    if tag = some "tag:yaml.org,2002:null" then if isNullWord text then some none else none
    else if tag.isNone && (text.isEmpty || isNullWord text) then some none
    else some (some text)
  | .scalar _ _ text => some (some text)
  | _ => none

/-- The name of one of several alternatives: a text, or a tag of its own on nothing. -/
def alternative? : Node → Option String
  | .scalar tag style text =>
    match (tag.getD "").toList with
    | '!' :: name =>
      if style = .plain && (text.isEmpty || isNullWord text) then some (String.ofList name) else none
    | _ => some text
  | _ => none

end Node

namespace Document

/-- The values of a record's fields, `none` for a field that is not there. Nothing at all is a record
without fields; a field may not be there twice, and others are ignored. -/
def fields? (d : Document) (names : List String) : Option (List (Option Node)) :=
  match d.resolve d.root with
  | .scalar _ .plain "" => some (names.map fun _ => none)
  | .mapping _ entries => do
    let entries ← entries.mapM fun e => (d.resolve e.1).text?.map (·, d.resolve e.2)
    names.mapM fun name =>
      match entries.filter (·.1 == name) with
      | [] => some none
      | [e] => some (some e.2)
      | _ => none
  | _ => none

end Document
end ContainerHost.Yaml
