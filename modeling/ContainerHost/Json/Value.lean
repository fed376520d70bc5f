import ContainerHost.Json.Numeral
import ContainerHost.Table
/-!
# JSON values and documents

A `Document` is a JSON text as it is written: repeated members are all there, and so are numbers
and strings that stand for nothing. A `Value` is what such a text means: members are sorted by name
and the last of a name wins. `Document.value?` reads the meaning off.
-/

namespace ContainerHost.Json

/-- What a JSON text means. -/
inductive Value where
  | null
  | bool (b : Bool)
  | number (n : Number)
  | str (s : String)
  | arr (items : List Value)
  | obj (members : List (String × Value))
  deriving Inhabited, Repr

/-- A JSON text as it is written. A string with half a surrogate pair has no text, and a numeral
beyond the largest number has no number. -/
inductive Document where
  | null
  | bool (b : Bool)
  | number (n : Option Number)
  | str (s : Option String)
  | arr (items : List Document)
  | obj (members : List (Option String × Document))
  deriving Inhabited, Repr

namespace Value

def int (i : Int) : Value := .number (.int i)

def nat (n : Nat) : Value := .number (.int n)

/-- An object of members, the last of a name winning. -/
def object (members : List (String × Value)) : Value := .obj (Table.ofList members).entries

def optionalStr : Option String → Value
  | none => .null
  | some s => .str s

def member? : Value → String → Option Value
  | .obj members, k => (members.find? (·.1 == k)).map (·.2)
  | _, _ => none

end Value

namespace Document

mutual
/-- What the document means, if all its numerals and strings stand for something. -/
def value? : Document → Option Value
  | .null => some .null
  | .bool b => some (.bool b)
  | .number n => n.map .number
  | .str s => s.map .str
  | .arr items => (values? items).map .arr
  | .obj members => (members? members).map .object

def values? : List Document → Option (List Value)
  | [] => some []
  | d :: ds => do
    let v ← value? d
    let vs ← values? ds
    some (v :: vs)

def members? : List (Option String × Document) → Option (List (String × Value))
  | [] => some []
  | (k, d) :: ms => do
    let k ← k
    let v ← value? d
    let vs ← members? ms
    some ((k, v) :: vs)
end

mutual
def ofValue : Value → Document
  | .null => .null
  | .bool b => .bool b
  | .number n => .number (some n)
  | .str s => .str (some s)
  | .arr items => .arr (ofValues items)
  | .obj members => .obj (ofMembers members)

def ofValues : List Value → List Document
  | [] => []
  | v :: vs => ofValue v :: ofValues vs

def ofMembers : List (String × Value) → List (Option String × Document)
  | [] => []
  | (k, v) :: ms => (some k, ofValue v) :: ofMembers ms
end

end Document
end ContainerHost.Json
