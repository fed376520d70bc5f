import ContainerHost.Json.Value
/-!
# Records in JSON

Reading documents as values of known types. A record is written as an object, in which each of its
fields stands at most once and other members are ignored, or as an array of its fields in order,
which may end early but not late. `Document.fields?` reads either form.
-/

namespace ContainerHost.Json.Document

def bool? : Document → Option Bool
  | .bool b => some b
  | _ => none

/-- A natural number of at most sixty-four bits, written as an integer. -/
def nat? : Document → Option Nat
  | .number (some (.int (.ofNat n))) => if n < 1 <<< 64 then some n else none
  | _ => none

def str? : Document → Option String
  | .str s => s
  | _ => none

def optional? {α : Type} (read : Document → Option α) : Document → Option (Option α)
  | .null => some none
  | d => (read d).map some

/-- An array of things of one kind. -/
def list? {α : Type} (read : Document → Option α) : Document → Option (List α)
  | .arr items => items.mapM read
  | _ => none

/-- An object as a table; the last member of a name wins. -/
def table? {α : Type} (read : Document → Option α) : Document → Option (Table α)
  | .obj members =>
    (members.mapM fun (m : Option String × Document) => do
      let k ← m.1
      let v ← read m.2
      some (k, v)).map Table.ofList
  | _ => none

def named (name : String) (members : List (String × Document)) : List Document :=
  (members.filter (·.1 == name)).map (·.2)

def fields? (names : List String) : Document → Option (List (Option Document))
  | .obj members => do
    let members ← members.mapM fun (m : Option String × Document) => m.1.map (·, m.2)
    names.mapM fun name =>
      match named name members with
      | [] => some none
      | [d] => some (some d)
      | _ => none
  | .arr items =>
    if items.length > names.length then none
    else some ((items.map some) ++ List.replicate (names.length - items.length) none)
  | _ => none

/-- The name of one of several alternatives: a text, or an object whose only member has that name
and is `null`. -/
def alternative? : Document → Option String
  | .str s => s
  | .obj [(k, .null)] => k
  | _ => none

/-- A field that has a value of its own when it is not there. -/
def withDefault {α : Type} (default : α) (read : Document → Option α) : Option Document → Option α
  | none => some default
  | some d => read d

def required {α : Type} (read : Document → Option α) (d : Option Document) : Option α := d.bind read

end ContainerHost.Json.Document
