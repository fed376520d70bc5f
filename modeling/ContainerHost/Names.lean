import ContainerHost.Limits
import ContainerHost.Text.Hex
/-!
# Names and ids

A container is named by letters, digits, `-` and `_`. Its id adds the time of its creation and a
random suffix: `<name>-<milliseconds>-<suffix>`. The checks report the first rule that is broken;
lengths are in bytes.

Correspondence: `validate_container_name`, `validate_container_id`, `generate_container_id` ↔
`validateName`, `validateId`, `generateId`.
-/

namespace ContainerHost

/-- The characters of names, in the order of the documentation. -/
def nameAlphabet : String := "abcdefghijklmnopqrstuvwxyzABCDEFGHIJKLMNOPQRSTUVWXYZ0123456789-_"

/-- The character may stand in a name or an id. -/
def isNameChar (c : Char) : Bool := nameAlphabet.toList.contains c

/-- The rule a name breaks. -/
inductive NameFault where
  | empty
  | tooLong
  | badCharacter
  deriving DecidableEq, Repr

/-- The first rule that a text breaks, if it may have `limit` bytes. -/
def nameFault? (limit : Nat) (s : String) : Option NameFault :=
  if s.isEmpty then some .empty
  else if s.utf8ByteSize > limit then some .tooLong
  else if s.toList.all isNameChar then none
  else some .badCharacter

def NameFault.ofName : NameFault → String
  | .empty => "container name cannot be empty"
  | .tooLong => "container name exceeds maximum length"
  | .badCharacter => "container name contains invalid characters"

def NameFault.ofId : NameFault → String
  | .empty => "container ID cannot be empty"
  | .tooLong => "container ID exceeds maximum length"
  | .badCharacter => "container ID contains invalid characters"

/-- Accepts a container name or says what is wrong with it. -/
def validateName (name : String) : Except String Unit :=
  match nameFault? Limits.maxNameLength name with
  | none => .ok ()
  | some fault => .error fault.ofName

/-- Accepts a container id or says what is wrong with it. -/
def validateId (id : String) : Except String Unit :=
  match nameFault? Limits.maxIdLength id with
  | none => .ok ()
  | some fault => .error fault.ofId

/-- What distinguishes the id of a container from others with its name. -/
structure Stamp where
  millis : Nat
  suffix : String
  deriving DecidableEq, Repr, Inhabited

def generateId (name : String) (stamp : Stamp) : String :=
  name ++ "-" ++ toString stamp.millis ++ "-" ++ stamp.suffix

/-- A suffix of eight digits in base sixteen. -/
def Stamp.ofSeed (millis seed : Nat) : Stamp := ⟨millis, String.ofList (Text.Hex.padded 8 seed)⟩

theorem validateName_eq_ok_iff (name : String) :
    validateName name = .ok () ↔ nameFault? Limits.maxNameLength name = none := by
  unfold validateName
  split <;> simp_all

end ContainerHost
