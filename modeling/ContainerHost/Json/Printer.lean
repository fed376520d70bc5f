import ContainerHost.Decimal.Notation
import ContainerHost.Json.Value
import ContainerHost.Text.Hex
/-!
# Writing JSON

Compact text without blanks. In strings only the quote, the backslash and the control characters
are escaped; numbers are written by `Decimal.NumberFormat.double`, and a number without a form is
written `null`.
-/

namespace ContainerHost.Json

/-- How a character is written inside a string. -/
def escape (c : Char) : List Char :=
  match c with
  | '"' => ['\\', '"']
  | '\\' => ['\\', '\\']
  | '\x08' => ['\\', 'b']
  | '\x0c' => ['\\', 'f']
  | '\n' => ['\\', 'n']
  | '\r' => ['\\', 'r']
  | '\t' => ['\\', 't']
  | c => if c.toNat < 0x20 then ['\\', 'u'] ++ Text.Hex.padded 4 c.toNat else [c]

def printString (s : List Char) : List Char := '"' :: s.flatMap escape ++ ['"']

def printInt (i : Int) : List Char :=
  if i < 0 then '-' :: Decimal.digitsOf i.natAbs else Decimal.digitsOf i.natAbs

def Number.print : Number → List Char
  | .int i => printInt i
  | .float bits => (Decimal.NumberFormat.double.write? bits.toNat).getD ['n', 'u', 'l', 'l']

def printBool (b : Bool) : List Char := if b then ['t', 'r', 'u', 'e'] else ['f', 'a', 'l', 's', 'e']

mutual
def Value.print : Value → List Char
  | .null => ['n', 'u', 'l', 'l']
  | .bool b => printBool b
  | .number n => n.print
  | .str s => printString s.toList
  | .arr items => '[' :: printItems items
  | .obj members => '\x7b' :: printMembers members

/-- The items of an array and the closing bracket. -/
def printItems : List Value → List Char
  | [] => [']']
  | [v] => Value.print v ++ [']']
  | v :: w :: vs => Value.print v ++ ',' :: printItems (w :: vs)

/-- The members of an object and the closing brace. -/
def printMembers : List (String × Value) → List Char
  | [] => ['\x7d']
  | [(k, v)] => printString k.toList ++ ':' :: (Value.print v ++ ['\x7d'])
  | (k, v) :: m :: ms => printString k.toList ++ ':' :: (Value.print v ++ ',' :: printMembers (m :: ms))
end

def Value.text (v : Value) : String := String.ofList v.print

end ContainerHost.Json
