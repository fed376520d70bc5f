import ContainerHost.Json.Value
import ContainerHost.Text.Hex
import ContainerHost.Text.Utf16
/-!
# Reading JSON

`Document.read?` reads a text as one JSON document with blanks around it and nothing else. Each
reader takes characters from the front and returns the rest, so that it can be followed by another.
-/

namespace ContainerHost.Json

/-- The characters that may stand between tokens. -/
def isSpace (c : Char) : Bool := c == ' ' || c == '\n' || c == '\t' || c == '\r'

def skipSpace (cs : List Char) : List Char := cs.dropWhile isSpace

/-! ## Strings -/

/-- A piece of a string: a character, or a unit of sixteen bits written as an escape. -/
inductive Piece where
  | char (c : Char)
  | unit (u : UInt16)

/-- The character of a one-letter escape. -/
def shortEscape? (c : Char) : Option Char :=
  match c with
  | '"' => some '"'
  | '\\' => some '\\'
  | '/' => some '/'
  | 'b' => some '\x08'
  | 'f' => some '\x0c'
  | 'n' => some '\n'
  | 'r' => some '\r'
  | 't' => some '\t'
  | _ => none

/-- Reads the pieces of a string after its opening quote. -/
def readPieces : List Char → Option (List Piece × List Char)
  | [] => none
  | '"' :: rest => some ([], rest)
  | '\\' :: 'u' :: a :: b :: c :: d :: rest => do
    let n ← Text.Hex.number? [a, b, c, d]
    let (ps, rest) ← readPieces rest
    some (.unit (UInt16.ofNat n) :: ps, rest)
  | '\\' :: e :: rest => do
    let c ← shortEscape? e
    let (ps, rest) ← readPieces rest
    some (.char c :: ps, rest)
  | c :: rest =>
    if c.toNat < 0x20 then none
    else do
      let (ps, rest) ← readPieces rest
      some (.char c :: ps, rest)

/-- The characters of some pieces; two units that form a pair are one character, and a unit of a
pair that stands alone is no text. -/
def joinPieces : List Piece → Option (List Char)
  | [] => some []
  | .char c :: ps => (joinPieces ps).map (c :: ·)
  | .unit u :: ps =>
    if Text.Utf16.isHigh u then
      match ps with
      | .unit v :: ps =>
        if Text.Utf16.isLow v then (joinPieces ps).map (Text.Utf16.pair u v :: ·) else none
      | _ => none
    else if Text.Utf16.isLow u then none
    else (joinPieces ps).map (Char.ofNat u.toNat :: ·)

/-- Reads a string after its opening quote. -/
def readString (cs : List Char) : Option (Option String × List Char) := do
  let (ps, rest) ← readPieces cs
  some ((joinPieces ps).map String.ofList, rest)

/-! ## Numerals -/

/-- The digits in front, and the rest. -/
def takeDigits (cs : List Char) : List Nat × List Char :=
  ((cs.takeWhile Char.isDigit).map fun c => c.toNat - 0x30, cs.dropWhile Char.isDigit)

/-- Reads a point and at least one digit, if there is a point. -/
def readFraction : List Char → Option (Option (List Nat) × List Char)
  | '.' :: rest =>
    let (ds, rest) := takeDigits rest
    if ds.isEmpty then none else some (some ds, rest)
  | rest => some (none, rest)

/-- The sign in front: whether it is a minus, and the rest. -/
def readSign : List Char → Bool × List Char
  | '-' :: rest => (true, rest)
  | '+' :: rest => (false, rest)
  | rest => (false, rest)

def readExponent : List Char → Option (Option (Bool × List Nat) × List Char)
  | c :: rest =>
    if c == 'e' || c == 'E' then
      let (negative, rest) := readSign rest
      let (ds, rest) := takeDigits rest
      if ds.isEmpty then none else some (some (negative, ds), rest)
    else some (none, c :: rest)
  | [] => some (none, [])

def readUnsigned (negative : Bool) (cs : List Char) : Option (Numeral × List Char) := do
  let (whole, rest) ←
    match cs with
    | '0' :: rest => some ([0], rest)
    | cs =>
      let (ds, rest) := takeDigits cs
      if ds.isEmpty then none else some (ds, rest)
  let (fraction, rest) ← readFraction rest
  let (exponent, rest) ← readExponent rest
  some (⟨negative, whole, fraction, exponent⟩, rest)

def readNumeral : List Char → Option (Numeral × List Char)
  | '-' :: rest => readUnsigned true rest
  | rest => readUnsigned false rest

/-! ## Documents -/

def readWord (word : List Char) (cs : List Char) : Option (List Char) :=
  if word.isPrefixOf cs then some (cs.drop word.length) else none

mutual
/-- Reads a document; `fuel` bounds how many steps reading may take. -/
def readDocument : Nat → List Char → Option (Document × List Char)
  | 0, _ => none
  | fuel + 1, cs =>
    match skipSpace cs with
    | [] => none
    | '"' :: rest => (readString rest).map fun (s, rest) => (.str s, rest)
    | '[' :: rest =>
      match skipSpace rest with
      | ']' :: rest => some (.arr [], rest)
      | rest => (readItems fuel rest).map fun (ds, rest) => (.arr ds, rest)
    | '\x7b' :: rest =>
      match skipSpace rest with
      | '\x7d' :: rest => some (.obj [], rest)
      | rest => (readMembers fuel rest).map fun (ms, rest) => (.obj ms, rest)
    | 'n' :: rest => (readWord ['u', 'l', 'l'] rest).map fun rest => (.null, rest)
    | 't' :: rest => (readWord ['r', 'u', 'e'] rest).map fun rest => (.bool true, rest)
    | 'f' :: rest => (readWord ['a', 'l', 's', 'e'] rest).map fun rest => (.bool false, rest)
    | rest => (readNumeral rest).map fun (n, rest) => (.number n.number?, rest)

/-- Reads the items of an array up to its closing bracket. -/
def readItems : Nat → List Char → Option (List Document × List Char)
  | 0, _ => none
  | fuel + 1, cs => do
    let (d, rest) ← readDocument fuel cs
    match skipSpace rest with
    | ',' :: rest =>
      let (ds, rest) ← readItems fuel rest
      some (d :: ds, rest)
    | ']' :: rest => some ([d], rest)
    | _ => none

/-- Reads the members of an object up to its closing brace. -/
def readMembers : Nat → List Char → Option (List (Option String × Document) × List Char)
  | 0, _ => none
  | fuel + 1, cs =>
    match skipSpace cs with
    | '"' :: rest => do
      let (k, rest) ← readString rest
      match skipSpace rest with
      | ':' :: rest =>
        let (d, rest) ← readDocument fuel rest
        match skipSpace rest with
        | ',' :: rest =>
          let (ms, rest) ← readMembers fuel rest
          some ((k, d) :: ms, rest)
        | '\x7d' :: rest => some ([(k, d)], rest)
        | _ => none
      | _ => none
    | _ => none
end

def Document.read? (text : String) : Option Document :=
  let cs := text.toList
  match readDocument (2 * cs.length + 2) cs with
  | some (d, rest) => if (skipSpace rest).isEmpty then some d else none
  | none => none

def Value.read? (text : String) : Option Value := (Document.read? text).bind Document.value?

end ContainerHost.Json
