import ContainerHost.Text.Hex
/-!
# The text format: tokens and forms

A text splits into parentheses, words and strings, with blanks and comments between them, and these
nest into forms. Strings hold bytes; their escapes may spell any.
-/

namespace ContainerHost.Wasm

/-- A token of the text format. -/
inductive Token where
  | opening
  | closing
  | word (s : String)
  | str (bytes : List UInt8)
  deriving DecidableEq, Repr

/-- A form: a word, a string, or forms between parentheses. -/
inductive Form where
  | word (s : String)
  | str (bytes : List UInt8)
  | list (items : List Form)
  deriving Inhabited, Repr

def isWordChar (c : Char) : Bool :=
  c.isAlphanum || "!#$%&'*+-./:<=>?@\\^_`|~".toList.contains c

def charBytes (c : Char) : List UInt8 := c.toString.toUTF8.toList

/-- Skips a comment between `(;` and `;)`, in which such comments may nest; `depth` counts the ones
that are open. -/
def skipBlock : Nat → List Char → Option (List Char)
  | depth, '(' :: ';' :: rest => skipBlock (depth + 1) rest
  | 0, ';' :: ')' :: rest => some rest
  | depth + 1, ';' :: ')' :: rest => skipBlock depth rest
  | depth, _ :: rest => skipBlock depth rest
  | _, [] => none

/-- Reads the bytes of a string after its opening quote. -/
def readBytes : List Char → Option (List UInt8 × List Char)
  | [] => none
  | '"' :: rest => some ([], rest)
  | '\\' :: 'n' :: rest => (readBytes rest).map fun (bs, rest) => (0x0A :: bs, rest)
  | '\\' :: 't' :: rest => (readBytes rest).map fun (bs, rest) => (0x09 :: bs, rest)
  | '\\' :: 'r' :: rest => (readBytes rest).map fun (bs, rest) => (0x0D :: bs, rest)
  | '\\' :: '"' :: rest => (readBytes rest).map fun (bs, rest) => (0x22 :: bs, rest)
  | '\\' :: '\'' :: rest => (readBytes rest).map fun (bs, rest) => (0x27 :: bs, rest)
  | '\\' :: '\\' :: rest => (readBytes rest).map fun (bs, rest) => (0x5C :: bs, rest)
  | '\\' :: hi :: lo :: rest => do
    let h ← Text.Hex.value? hi
    let l ← Text.Hex.value? lo
    let (bs, rest) ← readBytes rest
    some (UInt8.ofNat (16 * h + l) :: bs, rest)
  | '\\' :: _ => none
  | c :: rest =>
    if c.toNat < 0x20 || c.toNat == 0x7F then none
    else (readBytes rest).map fun (bs, rest) => (charBytes c ++ bs, rest)

/-- Splits a text into tokens; `fuel` bounds their number. -/
def tokens : Nat → List Char → Option (List Token)
  | 0, _ => none
  | _, [] => some []
  | fuel + 1, '(' :: ';' :: rest => do
    let rest ← skipBlock 0 rest
    tokens fuel rest
  | fuel + 1, ';' :: ';' :: rest => tokens fuel (rest.dropWhile (· != '\n'))
  | fuel + 1, '(' :: rest => (tokens fuel rest).map (.opening :: ·)
  | fuel + 1, ')' :: rest => (tokens fuel rest).map (.closing :: ·)
  | fuel + 1, '"' :: rest => do
    let (bs, rest) ← readBytes rest
    (tokens fuel rest).map (.str bs :: ·)
  | fuel + 1, c :: rest =>
    if c == ' ' || c == '\t' || c == '\n' || c == '\r' then tokens fuel rest
    else if isWordChar c then
      let word := c :: rest.takeWhile isWordChar
      (tokens fuel (rest.dropWhile isWordChar)).map (.word (String.ofList word) :: ·)
    else none

/-- Nests tokens into forms. `open'` holds the forms read so far at each level that is open, the
innermost level first and the last form of a level first. -/
def nest : List (List Form) → List Token → Option (List Form)
  | [top], [] => some top.reverse
  | _, [] => none
  | open', .opening :: rest => nest ([] :: open') rest
  | inner :: outer :: open', .closing :: rest => nest ((.list inner.reverse :: outer) :: open') rest
  | _, .closing :: _ => none
  | inner :: open', .word s :: rest => nest ((.word s :: inner) :: open') rest
  | inner :: open', .str bs :: rest => nest ((.str bs :: inner) :: open') rest
  | [], _ => none

def Form.read? (text : List Char) : Option (List Form) :=
  (tokens (text.length + 1) text).bind (nest [[]])

/-! ## Numbers -/

/-- Digits with single underscores between them, as digits alone. -/
def plainDigits (isDigit : Char → Bool) : List Char → Option (List Char)
  | [] => none
  | [c] => if isDigit c then some [c] else none
  | c :: '_' :: d :: rest =>
    if isDigit c then (plainDigits isDigit (d :: rest)).map (c :: ·) else none
  | c :: rest => if isDigit c then (plainDigits isDigit rest).map (c :: ·) else none

/-- The number that decimal digits spell. -/
def decimalValue (cs : List Char) : Nat := cs.foldl (fun n c => n * 10 + (c.toNat - 0x30)) 0

/-- Reads a number without a sign, in base ten or after `0x` in base sixteen. -/
def readNat? : List Char → Option Nat
  | '0' :: 'x' :: rest =>
    (plainDigits (fun c => (Text.Hex.value? c).isSome) rest).bind Text.Hex.number?
  | rest => (plainDigits Char.isDigit rest).map decimalValue

def readInt? : List Char → Option Int
  | '-' :: rest => (readNat? rest).map fun n => -(n : Int)
  | '+' :: rest => (readNat? rest).map Int.ofNat
  | rest => (readNat? rest).map Int.ofNat

/-- Reads an integer of a number of bits, signed or not, as its residue. -/
def readWord? (bits : Nat) (s : String) : Option Nat := do
  let i ← readInt? s.toList
  if -(1 <<< (bits - 1) : Nat) ≤ i && i < (1 <<< bits : Nat) then some (i % (1 <<< bits : Nat)).toNat
  else none

/-- A decimal number with a point or an exponent: its sign, digits and power of ten. -/
structure DecimalText where
  negative : Bool
  digits : Nat
  power : Int

def DecimalText.read? (cs : List Char) : Option DecimalText := do
  let (negative, cs) := match cs with
    | '-' :: rest => (true, rest)
    | '+' :: rest => (false, rest)
    | rest => (false, rest)
  let whole ← plainDigits Char.isDigit (cs.takeWhile fun c => c.isDigit || c == '_')
  let cs := cs.dropWhile fun c => c.isDigit || c == '_'
  let (frac, cs) ← match cs with
    | '.' :: rest =>
      let part := rest.takeWhile fun c => c.isDigit || c == '_'
      let after := rest.dropWhile fun c => c.isDigit || c == '_'
      if part.isEmpty then some ([], after)
      else (plainDigits Char.isDigit part).map (·, after)
    | rest => some ([], rest)
  let exponent ← match cs with
    | [] => some 0
    | c :: rest =>
      if c == 'e' || c == 'E' then
        match rest with
        | '-' :: ds => (plainDigits Char.isDigit ds).map fun ds => -(decimalValue ds : Int)
        | '+' :: ds => (plainDigits Char.isDigit ds).map fun ds => (decimalValue ds : Int)
        | ds => (plainDigits Char.isDigit ds).map fun ds => (decimalValue ds : Int)
      else none
  some ⟨negative, decimalValue (whole ++ frac), exponent - frac.length⟩

/-- The bits of a number of sixty-four bits. -/
def readF64? (s : String) : Option UInt64 :=
  match s with
  | "inf" | "+inf" => some 0x7FF0000000000000
  | "-inf" => some 0xFFF0000000000000
  | "nan" | "+nan" => some 0x7FF8000000000000
  | "-nan" => some 0xFFF8000000000000
  | s => do
    let d ← DecimalText.read? s.toList
    let f := Float.ofScientific d.digits (d.power < 0) d.power.natAbs
    if f.isInf then none else some (if d.negative then -f else f).toBits

/-- The bits of a number of thirty-two bits. -/
def readF32? (s : String) : Option UInt32 :=
  match s with
  | "inf" | "+inf" => some 0x7F800000
  | "-inf" => some 0xFF800000
  | "nan" | "+nan" => some 0x7FC00000
  | "-nan" => some 0xFFC00000
  | s => do
    let d ← DecimalText.read? s.toList
    let f := Float32.ofScientific d.digits (d.power < 0) d.power.natAbs
    if f.isInf then none else some (if d.negative then -f else f).toBits

end ContainerHost.Wasm
