import ContainerHost.Decimal.Shortest
import ContainerHost.Yaml.Value
/-!
# Writing scalars

How a text is written so that it reads back as that text: plain where nothing in it means anything
else, in single quotes where it would be read as a value of another type or holds an indicator, as a
literal block where it has line feeds, and in double quotes where it has characters that do not
print.
-/

namespace ContainerHost.Yaml

/-! ## Texts that would be read as something else -/

/-- A decimal number that may have a point and an exponent: its digits and the power of ten. -/
def decimalOfWord? (cs : List Char) : Option (List Char × Int) :=
  let (whole, rest) := (cs.takeWhile Char.isDigit, cs.dropWhile Char.isDigit)
  let (places, rest) := match rest with
    | '.' :: more => (more.takeWhile Char.isDigit, more.dropWhile Char.isDigit)
    | _ => ([], rest)
  let number (ds : List Char) : Nat := ds.foldl (fun n d => n * 10 + (d.toNat - 0x30)) 0
  let digits := whole ++ places
  let exponent : Option Int := match rest with
    | [] => some 0
    | e :: more =>
      if e ≠ 'e' && e ≠ 'E' then none
      else
        let (negative, ds) := match more with
          | '-' :: ds => (true, ds)
          | '+' :: ds => (false, ds)
          | ds => (false, ds)
        if ds.isEmpty || !ds.all Char.isDigit then none
        else some (if negative then -(number ds : Int) else number ds)
  if digits.isEmpty then none
  else exponent.map fun e => (digits, e - places.length)

/-- A decimal number is below the bound from which numbers of sixty-four bits are infinite. -/
def isFinite (digits : List Char) (exponent : Int) : Bool :=
  let digits := digits.dropWhile (· = '0')
  let m := digits.foldl (fun n d => n * 10 + (d.toNat - 0x30)) 0
  let magnitude : Int := digits.length + exponent
  if m = 0 || magnitude < 300 then true
  else if magnitude > 320 then false
  else
    let bound := 1 <<< 1024 - 1 <<< 970
    if exponent ≥ 0 then m * Nat.pow 10 exponent.toNat < bound
    else m < bound * Nat.pow 10 (-exponent).toNat

/-- The text is the name of an infinity or of no number. -/
def isSpecialFloat (s : String) : Bool :=
  [".inf", ".Inf", ".INF", "+.inf", "+.Inf", "+.INF", "-.inf", "-.Inf", "-.INF", ".nan", ".NaN",
    ".NAN"].contains s

/-- The text is a number with a point or an exponent, or too long for an integer. -/
def isFloatWord (s : String) : Bool :=
  let unsigned := match s.toList with
    | '+' :: rest => rest
    | '-' :: rest => rest
    | cs => cs
  isSpecialFloat s ||
    match decimalOfWord? unsigned with
    | some (digits, exponent) => isFinite digits exponent
    | none => false

/-- The text is an integer of at most a hundred and twenty-eight bits. -/
def isIntegerWord (s : String) : Bool :=
  match s.toList with
  | '-' :: rest => (magnitude? rest).any fun n => n ≤ 1 <<< 127
  | '+' :: rest => (magnitude? rest).any fun n => n < 1 <<< 128
  | cs => (magnitude? cs).any fun n => n < 1 <<< 128

/-- The text is a number but for zeros in front. -/
def isPaddedWord (s : String) : Bool :=
  match s.toList with
  | '-' :: rest => isPaddedNumber rest
  | '+' :: rest => isPaddedNumber rest
  | cs => isPaddedNumber cs

/-- Plain, the text would be read as no value, a truth value or a number. -/
def isAmbiguous (s : String) : Bool :=
  s.isEmpty || isNullWord s || (boolOfWord? s).isSome || isIntegerWord s || isPaddedWord s ||
    isFloatWord s

/-! ## What a text holds -/

/-- The character can be written as it is. -/
def isPrintable (c : Char) : Bool :=
  let n := c.toNat
  n = 0x0a || (0x20 ≤ n && n ≤ 0x7e) || (0xa0 ≤ n && n ≠ 0xfeff && n ≠ 0xfffe && n ≠ 0xffff)

/-- A character that cannot begin a plain scalar. -/
def isFirstIndicator (c : Char) : Bool :=
  ['#', ',', '[', ']', '\x7b', '\x7d', '&', '*', '!', '|', '>', '\'', '"', '%', '@', '\x60'].contains c

/-- Something inside a text would end a plain scalar: a colon before a gap, or a hash behind one. -/
def endsPlain : List Char → Bool
  | a :: b :: rest => (a = ':' && isGap b) || (isGap a && b = '#') || endsPlain (b :: rest)
  | [a] => a = ':'
  | [] => false

/-- A plain scalar in a block could not begin like this, or would end before its end. -/
def hasIndicator (cs : List Char) : Bool :=
  let marker : Bool := match cs with
    | a :: b :: c :: _ => (a = '-' && b = '-' && c = '-') || (a = '.' && b = '.' && c = '.')
    | _ => false
  let first : Bool := match cs with
    | [] => false
    | c :: rest => isFirstIndicator c || (['-', '?', ':'].contains c && atGapOrEnd rest)
  marker || first || endsPlain cs

/-- One character of a class stands right before one of another. -/
def hasPair (p q : Char → Bool) : List Char → Bool
  | a :: b :: rest => (p a && q b) || hasPair p q (b :: rest)
  | _ => false

/-- A text can be written plain, in single quotes, as a block. -/
structure Allowed where
  plain : Bool
  singleQuoted : Bool
  block : Bool
  deriving Repr

/-- The ways in which a text can be written. -/
def Allowed.of (cs : List Char) : Allowed :=
  let isSpace (c : Char) : Bool := c = ' '
  let unprintable := !cs.all isPrintable || hasPair isSpace isBreak cs
  let breakSpace := hasPair isBreak isSpace cs
  let outerGap := (cs.head?.any fun c => isSpace c || isBreak c) ||
    (cs.getLast?.any fun c => isSpace c || isBreak c)
  { plain := !outerGap && !breakSpace && !unprintable && !cs.any isBreak && !hasIndicator cs
    singleQuoted := !breakSpace && !unprintable
    block := !(cs.getLast?.any isSpace) && !unprintable }

/-- The style in which a text is written. -/
def styleOf (s : String) : Style :=
  let cs := s.toList
  let allowed := Allowed.of cs
  if cs.contains '\n' then if allowed.block then .literal else .doubleQuoted
  else if !isAmbiguous s && allowed.plain then .plain
  else if allowed.singleQuoted then .singleQuoted
  else .doubleQuoted

/-! ## The styles -/

/-- Digits to base sixteen with capital letters. -/
def capitalHex (width n : Nat) : List Char := (Text.Hex.padded width n).map Char.toUpper

/-- A character in double quotes. -/
def escaped (c : Char) : List Char :=
  match c with
  | '\x00' => ['\\', '0']
  | '\x07' => ['\\', 'a']
  | '\x08' => ['\\', 'b']
  | '\t' => ['\\', 't']
  | '\n' => ['\\', 'n']
  | '\x0b' => ['\\', 'v']
  | '\x0c' => ['\\', 'f']
  | '\r' => ['\\', 'r']
  | '\x1b' => ['\\', 'e']
  | '"' => ['\\', '"']
  | '\\' => ['\\', '\\']
  | '\u0085' => ['\\', 'N']
  | '\u2028' => ['\\', 'L']
  | '\u2029' => ['\\', 'P']
  | c =>
    if isPrintable c then [c]
    else if c.toNat ≤ 0xff then ['\\', 'x'] ++ capitalHex 2 c.toNat
    else if c.toNat ≤ 0xffff then ['\\', 'u'] ++ capitalHex 4 c.toNat
    else ['\\', 'U'] ++ capitalHex 8 c.toNat

/-- A text in lines that are moved to the right; a line break stands for itself. -/
def indented (indent : Nat) (each : Char → List Char) : Bool → List Char → List Char
  | _, [] => []
  | afterBreak, c :: rest =>
    if isBreak c then c :: indented indent each true rest
    else (if afterBreak then List.replicate indent ' ' else []) ++ each c ++
      indented indent each false rest

/-- The indicators of a literal block: the indentation if the text does not show it, and what
happens to the breaks at its end. -/
def literalHints (cs : List Char) : List Char :=
  (if cs.head?.any fun c => c = ' ' || isBreak c then ['2'] else []) ++
  match cs.reverse with
  | [] => ['-']
  | c :: rest =>
    if !isBreak c then ['-']
    else if rest.head?.all isBreak then ['+']
    else []

def inSingleQuotes (indent : Nat) (cs : List Char) : List Char :=
  let pad := if cs.getLast?.any isBreak then List.replicate indent ' ' else []
  '\'' :: indented indent (fun c => if c = '\'' then ['\'', '\''] else [c]) false cs ++ pad ++ ['\'']

/-- The written form of a text whose further lines begin at a column. -/
def written (indent : Nat) (s : String) : List Char :=
  let cs := s.toList
  match styleOf s with
  | .plain => cs
  | .singleQuoted => inSingleQuotes indent cs
  | .literal | .folded => '|' :: literalHints cs ++ '\n' :: indented indent (fun c => [c]) true cs
  | .doubleQuoted => '"' :: cs.flatMap escaped ++ ['"']

end ContainerHost.Yaml
