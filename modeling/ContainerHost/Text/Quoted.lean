import ContainerHost.Text.Hex
import ContainerHost.Text.Visible
/-!
# Quoted text

A text between double quotes, with every character that would not show written as an escape, and
the same for lists of texts.
-/

namespace ContainerHost.Text.Quoted

/-- The digits of a number in base sixteen, without leading zeros. -/
def hexDigits (n : Nat) : List Char :=
  let ds := (Hex.padded 6 n).dropWhile (· == '0')
  if ds.isEmpty then ['0'] else ds

/-- How a character is written inside quotes. -/
def escape (c : Char) : List Char :=
  match c with
  | '\t' => ['\\', 't']
  | '\r' => ['\\', 'r']
  | '\n' => ['\\', 'n']
  | '\x00' => ['\\', '0']
  | '"' => ['\\', '"']
  | '\\' => ['\\', '\\']
  | c => if isVisible c then [c] else ['\\', 'u', '\x7b'] ++ hexDigits c.toNat ++ ['\x7d']

def quote (s : String) : String :=
  String.ofList ('"' :: s.toList.flatMap escape ++ ['"'])

/-- Quoted texts in brackets, separated by a comma and a space. -/
def quoteList (l : List String) : String :=
  "[" ++ ", ".intercalate (l.map quote) ++ "]"

end ContainerHost.Text.Quoted
