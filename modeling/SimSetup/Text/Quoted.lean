import SimSetup.Text.Property

/-!
# Quoted text

Text between double quotes in which no line break, quote or invisible character stands for itself.
-/

namespace SimSetup.Text

def isPlain (c : Char) : Bool :=
  (0x20 ≤ c.toNat && c.toNat < 0x7f) || !(isExtender c || isUnprintable c)

/-- The code point in hexadecimal, between braces. -/
def codeEscape (c : Char) : List Char :=
  ['\\', 'u', '{'] ++ Nat.toDigits 16 c.toNat ++ ['}']

def escape (c : Char) : List Char :=
  match c with
  | '\x00' => ['\\', '0']
  | '\t' => ['\\', 't']
  | '\n' => ['\\', 'n']
  | '\r' => ['\\', 'r']
  | '"' => ['\\', '"']
  | '\\' => ['\\', '\\']
  | c => if isPlain c then [c] else codeEscape c

def quoted (s : String) : String :=
  .ofList ('"' :: s.toList.flatMap escape ++ ['"'])

end SimSetup.Text
