import SimSetup.Decimal.Text
import SimSetup.Toml.Text

/-!
# Writing texts and keys

Of the ways to quote a text the plainest that needs no escape is taken: double quotes, single
quotes, tripled double quotes, tripled single quotes. A text that needs escapes in any case has them
between double quotes, tripled if it has several lines.
-/

namespace SimSetup.Toml

inductive Quoting
  | basic
  | literal
  | basicLines
  | literalLines
  deriving DecidableEq, Repr

/-- Characters that no quotes let stand for themselves; a line feed does between tripled ones. -/
def isControl (c : Char) : Bool :=
  (c.toNat < 0x20 && c ≠ '\t' && c ≠ '\n') || c.toNat = 0x7f

def longestRun (q : Char) (current : Nat) : List Char → Nat
  | [] => current
  | c :: cs =>
    if c = q then longestRun q (current + 1) cs else max current (longestRun q 0 cs)

def Quoting.ofText (cs : List Char) : Quoting :=
  let plain := !cs.any isControl
  let oneLine := !cs.contains '\n'
  let unslashed := !cs.contains '\\'
  if plain && oneLine && unslashed && !cs.contains '"' then basic
  else if plain && oneLine && !cs.contains '\'' then literal
  else if plain && unslashed && longestRun '"' 0 cs ≤ 2 then basicLines
  else if plain && longestRun '\'' 0 cs ≤ 2 then literalLines
  else if oneLine then basic
  else basicLines

def codeEscape (c : Char) : List Char :=
  let ds := (Nat.toDigits 16 c.toNat).map Char.toUpper
  ['\\', 'u'] ++ List.replicate (4 - ds.length) '0' ++ ds

def escaped (c : Char) : List Char :=
  match c with
  | '\x08' => ['\\', 'b']
  | '\t' => ['\\', 't']
  | '\x0c' => ['\\', 'f']
  | '\r' => ['\\', 'r']
  | '\\' => ['\\', '\\']
  | c => if isControl c then codeEscape c else [c]

def escapedLine (cs : List Char) : List Char :=
  cs.flatMap fun
    | '\n' => ['\\', 'n']
    | '"' => ['\\', '"']
    | c => escaped c

/-- Every third quote of a run is escaped; `run` quotes went before. -/
def escapedLines (run : Nat) : List Char → List Char
  | [] => []
  | c :: cs =>
    if c = '"' then
      if run < 2 then '"' :: escapedLines (run + 1) cs else '\\' :: '"' :: escapedLines 0 cs
    else escaped c ++ escapedLines 0 cs

def opening (cs : List Char) : List Char := if cs.contains '\n' then ['\n'] else []

def Quoting.write (q : Quoting) (cs : List Char) : List Char :=
  match q with
  | basic => '"' :: escapedLine cs ++ ['"']
  | literal => '\'' :: cs ++ ['\'']
  | basicLines => ['"', '"', '"'] ++ opening cs ++ escapedLines 0 cs ++ ['"', '"', '"']
  | literalLines => ['\'', '\'', '\''] ++ opening cs ++ cs ++ ['\'', '\'', '\'']

def writeText (s : String) : List Char := (Quoting.ofText s.toList).write s.toList

/-- A key has no quotes if it needs none, and never several lines. -/
def writeKey (s : String) : List Char :=
  let cs := s.toList
  if !cs.isEmpty && cs.all isBareKeyChar then cs
  else match Quoting.ofText cs with
    | .literal => Quoting.literal.write cs
    | _ => Quoting.basic.write cs

end SimSetup.Toml
