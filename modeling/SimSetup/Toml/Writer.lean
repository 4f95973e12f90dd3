import SimSetup.Toml.Quoting

/-!
# Writing documents

Entries and headers have a line each, and an empty line goes before every header but a first one.
-/

namespace SimSetup.Toml

/-- Whole numbers keep a zero after the point. -/
def floatStyle : Decimal.PlainStyle := ⟨['.', '0'], ['n', 'a', 'n']⟩

def commaSeparated (items : List (List Char)) : List Char := [',', ' '].intercalate items

mutual

/-- A value in one piece. -/
def writeValue : Value → List Char
  | .string s => writeText s
  | .integer n => (toString n).toList
  | .float x => (floatStyle.write x).toList
  | .boolean b => if b then ['t', 'r', 'u', 'e'] else ['f', 'a', 'l', 's', 'e']
  | .datetime d => d.text.toList
  | .array items => '[' :: commaSeparated (writeItems items) ++ [']']
  | .table [] => ['{', '}']
  | .table entries => ['{', ' '] ++ commaSeparated (writeEntries entries) ++ [' ', '}']

def writeItems : List Value → List (List Char)
  | [] => []
  | v :: vs => writeValue v :: writeItems vs

def writeEntries : Table → List (List Char)
  | [] => []
  | (key, v) :: rest => (writeKey key ++ [' ', '=', ' '] ++ writeValue v) :: writeEntries rest

end

def writePath (p : Path) : List Char := ['.'].intercalate (p.toList.map writeKey)

def Entry.write (e : Entry) : List Char :=
  writePath e.path ++ [' ', '=', ' '] ++ writeValue e.value ++ ['\n']

def Header.write : Header → List Char
  | table path => '[' :: writePath path ++ [']', '\n']
  | element path => ['[', '['] ++ writePath path ++ [']', ']', '\n']

def Section.write (s : Section) : List Char := s.header.write ++ s.entries.flatMap Entry.write

def Outline.write (o : Outline) : List Char :=
  let sections := o.sections.map Section.write
  ['\n'].intercalate
    (if o.entries.isEmpty then sections else o.entries.flatMap Entry.write :: sections)

def write (t : Table) : String := .ofList (Outline.ofTable t).write

end SimSetup.Toml
