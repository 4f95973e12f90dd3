import SimSetup.Toml.Draft
import SimSetup.Toml.Text

/-!
# Reading documents

A document is a list of entries, and sections of entries under a header. Entries and headers have a
line each; comments and blank lines may stand between them.
-/

namespace SimSetup.Toml

open Reader

def comment : Reader Unit := do
  char '#'
  let _ ← takeWhile isPrintable

def filler : Reader Unit :=
  (fun _ => ()) <$> many ((fun _ => ()) <$> satisfy isSpace <|> newline <|> (comment *> newline))

def scalar : Reader Value :=
  .string <$> text <|> .datetime <$> dateTime <|> .float <$> float <|> .integer <$> integer
    <|> .boolean <$> boolean

def array (item : Reader Value) : Reader Value := do
  char '['
  let items ← (separated (filler *> item <* filler) (char ',') <* optional (char ',')) <|> pure []
  filler
  char ']'
  return .array items

def entry (value : Reader Value) : Reader Entry := do
  let path ← path
  char '='
  spaces
  return { path, value := ← value }

/-- All in one line, and no comma after the last entry. -/
def inlineTable (value : Reader Value) : Reader Value := do
  char '{'
  let entries ← separated (entry value <* spaces) (char ',') <|> (spaces *> pure [])
  char '}'
  return .table (← Draft.addEntries [] entries).finish

/-- A value in which arrays and inline tables are nested at most `depth` deep. -/
def value : (depth : Nat) → Reader Value
  | 0 => scalar
  | depth + 1 => scalar <|> array (value depth) <|> inlineTable (value depth)

def lineEnd : Reader Unit := do
  spaces
  let _ ← optional comment
  newline <|> ending

def blankLine : Reader Unit := do
  spaces
  let _ ← optional comment
  newline

def entryLine : Reader Entry :=
  spaces *> entry (value (depthLimit - 1)) <* lineEnd

def header : Reader Header :=
  .element <$> (word ['[', '['] *> path <* word [']', ']'])
    <|> .table <$> (char '[' *> path <* char ']')

/-- The entries up to the next header. -/
def entries : Reader (List Entry) :=
  (·.filterMap id) <$> many ((some <$> entryLine) <|> ((fun _ => none) <$> blankLine))

def sectionLines : Reader Section := do
  let header ← spaces *> header <* lineEnd
  return { header, entries := ← entries }

def byteOrderMark : Char := '\uFEFF'

def document : Reader Outline := do
  let _ ← optional (char byteOrderMark)
  let entries ← entries
  let sections ← many sectionLines
  spaces
  let _ ← optional comment
  return { entries, sections }

def parseError : String := "TOML parse error"

def read (text : String) : Option Table := do
  (← document.run? text.toList).toTable?

end SimSetup.Toml
