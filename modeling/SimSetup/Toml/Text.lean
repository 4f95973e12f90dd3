import SimSetup.Toml.Outline
import SimSetup.Toml.Scalar

/-!
# Reading texts and keys

A text stands between quotes: double ones, where a backslash escapes, or single ones, where it does
not. Tripled quotes hold a text of several lines; in it one or two quotes stand for themselves, also
next to the closing three.
-/

namespace SimSetup.Toml

open Reader

def isPrintable (c : Char) : Bool :=
  c = '\t' || (0x20 ≤ c.toNat && c.toNat ≠ 0x7f)

def isSpace (c : Char) : Bool := c = ' ' || c = '\t'

def spaces : Reader Unit := (fun _ => ()) <$> takeWhile isSpace

def newline : Reader Unit := char '\n' <|> word ['\r', '\n']

def codePoint (width : Nat) : Reader Char := do
  let code := ofDigits 16 (← (List.replicate width (satisfy isHexDigit)).mapM id)
  if code.isValidChar then return Char.ofNat code else failure

def escape : Reader Char := do
  char '\\'
  match ← satisfy fun _ => true with
  | 'b' => return '\x08'
  | 't' => return '\t'
  | 'n' => return '\n'
  | 'f' => return '\x0c'
  | 'r' => return '\r'
  | '"' => return '"'
  | '\\' => return '\\'
  | 'u' => codePoint 4
  | 'U' => codePoint 8
  | _ => failure

def unescaped (quote : Char) : Reader Char := satisfy fun c => isPrintable c && c ≠ quote

def basicChar : Reader Char := escape <|> satisfy fun c => isPrintable c && c ≠ '"' && c ≠ '\\'

def basicText : Reader (List Char) := char '"' *> many basicChar <* char '"'

def literalText : Reader (List Char) := char '\'' *> many (unescaped '\'') <* char '\''

/-- A line break, however it is written, is one line feed in the text. -/
def lineBreak : Reader (List Char) := newline *> pure ['\n']

/-- A backslash at the end of a line drops all white space up to the next visible character. -/
def continuation : Reader (List Char) := do
  char '\\'
  spaces
  newline
  let _ ← many ((fun _ => ()) <$> satisfy isSpace <|> newline)
  return []

def innerQuotes (quote : Char) : Reader (List Char) := do
  let run ← takeWhile (· = quote)
  ahead (satisfy fun _ => true)
  if run.length = 1 ∨ run.length = 2 then return run else failure

/-- Three closing quotes, and up to two more in front of them that belong to the text. -/
def closingQuotes (quote : Char) : Reader (List Char) := do
  let run ← takeWhile (· = quote)
  if 3 ≤ run.length ∧ run.length ≤ 5 then return run.drop 3 else failure

/-- A text between tripled quotes; a line break right after the opening is not part of it. -/
def linesText (quote : Char) (piece : Reader (List Char)) : Reader (List Char) := do
  word [quote, quote, quote]
  let _ ← optional newline
  let pieces ← many (piece <|> lineBreak <|> innerQuotes quote)
  return pieces.flatten ++ (← closingQuotes quote)

def single (r : Reader Char) : Reader (List Char) := (fun c => [c]) <$> r

def basicLines : Reader (List Char) := linesText '"' (single basicChar <|> continuation)

def literalLines : Reader (List Char) := linesText '\'' (single (unescaped '\''))

def text : Reader String :=
  String.ofList <$> (basicLines <|> basicText <|> literalLines <|> literalText)

def isBareKeyChar (c : Char) : Bool := c.isAlphanum || c = '_' || c = '-'

def key : Reader String :=
  String.ofList <$> (basicText <|> literalText <|> many1 (satisfy isBareKeyChar))

/-- How many keys a path may not have, and how deep arrays and inline tables may not be nested. -/
def depthLimit : Nat := 80

def path : Reader Path := do
  let keys ← separated (spaces *> key <* spaces) (char '.')
  if keys.length < depthLimit then Path.ofList? keys else failure

end SimSetup.Toml
