import SimSetup.Decimal.Reading
import SimSetup.Toml.Reader
import SimSetup.Toml.Value

/-!
# Reading numbers, dates and words

Underscores may stand between two digits. Integers fit 64 bits, signed; a positive float may not
overflow.
-/

namespace SimSetup.Toml

open Reader

def isHexDigit (c : Char) : Bool :=
  c.isDigit || ('a' ≤ c && c ≤ 'f') || ('A' ≤ c && c ≤ 'F')

def hexValue (c : Char) : Nat :=
  if c.isDigit then c.toNat - '0'.toNat
  else if 'a' ≤ c then c.toNat - 'a'.toNat + 10
  else c.toNat - 'A'.toNat + 10

def ofDigits (base : Nat) (ds : List Char) : Nat :=
  ds.foldl (fun n c => base * n + hexValue c) 0

def digits (p : Char → Bool) : Reader (List Char) := do
  let first ← satisfy p
  return first :: (← many ((char '_' <|> pure ()) *> satisfy p))

/-- Whether a minus sign stands here; a plus sign is skipped. -/
def sign : Reader Bool :=
  (char '-' *> pure true) <|> (char '+' *> pure false) <|> pure false

/-- Digits of which the first is zero only when it stands alone. -/
def wholeDigits : Reader (List Char) := do
  match ← digits Char.isDigit with
  | '0' :: _ :: _ => failure
  | ds => return ds

def inRange (n : Int) : Option Int :=
  if Int64.minValue.toInt ≤ n ∧ n ≤ Int64.maxValue.toInt then some n else none

def signedNat (negative : Bool) (n : Nat) : Int := if negative then -n else n

def decimalInteger : Reader Int := do
  let negative ← sign
  inRange (signedNat negative (ofDigits 10 (← wholeDigits)))

def radixInteger (mark : Char) (base : Nat) (p : Char → Bool) : Reader Int := do
  word ['0', mark]
  inRange (ofDigits base (← digits p))

def integer : Reader Int :=
  radixInteger 'x' 16 isHexDigit
    <|> radixInteger 'o' 8 (fun c => '0' ≤ c && c ≤ '7')
    <|> radixInteger 'b' 2 (fun c => c = '0' || c = '1')
    <|> decimalInteger

def fraction : Reader (List Char) := char '.' *> digits Char.isDigit

def exponent : Reader Int := do
  char 'e' <|> char 'E'
  let negative ← sign
  return signedNat negative (ofDigits 10 (← digits Char.isDigit))

def decimalFloat : Reader Float := do
  let negative ← sign
  let whole ← wholeDigits
  let (places, scale) ← (do let e ← exponent; return ([], e))
    <|> (do return (← fraction, ← exponent <|> pure 0))
  let x := Decimal.nearest negative ⟨ofDigits 10 (whole ++ places), scale - places.length⟩
  if x == 1.0 / 0.0 then failure else return x

def specialFloat : Reader Float := do
  let negative ← sign
  let x ← (word ['i', 'n', 'f'] *> pure (1.0 / 0.0)) <|> (word ['n', 'a', 'n'] *> pure (0.0 / 0.0))
  return if negative then -x else x

def float : Reader Float := decimalFloat <|> specialFloat

def boolean : Reader Bool :=
  (word ['t', 'r', 'u', 'e'] *> pure true) <|> (word ['f', 'a', 'l', 's', 'e'] *> pure false)

def fixedWidth : (width : Nat) → Reader Nat
  | 0 => pure 0
  | n + 1 => do
    let high ← satisfy Char.isDigit
    return hexValue high * Nat.pow 10 n + (← fixedWidth n)

def date : Reader Date := do
  let year ← fixedWidth 4
  char '-'
  let month ← fixedWidth 2
  char '-'
  let day ← fixedWidth 2
  let d : Date := { year, month, day }
  if d.isValid then return d else failure

/-- Digits beyond the ninth are dropped. -/
def nanoseconds : Reader Nat := do
  char '.'
  let first ← satisfy Char.isDigit
  let ds := (first :: (← takeWhile Char.isDigit)).take 9
  return ofDigits 10 ds * Nat.pow 10 (9 - ds.length)

def time : Reader Time := do
  let hour ← fixedWidth 2
  char ':'
  let minute ← fixedWidth 2
  char ':'
  let second ← fixedWidth 2
  let nanosecond ← nanoseconds <|> pure 0
  let t : Time := { hour, minute, second, nanosecond }
  if t.isValid then return t else failure

def offset : Reader Offset :=
  ((char 'Z' <|> char 'z') *> pure .universal) <|> do
    let negative ← (char '-' *> pure true) <|> (char '+' *> pure false)
    let hours ← fixedWidth 2
    char ':'
    let minutes ← fixedWidth 2
    if hours ≤ 23 ∧ minutes ≤ 59 then return .minutes (signedNat negative (60 * hours + minutes))
    else failure

def dateTime : Reader DateTime :=
  (do
    let d ← date
    (do
      char 'T' <|> char 't' <|> char ' '
      let t ← time
      let o ← optional offset
      return .moment d t o) <|> pure (.date d))
    <|> .time <$> time

end SimSetup.Toml
