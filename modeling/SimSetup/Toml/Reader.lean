/-!
# Readers

A reader takes a prefix of a text and either makes a result of it or fails. Failure carries no
reason: a text is a document or it is not.
-/

namespace SimSetup.Toml

abbrev Reader := StateT (List Char) Option

namespace Reader

def satisfy (p : Char → Bool) : Reader Char
  | c :: rest => if p c then some (c, rest) else none
  | [] => none

def char (c : Char) : Reader Unit := (fun _ => ()) <$> satisfy (· = c)

def word : List Char → Reader Unit
  | [] => pure ()
  | c :: cs => do
    char c
    word cs

def takeWhile (p : Char → Bool) : Reader (List Char) :=
  fun text => some (text.takeWhile p, text.dropWhile p)

def ending : Reader Unit
  | [] => some ((), [])
  | _ => none

def ahead (r : Reader α) : Reader Unit :=
  fun text => (r text).map fun _ => ((), text)

/-- One result after another until `r` fails, and at most one for each element of `budget`. -/
def atMost (r : Reader α) : (budget : List Char) → Reader (List α)
  | [] => pure []
  | _ :: budget => fun text =>
    match r text with
    | none => some ([], text)
    | some (a, rest) => (atMost r budget rest).map fun (as, rest) => (a :: as, rest)

/-- As many results as there are. A reader that takes at least one character each time cannot
succeed more often than the text has characters. -/
def many (r : Reader α) : Reader (List α) :=
  fun text => atMost r text text

def many1 (r : Reader α) : Reader (List α) := do
  return (← r) :: (← many r)

def separated (r : Reader α) (separator : Reader Unit) : Reader (List α) := do
  return (← r) :: (← many (separator *> r))

def run? (r : Reader α) (text : List Char) : Option α :=
  match (r <* ending) text with
  | some (a, _) => some a
  | none => none

end Reader

end SimSetup.Toml
