import SimSetup.Text.Position
import SimSetup.Text.Segments

/-!
# Paths to files

A path is a text in which slashes separate the names of directories. Read as a route it says step by
step where to go, from the root or from wherever the reader stands.
-/

namespace SimSetup.Files

def isAbsolute (path : String) : Bool := path.toList.head? == some '/'

def endsInSlash (path : String) : Bool := path.toList.getLast? == some '/'

/-- The path `second` taken from the directory `first`; one that starts at the root stands alone. -/
def join (first second : String) : String :=
  if isAbsolute second then second
  else if first = "" || endsInSlash first then first ++ second
  else first ++ "/" ++ second

inductive Step
  | stay
  | up
  | down (name : String)
  deriving DecidableEq, Repr

def Step.ofSegment? (segment : List Char) : Option Step :=
  match segment with
  | [] => none
  | ['.'] => some .stay
  | ['.', '.'] => some .up
  | name => some (.down (.ofList name))

def steps (path : String) : List Step :=
  (Text.segments '/' path.toList).filterMap Step.ofSegment?

def Step.text : Step → String
  | stay => "."
  | up => ".."
  | down name => name

/-- The steps that a path is shortened by one after another. Staying counts only at the start of a
path that is not absolute. -/
def shortSteps (path : String) : List Step :=
  match steps path with
  | [] => []
  | first :: rest =>
    let rest := rest.filter (· ≠ .stay)
    if first = .stay && isAbsolute path then rest else first :: rest

def ancestors (path : String) : List String :=
  let names := (shortSteps path).map Step.text
  let start := if isAbsolute path then "/" else ""
  ((List.range names.length).reverse).map fun n => start ++ String.intercalate "/" (names.take n)

end SimSetup.Files
