import Std.Data.ExtTreeMap
import Std.Data.ExtTreeSet

/-!
# What goes stale

Derived properties of a boundary are computed when asked for, so whoever shows one has to know when
it is out of date. `Dependencies` records which derived property reads which attribute. Attributes
are named by paths whose segments are separated by dots; a change to a path touches the path itself,
all that lies below it and all that it lies below.
-/

namespace SimSetup.Boundary

def covers : (above path : List Char) → Bool
  | [], rest => rest.isEmpty || rest.head? == some '.'
  | _ :: _, [] => false
  | a :: above, c :: path => a == c && covers above path

def pathsOverlap (a b : String) : Bool :=
  covers a.toList b.toList || covers b.toList a.toList

/-- For each attribute path that was read, the derived properties that read it. -/
structure Dependencies where
  readers : Std.ExtTreeMap String (Std.ExtTreeSet String)

namespace Dependencies

def empty : Dependencies := ⟨∅⟩

instance : BEq Dependencies := ⟨fun a b => a.readers == b.readers⟩

def add (d : Dependencies) (derived path : String) : Dependencies :=
  ⟨d.readers.insert path ((d.readers.getD path ∅).insert derived)⟩

/-- The derived properties that a change to `path` makes stale, in increasing order. -/
def dependents (d : Dependencies) (path : String) : List String :=
  let touched := d.readers.toList.filter fun (read, _) => pathsOverlap read path
  (Std.ExtTreeSet.ofList (touched.flatMap fun (_, derived) => derived.toList)).toList

def dependencies (d : Dependencies) (derived : String) : List String :=
  (d.readers.toList.filter fun (_, names) => names.contains derived).map Prod.fst

def isEmpty (d : Dependencies) : Bool := d.readers.isEmpty

end Dependencies

end SimSetup.Boundary
