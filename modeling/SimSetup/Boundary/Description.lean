import SimSetup.Boundary.Basic

/-!
# Descriptions of boundaries

A boundary is described by a block of lines: its kind and name, its plane, and its pressure if the
kind has one. Names are quoted, so that a block has the same lines whatever the name holds.
-/

namespace SimSetup.Boundary

def heading (b : Boundary) : String :=
  match b.name with
  | some name => b.kind.title ++ " " ++ Text.quoted name
  | none => b.kind.title

def descriptionLines (b : Boundary) : List String :=
  let plane := b.plane
  [b.heading,
    "  centre:   " ++ plane.center.text,
    "  normal:   " ++ plane.normal.text,
    "  axis1:    " ++ plane.edge1.text,
    "  axis2:    " ++ plane.edge2.text]
    ++ if b.kind.hasPressure then ["  pressure: " ++ b.pressureEquation] else []

def block (b : Boundary) : String :=
  String.join (b.descriptionLines.map (· ++ "\n"))

/-- Blocks are separated by one empty line. -/
def describe (boundaries : List Boundary) : String :=
  String.intercalate "\n" (boundaries.map block)

end SimSetup.Boundary
