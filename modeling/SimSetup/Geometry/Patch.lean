import SimSetup.Geometry.Rotation

/-!
# Finite plane patches

A patch is a parallelogram given by one corner and its two neighbours. Its centre and its normal are
stored beside the corners and follow them when the patch is moved or turned.
-/

namespace SimSetup

structure Patch (α : Type) where
  origin : Vec α
  corner1 : Vec α
  corner2 : Vec α
  center : Vec α
  normal : Vec α
  deriving DecidableEq, BEq, Repr

namespace Patch

variable {α : Type} [Scalar α]

def edge1 (p : Patch α) : Vec α := p.corner1 - p.origin

def edge2 (p : Patch α) : Vec α := p.corner2 - p.origin

/-- Edges that are parallel, or one of them zero, span no normal; +Z stands in for it. -/
def ofCorners (origin corner1 corner2 : Vec α) : Patch α :=
  let edge1 := corner1 - origin
  let edge2 := corner2 - origin
  { origin, corner1, corner2
    center := origin + (edge1 + edge2).scale Scalar.half
    normal := (edge1.cross edge2).normalized?.getD Vec.unitZ }

def square (r : α) : Patch α :=
  ofCorners ⟨-r, -r, Scalar.zero⟩ ⟨r, -r, Scalar.zero⟩ ⟨-r, r, Scalar.zero⟩

def corners (p : Patch α) : List (Vec α) :=
  [p.origin, p.corner1, p.corner1 + p.edge2, p.corner2]

def area (p : Patch α) : α := (p.edge1.cross p.edge2).length

def moveTo (p : Patch α) (center : Vec α) : Patch α :=
  let shift := center - p.center
  { p with
    origin := p.origin + shift
    corner1 := p.corner1 + shift
    corner2 := p.corner2 + shift
    center }

def rotateCorners (p : Patch α) (r : Rotation α) : Patch α :=
  { p with
    origin := r.turnPoint p.origin
    corner1 := r.turnPoint p.corner1
    corner2 := r.turnPoint p.corner2 }

/-- The rotation about the centre that carries the normal to the unit vector `target`: none when
they agree, a half turn about the first edge when they are opposite. -/
def rotationTo? (p : Patch α) (target : Vec α) : Option (Rotation α) :=
  let d := p.normal.dot target
  if Scalar.le Scalar.one d then none
  else if Scalar.le d (-Scalar.one) then some ⟨Scalar.halfTurn, p.edge1, p.center⟩
  else some ⟨Scalar.toDegrees (Scalar.acos d), p.normal.cross target, p.center⟩

/-- A `normal` without direction is ignored. -/
def turnTo (p : Patch α) (normal : Vec α) : Patch α :=
  match normal.normalized? with
  | none => p
  | some target =>
    let turned := match p.rotationTo? target with
      | none => p
      | some r => p.rotateCorners r
    { turned with normal := target }

def facing (radius : α) (center normal : Vec α) : Patch α :=
  ((square radius).moveTo center).turnTo normal

end Patch

end SimSetup
