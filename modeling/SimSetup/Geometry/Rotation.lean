import SimSetup.Geometry.Vec

/-!
# Rotations about a pivot

A positive angle turns counter-clockwise for a viewer whom the axis points at. Directions turn
without the pivot; points are taken relative to it and put back.
-/

namespace SimSetup

structure Rotation (α : Type) where
  /-- In degrees. -/
  angle : α
  /-- Need not have length one. -/
  axis : Vec α
  pivot : Vec α

namespace Rotation

variable {α : Type} [Scalar α]

def isIdentity (r : Rotation α) : Bool :=
  Scalar.negligible r.angle || r.axis.normalized?.isNone

/-- Rodrigues' formula `v cos θ + (k × v) sin θ + k (k · v) (1 - cos θ)` for the unit axis `k`. -/
def rodrigues (k : Vec α) (θ : α) (v : Vec α) : Vec α :=
  v.scale (Scalar.cos θ) + (k.cross v).scale (Scalar.sin θ)
    + k.scale (k.dot v * (Scalar.one - Scalar.cos θ))

def turn (r : Rotation α) (v : Vec α) : Vec α :=
  match r.axis.normalized? with
  | none => v
  | some k => if Scalar.negligible r.angle then v else rodrigues k (Scalar.toRadians r.angle) v

def turnPoint (r : Rotation α) (p : Vec α) : Vec α :=
  if r.isIdentity then p else r.pivot + r.turn (p - r.pivot)

end Rotation

end SimSetup
