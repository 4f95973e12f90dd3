/-!
# Numbers that geometry is computed with

Vectors, rotations and patches are written once over `Scalar`. The program runs them on doubles,
where each operation rounds; read over the real numbers the same definitions are exact.
-/

namespace SimSetup

class Scalar (α : Type) extends Add α, Sub α, Mul α, Neg α, Div α where
  zero : α
  one : α
  half : α
  sqrt : α → α
  sin : α → α
  cos : α → α
  acos : α → α
  /-- Degrees in a half turn. -/
  halfTurn : α
  toDegrees : α → α
  toRadians : α → α
  isZero : α → Bool
  /-- Neither infinite nor NaN. -/
  isFinite : α → Bool
  le : α → α → Bool
  /-- An angle, in degrees, too small to turn anything. -/
  negligible : α → Bool

/-- The functions on doubles that a library provides and IEEE arithmetic does not fix. -/
class Trig where
  sin : Float → Float
  cos : Float → Float
  acos : Float → Float

instance : Trig := ⟨Float.sin, Float.cos, Float.acos⟩

namespace Scalar

def floatPi : Float := 3.141592653589793

def floatEpsilon : Float := 2.220446049250313e-16

instance [Trig] : Scalar Float where
  zero := 0.0
  one := 1.0
  half := 0.5
  sqrt := Float.sqrt
  sin := Trig.sin
  cos := Trig.cos
  acos := Trig.acos
  halfTurn := 180.0
  toDegrees x := x * (180.0 / floatPi)
  toRadians x := x * (floatPi / 180.0)
  isZero x := x == 0.0
  isFinite := Float.isFinite
  le x y := x ≤ y
  negligible x := x.abs < floatEpsilon

end Scalar

end SimSetup
