import Mathlib
import SimSetup.Geometry.Patch

/-!
# Geometry over the real numbers

Read over the reals every operation is exact, so vectors, rotations and patches obey the laws of
geometry. The lemmas here give the operations on real vectors by their components.
-/

namespace SimSetup

/-- Where this is an instance, a numeral in a definition refers to it by its name. -/
theorem atLeastTwo_two : Nat.AtLeastTwo 2 := inferInstance

section
attribute [local instance] atLeastTwo_two

noncomputable instance : Scalar ℝ where
  zero := 0
  one := 1
  half := 1 / 2
  sqrt := Real.sqrt
  sin := Real.sin
  cos := Real.cos
  acos := Real.arccos
  halfTurn := 180
  toDegrees x := x * (180 / Real.pi)
  toRadians x := x * (Real.pi / 180)
  isZero x := open Classical in decide (x = 0)
  isFinite _ := true
  le x y := open Classical in decide (x ≤ y)
  negligible x := open Classical in decide (|x| < 2 ^ (-52 : ℤ))

end

namespace Vec

variable (a b : Vec ℝ) (s : ℝ)

@[simp] theorem zero_x : (zero : Vec ℝ).x = 0 := rfl
@[simp] theorem zero_y : (zero : Vec ℝ).y = 0 := rfl
@[simp] theorem zero_z : (zero : Vec ℝ).z = 0 := rfl
@[simp] theorem add_x : (a + b).x = a.x + b.x := rfl
@[simp] theorem add_y : (a + b).y = a.y + b.y := rfl
@[simp] theorem add_z : (a + b).z = a.z + b.z := rfl
@[simp] theorem sub_x : (a - b).x = a.x - b.x := rfl
@[simp] theorem sub_y : (a - b).y = a.y - b.y := rfl
@[simp] theorem sub_z : (a - b).z = a.z - b.z := rfl
@[simp] theorem scale_x : (a.scale s).x = a.x * s := rfl
@[simp] theorem scale_y : (a.scale s).y = a.y * s := rfl
@[simp] theorem scale_z : (a.scale s).z = a.z * s := rfl
@[simp] theorem cross_x : (a.cross b).x = a.y * b.z - a.z * b.y := rfl
@[simp] theorem cross_y : (a.cross b).y = a.z * b.x - a.x * b.z := rfl
@[simp] theorem cross_z : (a.cross b).z = a.x * b.y - a.y * b.x := rfl

theorem zero_add : (⟨0, 0, 0⟩ : Vec ℝ) + a = a := by
  change (⟨0 + a.x, 0 + a.y, 0 + a.z⟩ : Vec ℝ) = a
  simp only [AddZeroClass.zero_add]

theorem dot_eq : a.dot b = a.x * b.x + a.y * b.y + a.z * b.z := rfl

theorem dot_self_nonneg : 0 ≤ a.dot a := by
  rw [dot_eq]
  nlinarith [mul_self_nonneg a.x, mul_self_nonneg a.y, mul_self_nonneg a.z]

end Vec

namespace Rotation

noncomputable def turned (c s : ℝ) (k v : Vec ℝ) : Vec ℝ :=
  v.scale c + (k.cross v).scale s + k.scale (k.dot v * (1 - c))

end Rotation

namespace Patch

/-- How far the corners wind around the stored normal: with the area for its size where the two
agree, and negative where they are opposite. -/
def winding {α : Type} [Scalar α] (p : Patch α) : α := (p.edge1.cross p.edge2).dot p.normal

/-- The winding about `t` of the square of half-width `r` turned about a horizontal axis `k`. -/
theorem winding_turned {k t : Vec ℝ} (c s r : ℝ) (hk : k.z = 0) {p : Patch ℝ}
    (h0 : p.origin = Rotation.turned c s k ⟨-r, -r, 0⟩)
    (h1 : p.corner1 = Rotation.turned c s k ⟨r, -r, 0⟩)
    (h2 : p.corner2 = Rotation.turned c s k ⟨-r, r, 0⟩) (ht : p.normal = t) :
    p.winding = 4 * r ^ 2 * (c + (1 - c) * (k.x ^ 2 + k.y ^ 2)) *
      (c * t.z + s * (k.y * t.x - k.x * t.y)) := by
  simp only [winding, edge1, edge2, h0, h1, h2, ht, Rotation.turned, Vec.dot_eq, Vec.add_x,
    Vec.add_y, Vec.add_z, Vec.sub_x, Vec.sub_y, Vec.sub_z, Vec.scale_x, Vec.scale_y, Vec.scale_z,
    Vec.cross_x, Vec.cross_y, Vec.cross_z, hk]
  ring

end Patch

end SimSetup
