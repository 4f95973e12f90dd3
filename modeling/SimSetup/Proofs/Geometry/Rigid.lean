import SimSetup.Proofs.Geometry.Turning

/-!
# Rotations are rigid

A rotation moves points as a rigid body moves, about the line through the pivot along the axis, and
the rotation by the opposite angle moves them back. Of sine and cosine this needs only that they lie
on the unit circle and are odd and even.
-/

namespace SimSetup

namespace Rotation

def reverse (r : Rotation ℝ) : Rotation ℝ := { r with angle := -r.angle }

theorem negligible_neg (x : ℝ) : Scalar.negligible (-x) = Scalar.negligible x := by
  rw [Bool.eq_iff_iff, negligible_iff_real, negligible_iff_real, abs_neg]

theorem isIdentity_reverse (r : Rotation ℝ) : r.reverse.isIdentity = r.isIdentity :=
  congrArg (· || r.axis.normalized?.isNone) (negligible_neg r.angle)

theorem toRadians_neg (x : ℝ) : Scalar.toRadians (-x) = -Scalar.toRadians x := neg_mul ..

theorem turned_back {c s : ℝ} {k : Vec ℝ} (hk : k.dot k = 1) (hcs : c ^ 2 + s ^ 2 = 1) (v : Vec ℝ) :
    turned c (-s) k (turned c s k v) = v := by
  have h : turned c (-s) k (turned c s k v) = v.scale (c ^ 2 + s ^ 2 * k.dot k) +
      k.scale (k.dot v * (c * (1 - c) - s ^ 2 + (1 - c) * (c + (1 - c) * k.dot k))) := by
    ext <;> simp only [turned, Vec.dot_eq, Vec.add_x, Vec.add_y, Vec.add_z, Vec.scale_x,
      Vec.scale_y, Vec.scale_z, Vec.cross_x, Vec.cross_y, Vec.cross_z] <;> ring
  have hs : c * (1 - c) - s ^ 2 + (1 - c) * (c + (1 - c) * 1) = 0 := by linear_combination -hcs
  rw [h, hk, mul_one, hcs, hs]
  ext <;> simp

end Rotation

namespace Circular

variable (T : Circular) (r : Rotation ℝ)

theorem turn_reverse (v : Vec ℝ) : T.turn r.reverse (T.turn r v) = v := by
  cases hid : r.isIdentity with
  | true =>
    rw [T.turn_of_isIdentity (r.isIdentity_reverse.trans hid), T.turn_of_isIdentity hid]
  | false =>
    obtain ⟨k, hk, hangle⟩ := Rotation.exists_axis hid
    have haxis : r.reverse.axis.normalized? = some k := hk
    have hangle' := (Rotation.negligible_neg r.angle).trans hangle
    rw [T.turn_of_not_identity hk hangle, T.turn_of_not_identity haxis hangle', Rotation.reverse,
      Rotation.toRadians_neg, T.cos_neg, T.sin_neg]
    exact Rotation.turned_back (Vec.dot_self_of_normalized? hk) (T.cos_sq_add_sin_sq _) v

theorem turnPoint_reverse (p : Vec ℝ) : T.turnPoint r.reverse (T.turnPoint r p) = p := by
  have hpivot : r.reverse.pivot = r.pivot := rfl
  have hshift : r.pivot + T.turn r (p - r.pivot) - r.pivot = T.turn r (p - r.pivot) := by
    ext <;> simp
  rw [turnPoint_eq, turnPoint_eq, hpivot, hshift, turn_reverse]
  ext <;> simp

theorem turnPoint_axis (s : ℝ) :
    T.turnPoint r (r.pivot + r.axis.scale s) = r.pivot + r.axis.scale s := by
  have hshift : r.pivot + r.axis.scale s - r.pivot = r.axis.scale s := by ext <;> simp
  rw [turnPoint_eq, hshift, (T.isProper_turn r).scale, (T.isProper_turn r).axis]

/-- Whatever its angle, axis and pivot, a rotation is a proper rigid motion that can be undone. For
`Circular.real` this is about `Rotation.turn` and `Rotation.turnPoint` over the real numbers. -/
theorem turn_rigid :
    ((∀ a b s t, T.turn r (a.scale s + b.scale t) = (T.turn r a).scale s + (T.turn r b).scale t) ∧
      (∀ a b, (T.turn r a).dot (T.turn r b) = a.dot b) ∧
      (∀ a b, (T.turn r a).cross (T.turn r b) = T.turn r (a.cross b)) ∧
      T.turn r r.axis = r.axis) ∧
    ((∀ p q, (T.turnPoint r p - T.turnPoint r q).length = (p - q).length) ∧
      (∀ s, T.turnPoint r (r.pivot + r.axis.scale s) = r.pivot + r.axis.scale s) ∧
      ∀ p, T.turnPoint r p = r.pivot + T.turn r (p - r.pivot)) ∧
    (∀ v, T.turn r.reverse (T.turn r v) = v) ∧
      ∀ p, T.turnPoint r.reverse (T.turnPoint r p) = p := by
  have h := T.isProper_turn r
  refine ⟨⟨fun a b s t => ?_, h.dot, h.cross, h.axis⟩,
    ⟨fun p q => ?_, T.turnPoint_axis r, T.turnPoint_eq r⟩, T.turn_reverse r, T.turnPoint_reverse r⟩
  · rw [h.add, h.scale, h.scale]
  · rw [turnPoint_sub, h.length]

end Circular

end SimSetup
