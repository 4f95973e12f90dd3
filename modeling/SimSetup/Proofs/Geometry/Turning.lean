import SimSetup.Proofs.Geometry.Real

/-!
# Rotations over the real numbers

A turn is linear, keeps dot and cross products and leaves its axis in place, whatever its angle and
its axis and with every sine and cosine on the unit circle. Turning by the angle between two unit
vectors, about their cross product, carries the first to the second.
-/

namespace SimSetup

attribute [ext] Vec

-- ---------------------------------------------------------------------------
-- Vectors
-- ---------------------------------------------------------------------------

namespace Vec

section
variable (a b : Vec ℝ) (s : ℝ)

theorem dot_scale : a.dot (b.scale s) = a.dot b * s := by
  simp only [dot_eq, scale_x, scale_y, scale_z]
  ring

theorem scale_dot : (a.scale s).dot b = a.dot b * s := by
  simp only [dot_eq, scale_x, scale_y, scale_z]
  ring

theorem dot_cross_left : a.dot (a.cross b) = 0 := by
  simp only [dot_eq, cross_x, cross_y, cross_z]
  ring

theorem dot_cross_right : b.dot (a.cross b) = 0 := by
  simp only [dot_eq, cross_x, cross_y, cross_z]
  ring

/-- Lagrange's identity. -/
theorem cross_dot_self : (a.cross b).dot (a.cross b) = a.dot a * b.dot b - a.dot b ^ 2 := by
  simp only [dot_eq, cross_x, cross_y, cross_z]
  ring

theorem add_sub_add_right (v : Vec ℝ) : a + v - (b + v) = a - b := by
  ext <;> simp

theorem unitZ_dot_self : (unitZ : Vec ℝ).dot unitZ = 1 := by
  change (0 * 0 + 0 * 0 + 1 * 1 : ℝ) = 1
  norm_num

theorem length_mul_self : a.length * a.length = a.dot a :=
  Real.mul_self_sqrt (dot_self_nonneg a)

end

section
variable {a b u : Vec ℝ}

theorem dot_self_eq_zero : a.dot a = 0 ↔ a = zero := by
  constructor
  · intro h
    rw [dot_eq] at h
    have hx : a.x = 0 := by nlinarith [sq_nonneg a.x, sq_nonneg a.y, sq_nonneg a.z]
    have hy : a.y = 0 := by nlinarith [sq_nonneg a.x, sq_nonneg a.y, sq_nonneg a.z]
    have hz : a.z = 0 := by nlinarith [sq_nonneg a.x, sq_nonneg a.y, sq_nonneg a.z]
    exact Vec.ext hx hy hz
  · rintro rfl
    simp [dot_eq]

theorem length_eq_zero : a.length = 0 ↔ a = zero := by
  rw [← dot_self_eq_zero, ← length_mul_self, mul_self_eq_zero]

theorem length_of_dot_self {s : ℝ} (hs : 0 ≤ s) (h : a.dot a = s * s) : a.length = s :=
  (congrArg Real.sqrt h).trans (Real.sqrt_mul_self hs)

theorem normalized?_of_zero (h : a = zero) : a.normalized? = none := by
  have hlength : Scalar.isZero a.length = true := decide_eq_true (length_eq_zero.mpr h)
  rw [normalized?, hlength]
  rfl

theorem normalized?_of_ne (h : a ≠ zero) : a.normalized? = some (a.scale (1 / a.length)) := by
  have hlength : Scalar.isZero a.length = false := decide_eq_false (mt length_eq_zero.mp h)
  rw [normalized?, hlength]
  rfl

theorem ne_zero_of_normalized? (h : a.normalized? = some u) : a ≠ zero := by
  intro hzero
  rw [normalized?_of_zero hzero] at h
  cases h

theorem eq_of_normalized? (h : a.normalized? = some u) : u = a.scale (1 / a.length) := by
  rw [normalized?_of_ne (ne_zero_of_normalized? h)] at h
  exact (Option.some.inj h).symm

theorem scale_length_normalized? (a u : Vec ℝ) : (a.normalized?.getD u).scale a.length = a := by
  by_cases h : a = zero
  · rw [normalized?_of_zero h, length_eq_zero.mpr h, h]
    ext <;> simp
  · have hlength : a.length ≠ 0 := mt length_eq_zero.mp h
    rw [normalized?_of_ne h]
    ext <;> simp only [Option.getD_some, scale_x, scale_y, scale_z] <;> field_simp

theorem dot_self_of_normalized? (h : a.normalized? = some u) : u.dot u = 1 := by
  have hlength : a.length ≠ 0 := mt length_eq_zero.mp (ne_zero_of_normalized? h)
  rw [eq_of_normalized? h, dot_scale, scale_dot, ← length_mul_self]
  field_simp

theorem normalized?_scale {s : ℝ} (hu : u.dot u = 1) (hs : 0 < s) :
    (u.scale s).normalized? = some u := by
  have hdot : (u.scale s).dot (u.scale s) = s * s := by rw [dot_scale, scale_dot, hu, one_mul]
  have hlength := length_of_dot_self hs.le hdot
  have hne : u.scale s ≠ zero := mt length_eq_zero.mpr (by rw [hlength]; exact hs.ne')
  rw [normalized?_of_ne hne, hlength]
  congr 1
  ext <;> simp only [scale_x, scale_y, scale_z] <;> field_simp

theorem normalized?_of_unit (hu : u.dot u = 1) : u.normalized? = some u := by
  have hone : u.scale 1 = u := by ext <;> exact mul_one _
  have h := normalized?_scale hu one_pos
  rwa [hone] at h

theorem eq_of_one_le_dot (ha : a.dot a = 1) (hb : b.dot b = 1) (h : 1 ≤ a.dot b) : b = a := by
  have hdist : (b - a).dot (b - a) = b.dot b + a.dot a - 2 * a.dot b := by
    simp only [dot_eq, sub_x, sub_y, sub_z]
    ring
  have hzero : (b - a).dot (b - a) = 0 :=
    le_antisymm (by rw [hdist]; linarith) (dot_self_nonneg _)
  have hsub := dot_self_eq_zero.mp hzero
  have hcomponent : ∀ axis, (b - a).get axis = 0 := fun axis => by rw [hsub]; cases axis <;> rfl
  exact Vec.ext (sub_eq_zero.mp (hcomponent .x)) (sub_eq_zero.mp (hcomponent .y))
    (sub_eq_zero.mp (hcomponent .z))

theorem eq_neg_of_dot_le (ha : a.dot a = 1) (hb : b.dot b = 1) (h : a.dot b ≤ -1) :
    b = a.scale (-1) :=
  eq_of_one_le_dot (by rw [dot_scale, scale_dot, ha]; norm_num) hb (by rw [scale_dot]; linarith)

end

end Vec

-- ---------------------------------------------------------------------------
-- Rodrigues' formula
-- ---------------------------------------------------------------------------

namespace Rotation

section
variable (c s : ℝ) (k a b : Vec ℝ)

theorem turned_add : turned c s k (a + b) = turned c s k a + turned c s k b := by
  ext <;> simp only [turned, Vec.dot_eq, Vec.add_x, Vec.add_y, Vec.add_z, Vec.scale_x, Vec.scale_y,
    Vec.scale_z, Vec.cross_x, Vec.cross_y, Vec.cross_z] <;> ring

theorem turned_scale (r : ℝ) : turned c s k (a.scale r) = (turned c s k a).scale r := by
  ext <;> simp only [turned, Vec.dot_eq, Vec.add_x, Vec.add_y, Vec.add_z, Vec.scale_x, Vec.scale_y,
    Vec.scale_z, Vec.cross_x, Vec.cross_y, Vec.cross_z] <;> ring

end

section
variable {c s : ℝ} {k : Vec ℝ} (hk : k.dot k = 1) (hcs : c ^ 2 + s ^ 2 = 1)
include hk hcs

theorem turned_dot (a b : Vec ℝ) : (turned c s k a).dot (turned c s k b) = a.dot b := by
  have h : (turned c s k a).dot (turned c s k b) = c ^ 2 * a.dot b +
      s ^ 2 * (k.dot k * a.dot b - k.dot a * k.dot b) +
      k.dot a * k.dot b * (2 * c * (1 - c) + k.dot k * (1 - c) ^ 2) := by
    simp only [turned, Vec.dot_eq, Vec.add_x, Vec.add_y, Vec.add_z, Vec.scale_x, Vec.scale_y,
      Vec.scale_z, Vec.cross_x, Vec.cross_y, Vec.cross_z]
    ring
  rw [h, hk]
  linear_combination (a.dot b - k.dot a * k.dot b) * hcs

theorem turned_cross (a b : Vec ℝ) :
    (turned c s k a).cross (turned c s k b) = turned c s k (a.cross b) := by
  have h : (turned c s k a).cross (turned c s k b) =
      (a.cross b).scale (c ^ 2 + c * (1 - c) * k.dot k) +
        (k.cross (a.cross b)).scale (c * s + s * (1 - c) * k.dot k) +
        k.scale (k.dot (a.cross b) * (s ^ 2 - c * (1 - c))) := by
    ext <;> simp only [turned, Vec.dot_eq, Vec.add_x, Vec.add_y, Vec.add_z, Vec.scale_x,
      Vec.scale_y, Vec.scale_z, Vec.cross_x, Vec.cross_y, Vec.cross_z] <;> ring
  have hs : s ^ 2 - c * (1 - c) = 1 - c := by linear_combination hcs
  have hc : c ^ 2 + c * (1 - c) = c := by ring
  have hcs' : c * s + s * (1 - c) = s := by ring
  rw [h, hk, mul_one, mul_one, hc, hcs', hs, turned]

end

/-- About `n × t` the unit vector `n` is carried to `t`. -/
theorem turned_carries {n t : Vec ℝ} {s : ℝ} (hn : n.dot n = 1) (hs : s ≠ 0) :
    turned (n.dot t) s ((n.cross t).scale (1 / s)) n = t := by
  have haxis : ((n.cross t).scale (1 / s)).dot n = 0 := by
    simp only [Vec.dot_eq, Vec.scale_x, Vec.scale_y, Vec.scale_z, Vec.cross_x, Vec.cross_y,
      Vec.cross_z]
    ring
  have hcross : (((n.cross t).scale (1 / s)).cross n).scale s =
      t.scale (n.dot n) + n.scale (-n.dot t) := by
    ext <;> simp only [Vec.dot_eq, Vec.add_x, Vec.add_y, Vec.add_z, Vec.scale_x, Vec.scale_y,
      Vec.scale_z, Vec.cross_x, Vec.cross_y, Vec.cross_z] <;> field_simp <;> ring
  rw [turned, haxis, hcross, hn]
  ext <;> simp only [Vec.add_x, Vec.add_y, Vec.add_z, Vec.scale_x, Vec.scale_y, Vec.scale_z] <;> ring

theorem turned_self (hk : k.dot k = 1) (c s : ℝ) : turned c s k k = k := by
  have hcross : k.cross k = Vec.zero := by
    ext <;> simp only [Vec.cross_x, Vec.cross_y, Vec.cross_z, Vec.zero_x, Vec.zero_y,
      Vec.zero_z] <;> ring
  rw [turned, hcross, hk]
  ext <;> simp only [Vec.add_x, Vec.add_y, Vec.add_z, Vec.scale_x, Vec.scale_y, Vec.scale_z,
    Vec.zero_x, Vec.zero_y, Vec.zero_z] <;> ring

-- ---------------------------------------------------------------------------
-- Proper maps
-- ---------------------------------------------------------------------------

/-- A map of directions that is linear, keeps lengths, angles and orientation, and leaves the axis
in place. -/
structure IsProper (axis : Vec ℝ) (f : Vec ℝ → Vec ℝ) : Prop where
  add : ∀ a b, f (a + b) = f a + f b
  scale : ∀ a s, f (a.scale s) = (f a).scale s
  dot : ∀ a b, (f a).dot (f b) = a.dot b
  cross : ∀ a b, (f a).cross (f b) = f (a.cross b)
  axis : f axis = axis

theorem IsProper.of_eq {axis : Vec ℝ} {f : Vec ℝ → Vec ℝ} (h : ∀ v, f v = v) : IsProper axis f where
  add a b := by rw [h, h, h]
  scale a s := by rw [h, h]
  dot a b := by rw [h, h]
  cross a b := by rw [h, h, h]
  axis := h axis

theorem IsProper.turned {axis : Vec ℝ} {c s : ℝ} (hk : axis.normalized? = some k)
    (hcs : c ^ 2 + s ^ 2 = 1) : IsProper axis (turned c s k) where
  add := turned_add c s k
  scale := turned_scale c s k
  dot := turned_dot (Vec.dot_self_of_normalized? hk) hcs
  cross := turned_cross (Vec.dot_self_of_normalized? hk) hcs
  axis := by
    have haxis : k.scale axis.length = axis := by
      have h := Vec.scale_length_normalized? axis k
      rwa [hk, Option.getD_some] at h
    rw [← haxis, turned_scale, turned_self (Vec.dot_self_of_normalized? hk)]

section
variable {axis : Vec ℝ} {f : Vec ℝ → Vec ℝ} (h : IsProper axis f) (a b : Vec ℝ)
include h

theorem IsProper.sub : f (a - b) = f a - f b := by
  have hsub : ∀ a b : Vec ℝ, a - b = a + b.scale (-1) := fun a b => by
    ext <;> simp only [Vec.sub_x, Vec.sub_y, Vec.sub_z, Vec.add_x, Vec.add_y, Vec.add_z, Vec.scale_x,
      Vec.scale_y, Vec.scale_z] <;> ring
  rw [hsub, h.add, h.scale, ← hsub]

theorem IsProper.length : (f a).length = a.length := by
  rw [Vec.length, h.dot, Vec.length]

end

-- ---------------------------------------------------------------------------
-- Turns
-- ---------------------------------------------------------------------------

section
variable {α : Type} [Scalar α] {r : Rotation α} {k : Vec α}

theorem turn_of_isIdentity (h : r.isIdentity = true) (v : Vec α) : r.turn v = v := by
  rw [isIdentity, Bool.or_eq_true, Option.isNone_iff_eq_none] at h
  unfold turn
  obtain h | h := h
  · cases r.axis.normalized? <;> simp [h]
  · rw [h]

theorem turn_eq_rodrigues (hk : r.axis.normalized? = some k)
    (hangle : Scalar.negligible r.angle = false) (v : Vec α) :
    r.turn v = rodrigues k (Scalar.toRadians r.angle) v := by
  simp only [turn, hk, hangle, Bool.false_eq_true, if_false]

theorem exists_axis (h : r.isIdentity = false) :
    ∃ k, r.axis.normalized? = some k ∧ Scalar.negligible r.angle = false := by
  rw [isIdentity, Bool.or_eq_false_iff, Option.isNone_eq_false_iff] at h
  obtain ⟨k, hk⟩ := Option.isSome_iff_exists.mp h.2
  exact ⟨k, hk, h.1⟩

end

end Rotation

/-- What a rotation relies on of the sine and the cosine that it is computed with. -/
structure Circular where
  sin : ℝ → ℝ
  cos : ℝ → ℝ
  cos_sq_add_sin_sq : ∀ x, cos x ^ 2 + sin x ^ 2 = 1
  sin_neg : ∀ x, sin (-x) = -sin x
  cos_neg : ∀ x, cos (-x) = cos x

namespace Circular

noncomputable def real : Circular :=
  ⟨Real.sin, Real.cos, Real.cos_sq_add_sin_sq, Real.sin_neg, Real.cos_neg⟩

variable (T : Circular) (r : Rotation ℝ)

/-- Exact arithmetic with another sine and cosine. -/
@[reducible] noncomputable def scalar : Scalar ℝ :=
  { (inferInstance : Scalar ℝ) with sin := T.sin, cos := T.cos }

/-- The turn, computed with these; with the real ones it is the turn over the real numbers. -/
noncomputable def turn (v : Vec ℝ) : Vec ℝ := @Rotation.turn ℝ T.scalar r v

noncomputable def turnPoint (p : Vec ℝ) : Vec ℝ := @Rotation.turnPoint ℝ T.scalar r p

variable {r}

theorem turn_of_isIdentity (h : r.isIdentity = true) (v : Vec ℝ) : T.turn r v = v :=
  @Rotation.turn_of_isIdentity ℝ T.scalar r h v

theorem turn_of_not_identity (hk : r.axis.normalized? = some k)
    (hangle : Scalar.negligible r.angle = false) (v : Vec ℝ) :
    T.turn r v = Rotation.turned (T.cos (Scalar.toRadians r.angle)) (T.sin (Scalar.toRadians r.angle))
      k v :=
  @Rotation.turn_eq_rodrigues ℝ T.scalar r k hk hangle v

variable (r)

theorem isProper_turn : Rotation.IsProper r.axis (T.turn r) := by
  cases hid : r.isIdentity with
  | true => exact .of_eq (T.turn_of_isIdentity hid)
  | false =>
    obtain ⟨k, hk, hangle⟩ := Rotation.exists_axis hid
    rw [funext (T.turn_of_not_identity hk hangle)]
    exact .turned hk (T.cos_sq_add_sin_sq _)

theorem turnPoint_eq (p : Vec ℝ) : T.turnPoint r p = r.pivot + T.turn r (p - r.pivot) := by
  change (if r.isIdentity then p else r.pivot + T.turn r (p - r.pivot)) = _
  split
  case isTrue hid =>
    rw [T.turn_of_isIdentity hid]
    ext <;> simp only [Vec.add_x, Vec.add_y, Vec.add_z, Vec.sub_x, Vec.sub_y, Vec.sub_z] <;> ring
  case isFalse => rfl

theorem turnPoint_sub (p q : Vec ℝ) : T.turnPoint r p - T.turnPoint r q = T.turn r (p - q) := by
  have hsub : p - q = (p - r.pivot) - (q - r.pivot) := by ext <;> simp
  rw [hsub, (T.isProper_turn r).sub, turnPoint_eq, turnPoint_eq]
  ext <;> simp

end Circular

namespace Rotation

section
variable (r : Rotation ℝ) (a b : Vec ℝ)

theorem isProper_turn : IsProper r.axis r.turn := Circular.real.isProper_turn r

theorem turn_add : r.turn (a + b) = r.turn a + r.turn b := r.isProper_turn.add a b

theorem turn_scale (s : ℝ) : r.turn (a.scale s) = (r.turn a).scale s := r.isProper_turn.scale a s

theorem turn_dot : (r.turn a).dot (r.turn b) = a.dot b := r.isProper_turn.dot a b

theorem turn_cross : (r.turn a).cross (r.turn b) = r.turn (a.cross b) := r.isProper_turn.cross a b

theorem turn_length : (r.turn a).length = a.length := r.isProper_turn.length a

theorem turnPoint_eq : r.turnPoint a = r.pivot + r.turn (a - r.pivot) :=
  Circular.real.turnPoint_eq r a

theorem turnPoint_sub : r.turnPoint a - r.turnPoint b = r.turn (a - b) :=
  Circular.real.turnPoint_sub r a b

end

theorem turn_of_not_negligible {r : Rotation ℝ} (hk : r.axis.normalized? = some k)
    (hangle : Scalar.negligible r.angle = false) (v : Vec ℝ) :
    r.turn v = turned (Real.cos (Scalar.toRadians r.angle)) (Real.sin (Scalar.toRadians r.angle))
      k v :=
  turn_eq_rodrigues hk hangle v

theorem negligible_iff_real {x : ℝ} : Scalar.negligible x = true ↔ |x| < 2 ^ (-52 : ℤ) :=
  decide_eq_true_iff

theorem toDegrees_eq_zero {x : ℝ} : Scalar.toDegrees x = 0 ↔ x = 0 := by
  have hpi := Real.pi_ne_zero
  change x * (180 / Real.pi) = 0 ↔ x = 0
  simp [hpi]

theorem toRadians_toDegrees (x : ℝ) : Scalar.toRadians (Scalar.toDegrees x) = x := by
  have hpi := Real.pi_ne_zero
  change x * (180 / Real.pi) * (Real.pi / 180) = x
  field_simp

/-- A half turn takes what is perpendicular to its axis to its opposite. -/
theorem turn_halfTurn {axis pivot v : Vec ℝ} (haxis : axis ≠ Vec.zero) (h : axis.dot v = 0) :
    (⟨Scalar.halfTurn, axis, pivot⟩ : Rotation ℝ).turn v = v.scale (-1) := by
  have hangle : Scalar.negligible (Scalar.halfTurn : ℝ) = false := by
    rw [← Bool.not_eq_true, negligible_iff_real]
    change ¬ |(180 : ℝ)| < _
    norm_num
  have hpi : Scalar.toRadians (Scalar.halfTurn : ℝ) = Real.pi := by
    change (180 : ℝ) * (Real.pi / 180) = Real.pi
    ring
  rw [turn_of_not_negligible (Vec.normalized?_of_ne haxis) hangle]
  simp only [hpi, Real.cos_pi, Real.sin_pi, turned, Vec.scale_dot, h]
  ext <;> simp only [Vec.add_x, Vec.add_y, Vec.add_z, Vec.scale_x, Vec.scale_y, Vec.scale_z] <;> ring

theorem turn_carries {n t pivot : Vec ℝ} (hn : n.dot n = 1) (ht : t.dot t = 1) (hlow : -1 < n.dot t)
    (hhigh : n.dot t < 1)
    (hangle : Scalar.negligible (Scalar.toDegrees (Real.arccos (n.dot t))) = false) :
    (⟨Scalar.toDegrees (Real.arccos (n.dot t)), n.cross t, pivot⟩ : Rotation ℝ).turn n = t := by
  have hsq : (n.cross t).dot (n.cross t) = 1 - n.dot t ^ 2 := by
    rw [Vec.cross_dot_self, hn, ht, one_mul]
  have hpos : 0 < 1 - n.dot t ^ 2 := by nlinarith
  have hlength : (n.cross t).length = √(1 - n.dot t ^ 2) := congrArg Real.sqrt hsq
  have haxis : n.cross t ≠ Vec.zero := by
    intro hzero
    rw [← Vec.dot_self_eq_zero, hsq] at hzero
    exact hpos.ne' hzero
  rw [turn_of_not_negligible (Vec.normalized?_of_ne haxis) hangle]
  simp only [toRadians_toDegrees, Real.cos_arccos hlow.le hhigh.le, Real.sin_arccos, hlength]
  exact turned_carries hn (Real.sqrt_pos.mpr hpos).ne'

end Rotation

end SimSetup
