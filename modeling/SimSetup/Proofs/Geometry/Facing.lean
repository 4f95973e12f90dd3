import SimSetup.Proofs.Geometry.Unit

/-!
# The winding of a patch that faces a direction

The square around the origin is turned to face a direction and is given that direction as its
normal. Corners that are left in place although the direction points below them wind against it.
-/

namespace SimSetup

open Double

variable [Trig]

-- ---------------------------------------------------------------------------
-- The square in its place
-- ---------------------------------------------------------------------------

/-- The computed square of half-width `ρ` around the origin. Its corners are exact; its normal may
miss the length one. -/
structure Upright (p : Patch Float) (ρ : ℝ) : Prop where
  origin : ExactVec p.origin ⟨-ρ, -ρ, 0⟩
  corner1 : ExactVec p.corner1 ⟨ρ, -ρ, 0⟩
  corner2 : ExactVec p.corner2 ⟨-ρ, ρ, 0⟩
  center : ExactVec p.center ⟨0, 0, 0⟩
  normalX : Exact p.normal.x 0
  normalY : Exact p.normal.y 0
  normalZ : Near p.normal.z 1 1 1e-12

section
variable {r : Float} {ρ : ℝ} (hr : Exact r ρ) (hlow : 1 ≤ ρ) (hhigh : ρ ≤ 1000)
include hr hlow hhigh

theorem square_edges : ExactVec (Patch.square r).edge1 ⟨2 * ρ, 0, 0⟩ ∧
    ExactVec (Patch.square r).edge2 ⟨0, 2 * ρ, 0⟩ := by
  have hρ : |ρ| ≤ 1e14 := by
    rw [abs_of_nonneg (by linarith)]
    norm_num
    linarith
  exact ⟨⟨hr.double hρ, hr.neg.sub_self hr.neg, exact_zero.sub_self exact_zero⟩,
    ⟨hr.neg.sub_self hr.neg, hr.double hρ, exact_zero.sub_self exact_zero⟩⟩

theorem square_center : ExactVec (Patch.square r).center ⟨0, 0, 0⟩ := by
  obtain ⟨h1, h2⟩ := square_edges hr hlow hhigh
  have h2ρ : |2 * ρ| ≤ 2 ^ (1000 : ℤ) := range_of_le (by
    rw [abs_of_nonneg (by linarith)]
    norm_num
    linarith)
  have hρ : |ρ| ≤ 2 ^ (1000 : ℤ) := range_of_le (by
    rw [abs_of_nonneg (by linarith)]
    norm_num
    linarith)
  have hhalf {x : Float} (hx : Exact x (2 * ρ)) : Exact (-r + x * 0.5) 0 := by
    have hmul : 2 * ρ * (1 / 2) = ρ := by ring
    have h := hx.mul exact_half (by rw [hmul]; exact hr.representable) (by rwa [hmul])
    rw [hmul] at h
    have hadd := hr.neg.add h (by simpa using representable_zero) (by simp)
    rwa [neg_add_cancel] at hadd
  refine ⟨hhalf (h1.x.add_zero h2.x h2ρ), hhalf (h1.y.zero_add h2.y h2ρ), ?_⟩
  exact exact_zero.add_zero ((h1.z.add_zero h2.z (by simp)).zero_mul exact_half) (by simp)

theorem square_cross : ∃ A, |A - 4 * ρ ^ 2| ≤ 1e-8 ∧
    ExactVec ((Patch.square r).edge1.cross (Patch.square r).edge2) ⟨0, 0, A⟩ := by
  obtain ⟨h1, h2⟩ := square_edges hr hlow hhigh
  have h2ρ : |2 * ρ| ≤ 2000 := by
    rw [abs_of_nonneg (by linarith)]
    linarith
  have hprod :
      Near ((Patch.square r).edge1.x * (Patch.square r).edge2.y) (2 * ρ * (2 * ρ)) 4e6 1e-8 :=
    ((h1.x.near h2ρ).mul (h2.y.near h2ρ) (by norm_num)).weaken (by norm_num)
      (by norm_num [productError, slack, roundoff])
  have hz := (exact_real hprod.finite).sub_zero (h1.y.mul_zero h2.x)
    (range_of_le (hprod.size.trans (by norm_num)))
  refine ⟨real ((Patch.square r).edge1.x * (Patch.square r).edge2.y), ?_,
    (h1.y.mul_zero h2.z).sub_zero (h1.z.zero_mul h2.y) (by simp),
    (h1.z.mul_zero h2.x).sub_zero (h1.x.mul_zero h2.z) (by simp), hz⟩
  have hsq : 4 * ρ ^ 2 = 2 * ρ * (2 * ρ) := by ring
  rw [hsq]
  exact hprod.error

theorem square_upright : Upright (Patch.square r) ρ := by
  obtain ⟨A, hA, hcross⟩ := square_cross hr hlow hhigh
  obtain ⟨hAlow, hAhigh⟩ := abs_le.mp hA
  have hreal : ((Patch.square r).edge1.cross (Patch.square r).edge2).real = ⟨0, 0, A⟩ := by
    rw [Vec.real, hcross.x.value, hcross.y.value, hcross.z.value]
  have hS : (⟨0, 0, A⟩ : Vec ℝ).dot ⟨0, 0, A⟩ = A ^ 2 := by
    rw [Vec.dot_eq]
    ring
  have hA3 : 3 ≤ A := by
    norm_num at hAlow
    nlinarith
  have hA5 : A ≤ 5e6 := by
    norm_num at hAhigh ⊢
    nlinarith
  obtain ⟨k, κ, hk, hscaled, hκ, herr⟩ := normalized_of_moderate
    (v := (Patch.square r).edge1.cross (Patch.square r).edge2)
    ⟨hcross.x.finite, hcross.y.finite, hcross.z.finite⟩
    (by rw [hreal, hS]; norm_num; nlinarith) (by rw [hreal, hS]; norm_num at hA5 ⊢; nlinarith)
  rw [hreal] at hscaled
  rw [hreal, hS] at herr
  have hnormal : (Patch.square r).normal = k := by
    change ((Patch.square r).edge1.cross (Patch.square r).edge2).normalized?.getD Vec.unitZ = k
    rw [hk]
    rfl
  refine ⟨⟨hr.neg, hr.neg, exact_zero⟩, ⟨hr, hr.neg, exact_zero⟩, ⟨hr.neg, hr, exact_zero⟩,
    square_center hr hlow hhigh, ?_, ?_, ?_⟩
  · rw [hnormal]
    exact (by simpa using hscaled.x : Rounded 0 k.x).exact representable_zero
  · rw [hnormal]
    exact (by simpa using hscaled.y : Rounded 0 k.y).exact representable_zero
  · rw [hnormal]
    obtain ⟨hlow', hhigh'⟩ := abs_le.mp herr
    have hκA : 0 < A * κ := by positivity
    have hunit : |A * κ - 1| ≤ 1e-13 := by
      rw [abs_le]
      constructor <;> nlinarith
    have hround := (hscaled.z.near (a := 1) (m := 1) (by norm_num) hunit)
    exact hround.weaken le_rfl (by norm_num [slack, roundoff])

end

namespace Upright

variable {p : Patch Float} {ρ : ℝ}

theorem moveTo {c : Vec Float} (hp : Upright p ρ) (hρ : |ρ| ≤ 1000) (hc : ExactVec c ⟨0, 0, 0⟩) :
    Upright (p.moveTo c) ρ := by
  have hpos : |ρ| ≤ 2 ^ (1000 : ℤ) := range_of_le (hρ.trans (by norm_num))
  have hneg : |-ρ| ≤ 2 ^ (1000 : ℤ) := by rwa [abs_neg]
  have hx := hc.x.sub_self hp.center.x
  have hy := hc.y.sub_self hp.center.y
  have hz := hc.z.sub_self hp.center.z
  exact ⟨⟨hp.origin.x.add_zero hx hneg, hp.origin.y.add_zero hy hneg,
      hp.origin.z.add_zero hz (by simp)⟩,
    ⟨hp.corner1.x.add_zero hx hpos, hp.corner1.y.add_zero hy hneg,
      hp.corner1.z.add_zero hz (by simp)⟩,
    ⟨hp.corner2.x.add_zero hx hneg, hp.corner2.y.add_zero hy hpos,
      hp.corner2.z.add_zero hz (by simp)⟩,
    hc, hp.normalX, hp.normalY, hp.normalZ⟩

variable {t : Vec Float}

theorem winding_unturned (hp : Upright p ρ) (hρ : |ρ| ≤ 1000) (ht : NearVec t t.real 1.01 0) :
    Near { p with normal := t }.winding (4 * ρ ^ 2 * real t.z) 1e10 0.01 := by
  have hneg : |-ρ| ≤ 1000 := by rwa [abs_neg]
  have hwide {v : Vec Float} {a : Vec ℝ} (h : NearVec v a 1000 0) : NearVec v a 20000 2e-10 :=
    h.weaken (by norm_num) (by norm_num)
  have h := near_winding (p := { p with normal := t })
    (q := ⟨⟨-ρ, -ρ, 0⟩, ⟨ρ, -ρ, 0⟩, ⟨-ρ, ρ, 0⟩, ⟨0, 0, 0⟩, t.real⟩)
    (hwide (hp.origin.near hneg hneg (by simp))) (hwide (hp.corner1.near hρ hneg (by simp)))
    (hwide (hp.corner2.near hneg hρ (by simp))) ht
  convert h using 1
  simp only [Patch.winding, Patch.edge1, Patch.edge2, Vec.dot_eq, Vec.cross_x, Vec.cross_y,
    Vec.cross_z, Vec.sub_x, Vec.sub_y, Vec.sub_z, Vec.real]
  ring

end Upright

-- ---------------------------------------------------------------------------
-- Turning the square
-- ---------------------------------------------------------------------------

section
variable {r : Rotation Float} {k : Vec Float}

theorem isIdentity_eq_false (hk : r.axis.normalized? = some k)
    (hθ : Scalar.negligible r.angle = false) : r.isIdentity = false := by
  rw [Rotation.isIdentity, hk, hθ]
  rfl

theorem rotateCorners_of_isIdentity (h : r.isIdentity = true) (p : Patch Float) :
    p.rotateCorners r = p := by
  simp only [Patch.rotateCorners, Rotation.turnPoint, h, ↓reduceIte]

theorem turnPoint_eq (hk : r.axis.normalized? = some k) (hθ : Scalar.negligible r.angle = false)
    (v : Vec Float) :
    r.turnPoint v = r.pivot + Rotation.rodrigues k (Scalar.toRadians r.angle) (v - r.pivot) := by
  rw [Rotation.turnPoint, isIdentity_eq_false hk hθ, Rotation.turn, hk, hθ]
  rfl

variable {v : Vec Float} {b : Vec ℝ} {c s : ℝ}

theorem near_turnPoint (hk : r.axis.normalized? = some k) (hθ : Scalar.negligible r.angle = false)
    (hpivot : ExactVec r.pivot ⟨0, 0, 0⟩) (hunit : NearVec k k.real 1.5 0)
    (hc : Near (Trig.cos (Scalar.toRadians r.angle)) c 1.01 0)
    (hs : Near (Trig.sin (Scalar.toRadians r.angle)) s 1.01 0) (hv : ExactVec v b)
    (hb : NearVec v b 1000 0) :
    NearVec (r.turnPoint v) (Rotation.turned c s k.real b) 20000 2e-10 := by
  have hrel : ExactVec (v - r.pivot) b :=
    ⟨hv.x.sub_zero hpivot.x (range_of_le (hb.x.bound.trans (by norm_num))),
      hv.y.sub_zero hpivot.y (range_of_le (hb.y.bound.trans (by norm_num))),
      hv.z.sub_zero hpivot.z (range_of_le (hb.z.bound.trans (by norm_num)))⟩
  have hrot := near_rodrigues hunit (hrel.near hb.x.bound hb.y.bound hb.z.bound) hc hs
  have hadd := (hpivot.near (m := 0) (by simp) (by simp) (by simp)).add hrot (by norm_num)
  rw [turnPoint_eq hk hθ]
  rw [Vec.zero_add] at hadd
  exact hadd.weaken (by norm_num) (by norm_num [sumError, slack, roundoff])

end

/-- The half turn and the slant turns alike keep the winding along the normal. -/
theorem Upright.winding_turned_pos {p : Patch Float} {ρ : ℝ} (hp : Upright p ρ) (hlow : 1 ≤ ρ)
    (hhigh : ρ ≤ 1000) {angle : Float} {axis k t : Vec Float} (hk : axis.normalized? = some k)
    (hθ : Scalar.negligible angle = false) (hunit : NearVec k k.real 1.5 0) (hflat : real k.z = 0)
    (hqlow : 0.55 ≤ k.real.dot k.real) (hqhigh : k.real.dot k.real ≤ 2.2)
    (hc : Near (Trig.cos (Scalar.toRadians angle)) c 1.01 0)
    (hs : Near (Trig.sin (Scalar.toRadians angle)) s 1.01 0)
    (hF : 0.6 ≤ c * real t.z + s * (real k.y * real t.x - real k.x * real t.y))
    (ht : NearVec t t.real 1.01 0) :
    0.0 < { p.rotateCorners ⟨angle, axis, p.center⟩ with normal := t }.winding := by
  have hρ : |ρ| ≤ 1000 := by rwa [abs_of_nonneg (by linarith)]
  have hneg : |-ρ| ≤ 1000 := by rwa [abs_neg]
  have hturn {v : Vec Float} {b : Vec ℝ} (hv : ExactVec v b) (hb : NearVec v b 1000 0) :=
    near_turnPoint (r := ⟨angle, axis, p.center⟩) hk hθ hp.center hunit hc hs hv hb
  have hnear := near_winding (p := { p.rotateCorners ⟨angle, axis, p.center⟩ with normal := t })
    (q := ⟨Rotation.turned c s k.real ⟨-ρ, -ρ, 0⟩, Rotation.turned c s k.real ⟨ρ, -ρ, 0⟩,
      Rotation.turned c s k.real ⟨-ρ, ρ, 0⟩, ⟨0, 0, 0⟩, t.real⟩)
    (hturn hp.origin (hp.origin.near hneg hneg (by simp)))
    (hturn hp.corner1 (hp.corner1.near hρ hneg (by simp)))
    (hturn hp.corner2 (hp.corner2.near hneg hρ (by simp))) ht
  rw [Patch.winding_turned c s ρ hflat rfl rfl rfl rfl] at hnear
  have hq : k.real.dot k.real = k.real.x ^ 2 + k.real.y ^ 2 := by
    have hz : k.real.z = 0 := hflat
    rw [Vec.dot_eq, hz]
    ring
  obtain ⟨hlow', -⟩ := hnear.bounds
  obtain ⟨hc1, hc2⟩ := abs_le.mp hc.bound
  rw [← hq] at hlow'
  change 0.6 ≤ c * t.real.z + s * (k.real.y * t.real.x - k.real.x * t.real.y) at hF
  generalize c * t.real.z + s * (k.real.y * t.real.x - k.real.x * t.real.y) = F at *
  generalize k.real.dot k.real = q at *
  have hG : 0.09 ≤ c + (1 - c) * q := by
    nlinarith
  have hGF : 0.05 ≤ (c + (1 - c) * q) * F := by
    nlinarith
  have hρ2 : 1 ≤ ρ ^ 2 := by nlinarith
  generalize (c + (1 - c) * q) = G at *
  have : 4 * 0.05 ≤ 4 * ρ ^ 2 * (G * F) := by
    nlinarith
  rw [lt_iff exact_zero.finite hnear.finite, exact_zero.value]
  linarith

end SimSetup
