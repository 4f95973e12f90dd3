import SimSetup.Proofs.Geometry.Angle

/-!
# Turning the square to a direction

Below the plane the square flips or turns about a horizontal axis. Both carry the corners along, so
that they wind around the direction they were turned to.
-/

namespace SimSetup

open Double

-- ---------------------------------------------------------------------------
-- The real numbers behind a slant turn
-- ---------------------------------------------------------------------------

/-- The turned square faces the direction `(x, y, z)`: its computed cosine is `c` and its sine `s`,
and `P` is how far the axis is square to the direction. -/
theorem slant_height {x y z c s d P : ℝ} (hT : |x ^ 2 + y ^ 2 + z ^ 2 - 1| ≤ 1e-12)
    (hd : |d - z| ≤ 1e-10) (hc : |c - d| ≤ 1e-11) (hs : 1 - d ^ 2 - 1e-11 ≤ s) (hs' : |s| ≤ 1.01)
    (hP : 0.89 * (x ^ 2 + y ^ 2) - 1e-12 ≤ P) (hP' : |P| ≤ 3.1) : 0.6 ≤ c * z + s * P := by
  obtain ⟨hT1, hT2⟩ := abs_le.mp hT
  obtain ⟨hd1, hd2⟩ := abs_le.mp hd
  obtain ⟨hc1, hc2⟩ := abs_le.mp hc
  obtain ⟨-, hs2⟩ := abs_le.mp hs'
  obtain ⟨-, hP2⟩ := abs_le.mp hP'
  have hz : |z| ≤ 1.01 := abs_le_of_sq_le_sq (by nlinarith [sq_nonneg x, sq_nonneg y])
    (by norm_num)
  obtain ⟨hz1, hz2⟩ := abs_le.mp hz
  have hcz : z ^ 2 - 2e-10 ≤ c * z := by
    have h : |(c - z) * z| ≤ 1.1e-10 * 1.01 := by
      rw [abs_mul]
      refine mul_le_mul ?_ hz (abs_nonneg z) (by norm_num)
      rw [abs_le]
      constructor <;> linarith
    obtain ⟨h1, -⟩ := abs_le.mp h
    linarith
  have hs0 : x ^ 2 + y ^ 2 ≤ s + 1e-9 := by
    have h : |(d - z) * (d + z)| ≤ 1e-10 * 3 := by
      rw [abs_mul]
      refine mul_le_mul hd ?_ (abs_nonneg _) (by norm_num)
      rw [abs_le]
      constructor <;> linarith
    obtain ⟨-, h2⟩ := abs_le.mp h
    linarith
  generalize hh : x ^ 2 + y ^ 2 = h at *
  have hh0 : 0 ≤ h := hh ▸ by positivity
  -- The two factors of the last product are not negative but for rounding.
  have hprod : h * (0.89 * h) ≤ (s + 1e-9) * (P + 1e-12) :=
    mul_le_mul hs0 (by linarith) (by positivity) (hh0.trans hs0)
  nlinarith [sq_nonneg (h - 0.56)]

/-- The axis `(k, l)`, normalised by `κ` from the rounded cross product `(a, b)`, is square to the
direction `(x, y)`. -/
theorem slant_tilt {x y z a b k l κ : ℝ} (hz : |z - 1| ≤ 1e-12) (hx : |x| ≤ 1.01) (hy : |y| ≤ 1.01)
    (ha : |a + z * y| ≤ roundoff * |z * y| + least / 2)
    (hb : |b - z * x| ≤ roundoff * |z * x| + least / 2)
    (hk : |k - a * κ| ≤ 2e-15) (hl : |l - b * κ| ≤ 2e-15) (hκ : 0.9 ≤ κ) (hκl : κ * least ≤ 1e-15) :
    0.89 * (x ^ 2 + y ^ 2) - 1e-12 ≤ l * x - k * y := by
  obtain ⟨hz1, hz2⟩ := abs_le.mp hz
  -- One component of the axis, against the component of the direction that it comes from.
  have hpart {p q : ℝ} (hp : |p| ≤ 1.01) (hq : |q - z * p| ≤ roundoff * |z * p| + least / 2) :
      0.99 * p ^ 2 - least ≤ q * p := by
    have hzp : |z * p| ≤ 1.01 * |p| := by
      rw [abs_mul, abs_of_nonneg (by linarith)]
      refine mul_le_mul_of_nonneg_right ?_ (abs_nonneg p)
      linarith
    have hqp : |q - z * p| ≤ 1e-14 * |p| + least / 2 := by
      have := mul_le_mul roundoff_le hzp (abs_nonneg _) (by norm_num)
      have := abs_nonneg p
      linarith
    have herr : |(q - z * p) * p| ≤ (1e-14 * |p| + least / 2) * |p| := by
      rw [abs_mul]
      exact mul_le_mul_of_nonneg_right hqp (abs_nonneg p)
    obtain ⟨hlow, -⟩ := abs_le.mp herr
    have hleast : least / 2 * |p| ≤ least / 2 * 1.01 :=
      mul_le_mul_of_nonneg_left hp (by linarith [least_pos])
    have hexp : (1e-14 * |p| + least / 2) * |p| = 1e-14 * p ^ 2 + least / 2 * |p| := by
      rw [← sq_abs p]
      ring
    rw [hexp] at hlow
    have hp0 := sq_nonneg p
    have hl := least_pos
    have hz0 : (z - 1) * p ^ 2 ≥ -1e-12 * p ^ 2 := mul_le_mul_of_nonneg_right hz1 hp0
    linarith
  have hbx := hpart hx hb
  have hay := hpart (q := -a) hy (by rw [← neg_add', abs_neg]; exact ha)
  have hsum : 0.99 * (x ^ 2 + y ^ 2) - 2 * least ≤ b * x - a * y := by linarith
  have hκsum : κ * (0.99 * (x ^ 2 + y ^ 2) - 2 * least) ≤ κ * (b * x - a * y) :=
    mul_le_mul_of_nonneg_left hsum (by linarith)
  have hκh : 0.9 * (x ^ 2 + y ^ 2) ≤ κ * (x ^ 2 + y ^ 2) :=
    mul_le_mul_of_nonneg_right hκ (by positivity)
  have hlx : |(l - b * κ) * x| ≤ 2e-15 * 1.01 := by
    rw [abs_mul]
    exact mul_le_mul hl hx (abs_nonneg x) (by norm_num)
  have hky : |(k - a * κ) * y| ≤ 2e-15 * 1.01 := by
    rw [abs_mul]
    exact mul_le_mul hk hy (abs_nonneg y) (by norm_num)
  obtain ⟨hlx1, -⟩ := abs_le.mp hlx
  obtain ⟨-, hky2⟩ := abs_le.mp hky
  have hh : 0 ≤ x ^ 2 + y ^ 2 := by positivity
  linarith

-- ---------------------------------------------------------------------------
-- The direction and the axis
-- ---------------------------------------------------------------------------

structure IsUnit (t : Vec Float) : Prop where
  finite : t.IsFinite
  length : |t.real.dot t.real - 1| ≤ 1e-12

section
variable [Trig] {p : Patch Float} {ρ : ℝ} {t : Vec Float}

omit [Trig] in
theorem exact_long : Exact 0.5625 (9 / 16) := by
  have h := exact_finite (show (0.5625 : Float).toModel.unpack =
    .finite .positive (9 * 2 ^ 49) (-53) (by decide) from rfl)
  norm_num [signum] at h
  exact h

omit [Trig] in
theorem IsUnit.near (ht : IsUnit t) : NearVec t t.real 1.01 0 := by
  obtain ⟨-, hT⟩ := abs_le.mp ht.length
  have hdot := Vec.real_dot_self t
  have hx := mul_self_nonneg (real t.x)
  have hy := mul_self_nonneg (real t.y)
  have hz := mul_self_nonneg (real t.z)
  exact ⟨(exact_real ht.finite.x).near (abs_le_of_sq_le_sq (by linarith) (by norm_num)),
    (exact_real ht.finite.y).near (abs_le_of_sq_le_sq (by linarith) (by norm_num)),
    (exact_real ht.finite.z).near (abs_le_of_sq_le_sq (by linarith) (by norm_num))⟩

omit [Trig] in
theorem tilt_size {k : Vec Float} (hk : NearVec k k.real 1.5 0) (ht : NearVec t t.real 1.01 0) :
    |real k.y * real t.x - real k.x * real t.y| ≤ 3.1 := by
  refine (abs_sub _ _).trans ?_
  rw [abs_mul, abs_mul]
  have h1 := mul_le_mul hk.y.bound ht.x.bound (abs_nonneg _) (by norm_num)
  have h2 := mul_le_mul hk.x.bound ht.y.bound (abs_nonneg _) (by norm_num)
  simp only [Vec.real] at h1 h2
  linarith

theorem NearVec.near_dot_self {k : Vec Float} (hk : NearVec k k.real 1.5 0) :
    Near (k.dot k) (k.real.dot k.real) 7 1e-14 :=
  (hk.dot (M := 2.25) (η := 1e-15) hk (by norm_num) (by norm_num [productError, slack, roundoff])
    (by norm_num) (by norm_num [sumError, slack, roundoff])).weaken (by norm_num)
      (by norm_num [sumError, slack, roundoff])

theorem NearVec.le_dot_self {k : Vec Float} (hk : NearVec k k.real 1.5 0) (h : 0.5625 ≤ k.dot k) :
    0.55 ≤ k.real.dot k.real := by
  have hdot := hk.near_dot_self
  rw [le_iff exact_long.finite hdot.finite, exact_long.value] at h
  obtain ⟨-, hup⟩ := hdot.bounds
  linarith

variable (hp : Upright p ρ)
include hp

omit [Trig] in
theorem Upright.normal_mul {x : Float} (hx : Near x (real x) 1.01 0) :
    Rounded (real p.normal.z * real x) (p.normal.z * x) ∧
      Near (p.normal.z * x) (real x) 1.02 1e-11 := by
  have hsize : |real p.normal.z * real x| ≤ 1e15 := by
    rw [abs_mul]
    have := mul_le_mul hp.normalZ.size hx.bound (abs_nonneg _) (by norm_num)
    linarith
  have hnear := hp.normalZ.mul hx (by norm_num)
  rw [one_mul] at hnear
  exact ⟨rounded_mul hp.normalZ.finite hx.finite (range_of_le hsize),
    hnear.weaken (by norm_num) (by norm_num [productError, slack, roundoff])⟩

variable (ht : NearVec t t.real 1.01 0)
include ht

theorem Upright.dot_near : Near (p.normal.dot t) (real t.z) 1.02 1e-10 := by
  have hxy := (hp.normalX.zero_mul (exact_real ht.x.finite)).add_zero
    (hp.normalY.zero_mul (exact_real ht.y.finite)) (by simp)
  have h := (hxy.near (m := 0) (by simp)).add (hp.normal_mul ht.z).2 (by norm_num)
  rw [zero_add] at h
  exact h.weaken (by norm_num) (by norm_num [sumError, slack, roundoff])

theorem Upright.axis :
    ExactVec (p.normal.cross t) ⟨-real (p.normal.z * t.y), real (p.normal.z * t.x), 0⟩ := by
  have hsize {x : Float} (hx : Near x (real x) 1.01 0) : |real (p.normal.z * x)| ≤ 2 ^ (1000 : ℤ) :=
    range_of_le ((hp.normal_mul hx).2.size.trans (by norm_num))
  exact ⟨(hp.normalY.zero_mul (exact_real ht.z.finite)).zero_sub
      (exact_real (hp.normal_mul ht.y).1.finite) (hsize ht.y),
    (exact_real (hp.normal_mul ht.x).1.finite).sub_zero
      (hp.normalX.zero_mul (exact_real ht.z.finite)) (hsize ht.x),
    (hp.normalX.zero_mul (exact_real ht.y.finite)).sub_zero
      (hp.normalY.zero_mul (exact_real ht.x.finite)) (by simp)⟩

theorem Upright.axis_length : |(p.normal.cross t).real.dot (p.normal.cross t).real -
    (real t.x ^ 2 + real t.y ^ 2)| ≤ 1e-9 := by
  have haxis := hp.axis ht
  have hflat : (p.normal.cross t).real.dot (p.normal.cross t).real =
      real (p.normal.z * t.x) ^ 2 + real (p.normal.z * t.y) ^ 2 := by
    rw [Vec.dot_eq]
    simp only [Vec.real, haxis.x.value, haxis.y.value, haxis.z.value]
    ring
  have hsq {x : Float} (hx : Near x (real x) 1.01 0) :
      |real (p.normal.z * x) ^ 2 - real x ^ 2| ≤ 4e-11 := by
    have h := (hp.normal_mul hx).2
    have hsum : |real (p.normal.z * x) + real x| ≤ 3 :=
      (abs_add_le _ _).trans ((add_le_add h.size hx.bound).trans (by norm_num))
    rw [sq_sub_sq, abs_mul]
    calc |real (p.normal.z * x) + real x| * |real (p.normal.z * x) - real x| ≤ 3 * 1e-11 :=
          mul_le_mul hsum h.error (abs_nonneg _) (by norm_num)
      _ ≤ 4e-11 := by norm_num
  obtain ⟨hx1, hx2⟩ := abs_le.mp (hsq ht.x)
  obtain ⟨hy1, hy2⟩ := abs_le.mp (hsq ht.y)
  rw [hflat, abs_le]
  constructor <;> linarith

end

section
variable [Trig] {p : Patch Float} {ρ : ℝ} {t : Vec Float} (hp : Upright p ρ) (ht : IsUnit t)
include hp ht

theorem Upright.axis_short : (p.normal.cross t).real.dot (p.normal.cross t).real ≤ 1.1 := by
  obtain ⟨-, hS⟩ := abs_le.mp (hp.axis_length ht.near)
  obtain ⟨-, hT⟩ := abs_le.mp ht.length
  have hdot := Vec.real_dot_self t
  have hz := mul_self_nonneg (real t.z)
  linarith

theorem Upright.axis_finite : (p.normal.cross t).IsFinite :=
  let haxis := hp.axis ht.near
  ⟨haxis.x.finite, haxis.y.finite, haxis.z.finite⟩

theorem Upright.normalized_axis (hD : 0 < real ((p.normal.cross t).dot (p.normal.cross t))) :
    ∃ (k : Vec Float) (κ : ℝ), (p.normal.cross t).normalized? = some k ∧
      Scaled k (p.normal.cross t).real κ ∧ 0.9 ≤ κ ∧ κ * least ≤ 1e-15 ∧
      κ ^ 2 * (p.normal.cross t).real.dot (p.normal.cross t).real ≤ 2.1 :=
  normalized_of_flat (hp.axis_finite ht) (hp.axis ht.near).z.value (hp.axis_short ht) hD

theorem Upright.axis_dot : ((p.normal.cross t).dot (p.normal.cross t)).isFinite = true ∧
    0 ≤ real ((p.normal.cross t).dot (p.normal.cross t)) ∧
    |real ((p.normal.cross t).dot (p.normal.cross t)) -
      (p.normal.cross t).real.dot (p.normal.cross t).real| ≤
        8 * roundoff * (p.normal.cross t).real.dot (p.normal.cross t).real +
          (1 + 4 * roundoff) * least :=
  have hfin := finite_of_moderate (hp.axis_finite ht) ((hp.axis_short ht).trans (by norm_num))
  ⟨hfin, dot_self_error_flat (hp.axis_finite ht) (hp.axis ht.near).z.value hfin⟩

/-- Where the axis is computed to have no length the direction points almost straight up or down. -/
theorem Upright.abs_z_of_axis_zero (hD : real ((p.normal.cross t).dot (p.normal.cross t)) = 0) :
    0.9 ≤ |real t.z| := by
  obtain ⟨-, -, herr⟩ := hp.axis_dot ht
  obtain ⟨hS1, -⟩ := abs_le.mp (hp.axis_length ht.near)
  obtain ⟨hT1, -⟩ := abs_le.mp ht.length
  have hdot := Vec.real_dot_self t
  have hS0 := Vec.dot_self_nonneg (p.normal.cross t).real
  rw [hD, zero_sub, abs_neg, abs_of_nonneg hS0] at herr
  generalize (p.normal.cross t).real.dot (p.normal.cross t).real = S at *
  have h1 : 8 * roundoff * S ≤ 8 * 1e-15 * S := by
    have := roundoff_le
    gcongr
  have h2 : (1 + 4 * roundoff) * least ≤ 2 * least := by
    have := roundoff_le
    have := least_pos
    gcongr
    linarith
  have hl := least_le.trans roundoff_le
  refine le_of_sq_le_sq ?_ (abs_nonneg _)
  rw [sq_abs, pow_two (real t.z)]
  linarith

end

-- ---------------------------------------------------------------------------
-- The two turns
-- ---------------------------------------------------------------------------

theorem Upright.edge1 [Trig] {p : Patch Float} {ρ : ℝ} (hp : Upright p ρ) (hlow : 1 ≤ ρ)
    (hhigh : ρ ≤ 1000) : ExactVec p.edge1 ⟨2 * ρ, 0, 0⟩ := by
  have h2ρ : ρ - -ρ = 2 * ρ := by ring
  refine ⟨?_, hp.corner1.y.sub_self hp.origin.y, hp.corner1.z.sub_self hp.origin.z⟩
  rw [← h2ρ]
  refine hp.corner1.x.sub hp.origin.x (h2ρ ▸ hp.corner1.x.representable.two_mul) (range_of_le ?_)
  rw [h2ρ, abs_of_nonneg (by linarith)]
  linarith

section
variable [Trig] {p : Patch Float} {ρ : ℝ} {t : Vec Float} (acc : Trig.Accurate) (hp : Upright p ρ)
  (hlow : 1 ≤ ρ) (hhigh : ρ ≤ 1000) (ht : IsUnit t)
include acc hp hlow hhigh ht

/-- A turn about an axis that is normalised to a vector long enough carries the corners along. -/
theorem Upright.slant_pos {k : Vec Float} (hd : |real (p.normal.dot t)| ≤ 1)
    (hD : 0 < real ((p.normal.cross t).dot (p.normal.cross t)))
    (hk : (p.normal.cross t).normalized? = some k) (hlong : 0.5625 ≤ k.dot k)
    (hθ : Scalar.negligible (Scalar.toDegrees (Trig.acos (p.normal.dot t))) = false) :
    0.0 < { p.rotateCorners ⟨Scalar.toDegrees (Trig.acos (p.normal.dot t)), p.normal.cross t,
      p.center⟩ with normal := t }.winding := by
  have hunit := ht.near
  have haxis := hp.axis hunit
  have hdot := hp.dot_near hunit
  obtain ⟨k', κ, hk', hscaled, hκ, hκl, hq⟩ := hp.normalized_axis ht hD
  obtain rfl : k = k' := by simpa using hk.symm.trans hk'
  have hq' := hq.trans (by norm_num : (2.1 : ℝ) ≤ 3.2)
  obtain ⟨-, hqhigh⟩ := abs_le.mp (hscaled.dot_error hq')
  obtain ⟨hkx, hky, -⟩ := Scaled.square_le hq'
  have hkunit := hscaled.near hq
  have hflat := (hscaled.exact_z haxis.z.value).value
  have hslant := near_slant acc hdot.finite hd
  obtain ⟨hc, hs⟩ := near_cos_sin acc hslant.finite (hslant.size.trans (by norm_num))
  obtain ⟨hcos, hsin⟩ := slant_cos_sin acc hdot.finite hd
  have hx : |real (p.normal.cross t).x + real p.normal.z * real t.y| ≤
      roundoff * |real p.normal.z * real t.y| + least / 2 := by
    rw [haxis.x.value, neg_add_eq_sub, abs_sub_comm]
    exact (hp.normal_mul hunit.y).1.rounds.sum
  have hy : |real (p.normal.cross t).y - real p.normal.z * real t.x| ≤
      roundoff * |real p.normal.z * real t.x| + least / 2 := by
    rw [haxis.y.value]
    exact (hp.normal_mul hunit.x).1.rounds.sum
  have htilt := slant_tilt hp.normalZ.error hunit.x.bound hunit.y.bound hx hy
    (Scaled.component_error hscaled.x hkx).1 (Scaled.component_error hscaled.y hky).1 hκ hκl
  have hT' : |real t.x ^ 2 + real t.y ^ 2 + real t.z ^ 2 - 1| ≤ 1e-12 := by
    simpa only [Vec.dot_eq, Vec.real, ← pow_two] using ht.length
  refine hp.winding_turned_pos hlow hhigh hk hθ hkunit hflat (hkunit.le_dot_self hlong) ?_ hc hs ?_
    hunit
  · linarith
  · exact slant_height hT' hdot.error hcos hsin hs.bound htilt (tilt_size hkunit hunit)

theorem Upright.flip_pos (hd : real (p.normal.dot t) ≤ -1) :
    0.0 < { p.rotateCorners ⟨180.0, p.edge1, p.center⟩ with normal := t }.winding := by
  have hunit := ht.near
  obtain ⟨hdlow, -⟩ := (hp.dot_near hunit).bounds
  have hedge := hp.edge1 hlow hhigh
  have hreal : p.edge1.real = ⟨2 * ρ, 0, 0⟩ := by
    rw [Vec.real, hedge.x.value, hedge.y.value, hedge.z.value]
  have hS : (⟨2 * ρ, 0, 0⟩ : Vec ℝ).dot ⟨2 * ρ, 0, 0⟩ = 4 * ρ ^ 2 := by
    rw [Vec.dot_eq]
    ring
  obtain ⟨k, κ, hk, hscaled, -, hκ⟩ := normalized_of_moderate (v := p.edge1)
    ⟨hedge.x.finite, hedge.y.finite, hedge.z.finite⟩ (by rw [hreal, hS]; norm_num; nlinarith)
    (by rw [hreal, hS]; norm_num; nlinarith)
  obtain ⟨hκ1, hκ2⟩ := abs_le.mp hκ
  have hκ2' : κ ^ 2 * p.edge1.real.dot p.edge1.real ≤ 2.1 := by
    linarith
  obtain ⟨hqlow, hqhigh⟩ := abs_le.mp (hscaled.dot_error (hκ2'.trans (by norm_num)))
  have hkunit := hscaled.near hκ2'
  have hflat := (hscaled.exact_z hedge.z.value).value
  obtain ⟨hc, hs, hcos, hsin⟩ := half_turn_cos_sin acc
  refine hp.winding_turned_pos hlow hhigh hk halfTurn_not_negligible hkunit hflat ?_ ?_ hc hs ?_
    hunit
  · linarith
  · linarith
  · have hz : real t.z ≤ -0.99 := by
      linarith
    have h1 : 0.99 * 0.99 ≤ real (Trig.cos (Scalar.toRadians 180.0)) * real t.z := by
      nlinarith
    have h2 := mul_le_mul hsin (tilt_size hkunit hunit) (abs_nonneg _) (by norm_num)
    rw [← abs_mul] at h2
    obtain ⟨h3, -⟩ := abs_le.mp h2
    linarith

end

end SimSetup
