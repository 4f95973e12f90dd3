import SimSetup.Proofs.Geometry.Approximate

/-!
# Computed unit vectors

The squared length of a vector is computed as a sum of rounded squares. Unless it underflows to
zero, the vector computed from it has the same direction, and its length is off by what the rounded
sum is off by.
-/

namespace SimSetup

open Double

namespace Vec

structure IsFinite (v : Vec Float) : Prop where
  x : v.x.isFinite = true
  y : v.y.isFinite = true
  z : v.z.isFinite = true

noncomputable def real (v : Vec Float) : Vec ℝ :=
  ⟨Double.real v.x, Double.real v.y, Double.real v.z⟩

theorem real_dot_self (v : Vec Float) : v.real.dot v.real =
    Double.real v.x * Double.real v.x + Double.real v.y * Double.real v.y +
      Double.real v.z * Double.real v.z := rfl

end Vec

-- ---------------------------------------------------------------------------
-- The squared length
-- ---------------------------------------------------------------------------

section
variable {x y z : Float}

theorem square_error (hx : x.isFinite = true) (hfin : (x * x).isFinite = true) :
    0 ≤ real (x * x) ∧
      |real (x * x) - real x * real x| ≤ roundoff * (real x * real x) + least / 2 := by
  have hround := (computes_mul hx hx).rounds hfin
  have hnonneg := mul_self_nonneg (real x)
  refine ⟨Rounded.nonneg ⟨hfin, hround⟩ hnonneg, ?_⟩
  simpa [abs_of_nonneg hnonneg] using hround.sum

theorem sum_error (hfin : (x + y).isFinite = true) (hx0 : 0 ≤ real x) (hy0 : 0 ≤ real y) :
    0 ≤ real (x + y) ∧ |real (x + y) - (real x + real y)| ≤ roundoff * (real x + real y) := by
  have hsum : 0 ≤ real x + real y := add_nonneg hx0 hy0
  obtain ⟨hx, hy⟩ := finite_of_add hfin
  have herr := add_relative hfin
  rw [abs_of_nonneg hsum] at herr
  exact ⟨Rounded.nonneg ⟨hfin, (computes_add hx hy).rounds hfin⟩ hsum, herr⟩

theorem sum_three_error (hfin : (x + y + z).isFinite = true) (hx0 : 0 ≤ real x)
    (hy0 : 0 ≤ real y) (hz0 : 0 ≤ real z) :
    0 ≤ real (x + y + z) ∧ |real (x + y + z) - (real x + real y + real z)| ≤
      4 * roundoff * (real x + real y + real z) := by
  have hu := roundoff_le
  obtain ⟨h1nn, h1err⟩ := sum_error (finite_of_add hfin).1 hx0 hy0
  have hpart : roundoff * (real x + real y) ≤ 1 / 4 * (real x + real y) := by
    gcongr
    linarith
  obtain ⟨h1low, h1high⟩ := abs_le.mp h1err
  obtain ⟨h2nn, h2err⟩ := sum_error hfin h1nn hz0
  have h2part : roundoff * (real (x + y) + real z) ≤ roundoff * (2 * (real x + real y + real z)) :=
    mul_le_mul_of_nonneg_left (by linarith) roundoff_pos.le
  have hzpart : 0 ≤ roundoff * real z := mul_nonneg roundoff_pos.le hz0
  have hypart : 0 ≤ roundoff * (real x + real y) := mul_nonneg roundoff_pos.le (by positivity)
  obtain ⟨h2low, h2high⟩ := abs_le.mp h2err
  refine ⟨h2nn, ?_⟩
  rw [abs_le]
  constructor <;> linarith

end

theorem square_le_dot (v : Vec Float) : real v.x * real v.x ≤ v.real.dot v.real ∧
    real v.y * real v.y ≤ v.real.dot v.real ∧ real v.z * real v.z ≤ v.real.dot v.real := by
  have hx := mul_self_nonneg (Double.real v.x)
  have hy := mul_self_nonneg (Double.real v.y)
  have hz := mul_self_nonneg (Double.real v.z)
  rw [Vec.real_dot_self]
  exact ⟨by linarith, by linarith, by linarith⟩

section
variable [Trig] {v : Vec Float} {δ : ℝ}

theorem finite_dot_self (hv : v.IsFinite) (hS : v.real.dot v.real ≤ 2 ^ (1021 : ℤ)) :
    (v.dot v).isFinite = true := by
  obtain ⟨B, hB, hB1, hrange⟩ : ∃ B : ℝ, v.real.dot v.real ≤ B ∧ 1 ≤ B ∧
      ∀ a : ℝ, 0 ≤ a → a ≤ 2 * B → |a| ≤ 2 ^ (1022 : ℤ) := by
    refine ⟨_, hS, one_le_zpow₀ one_le_two (by norm_num), fun a h0 h => ?_⟩
    rw [abs_of_nonneg h0]
    exact h.trans_eq (zpow_one_add₀ two_ne_zero 1021).symm
  clear hS
  have hu := roundoff_le
  have hl := least_pos
  have hl1 := least_le
  have hsquare {x : Float} (hx : x.isFinite = true) (hle : real x * real x ≤ v.real.dot v.real) :
      (x * x).isFinite = true ∧ 0 ≤ real (x * x) ∧
        real (x * x) ≤ 9 / 8 * (real x * real x) + least := by
    have hnonneg := mul_self_nonneg (real x)
    have hfin := (computes_mul hx hx).finite (hrange _ hnonneg (by linarith))
    obtain ⟨h0, herr⟩ := square_error hx hfin
    have hpart : roundoff * (real x * real x) ≤ 1 / 8 * (real x * real x) :=
      mul_le_mul_of_nonneg_right (by linarith) hnonneg
    have := (abs_le.mp herr).2
    exact ⟨hfin, h0, by linarith⟩
  obtain ⟨hxle, hyle, hzle⟩ := square_le_dot v
  obtain ⟨hx, hx0, hxb⟩ := hsquare hv.x hxle
  obtain ⟨hy, hy0, hyb⟩ := hsquare hv.y hyle
  obtain ⟨hz, hz0, hzb⟩ := hsquare hv.z hzle
  have hSdef := Vec.real_dot_self v
  have hz2 := mul_self_nonneg (real v.z)
  have hfin := (computes_add hx hy).finite (hrange _ (by linarith) (by linarith))
  obtain ⟨h0, herr⟩ := sum_error hfin hx0 hy0
  have hpart : roundoff * (real (v.x * v.x) + real (v.y * v.y)) ≤
      1 / 8 * (real (v.x * v.x) + real (v.y * v.y)) :=
    mul_le_mul_of_nonneg_right (by linarith) (by linarith)
  have hsum := (abs_le.mp herr).2
  exact (computes_add hfin hz).finite (hrange _ (by linarith) (by linarith))

theorem finite_of_moderate (hv : v.IsFinite) (h : v.real.dot v.real ≤ 1e15) :
    (v.dot v).isFinite = true := by
  have hrange : v.real.dot v.real ≤ 2 ^ (1000 : ℤ) :=
    (le_abs_self _).trans (range_of_le (by rwa [abs_of_nonneg (Vec.dot_self_nonneg _)]))
  exact finite_dot_self hv (hrange.trans (zpow_le_zpow_right₀ one_le_two (by norm_num)))

/-- What the squares lose is relative, but for `δ` that underflow may cost. -/
theorem dot_self_error_of (hfin : (v.dot v).isFinite = true) (hv : v.IsFinite)
    (hδ : |real (v.x * v.x) + real (v.y * v.y) + real (v.z * v.z) - v.real.dot v.real| ≤
      roundoff * v.real.dot v.real + δ) (hδ0 : 0 ≤ δ) :
    0 ≤ real (v.dot v) ∧ |real (v.dot v) - v.real.dot v.real| ≤
      8 * roundoff * v.real.dot v.real + (1 + 4 * roundoff) * δ := by
  have hnonneg := Vec.dot_self_nonneg v.real
  obtain ⟨hxy, hz⟩ := finite_of_add hfin
  obtain ⟨hx, hy⟩ := finite_of_add hxy
  obtain ⟨hnn, herr⟩ := sum_three_error hfin (square_error hv.x hx).1 (square_error hv.y hy).1
    (square_error hv.z hz).1
  generalize v.real.dot v.real = S at hδ hnonneg ⊢
  obtain ⟨hlow, hhigh⟩ := abs_le.mp hδ
  have hu := roundoff_le
  have hu0 := roundoff_pos
  have hpart : roundoff * S ≤ 1 / 4 * S := mul_le_mul_of_nonneg_right (by linarith) hnonneg
  refine ⟨hnn, ?_⟩
  change |real (v.x * v.x + v.y * v.y + v.z * v.z) - S| ≤ _
  obtain ⟨hlow', hhigh'⟩ := abs_le.mp herr
  have hrest : 4 * roundoff * (real (v.x * v.x) + real (v.y * v.y) + real (v.z * v.z)) ≤
      4 * roundoff * (5 / 4 * S + δ) :=
    mul_le_mul_of_nonneg_left (by linarith) (by linarith)
  have hS0 := mul_nonneg hu0.le hnonneg
  have hδ0' := mul_nonneg hu0.le hδ0
  rw [abs_le]
  constructor <;> linarith

theorem dot_self_error (hv : v.IsFinite) (hfin : (v.dot v).isFinite = true) :
    0 ≤ real (v.dot v) ∧ |real (v.dot v) - v.real.dot v.real| ≤
      8 * roundoff * v.real.dot v.real + 8 / 5 * least := by
  obtain ⟨hxy, hz⟩ := finite_of_add hfin
  obtain ⟨hx, hy⟩ := finite_of_add hxy
  obtain ⟨hx1, hx2⟩ := abs_le.mp (square_error hv.x hx).2
  obtain ⟨hy1, hy2⟩ := abs_le.mp (square_error hv.y hy).2
  obtain ⟨hz1, hz2⟩ := abs_le.mp (square_error hv.z hz).2
  have hSdef := Vec.real_dot_self v
  have hl := least_pos
  obtain ⟨hnn, herr⟩ := dot_self_error_of (δ := 3 / 2 * least) hfin hv
    (abs_le.mpr ⟨by rw [hSdef]; linarith, by rw [hSdef]; linarith⟩) (by positivity)
  refine ⟨hnn, herr.trans ?_⟩
  have hsmall : roundoff * least ≤ 1e-15 * least := mul_le_mul_of_nonneg_right roundoff_le hl.le
  linarith

/-- In the plane `z = 0` only two squares can lose something to underflow. -/
theorem dot_self_error_flat (hv : v.IsFinite) (hflat : real v.z = 0)
    (hfin : (v.dot v).isFinite = true) :
    0 ≤ real (v.dot v) ∧ |real (v.dot v) - v.real.dot v.real| ≤
      8 * roundoff * v.real.dot v.real + (1 + 4 * roundoff) * least := by
  have hSdef : v.real.dot v.real = real v.x * real v.x + real v.y * real v.y := by
    rw [Vec.real_dot_self, hflat, mul_zero, add_zero]
  obtain ⟨hx, hy⟩ := finite_of_add (finite_of_add hfin).1
  obtain ⟨hx1, hx2⟩ := abs_le.mp (square_error hv.x hx).2
  obtain ⟨hy1, hy2⟩ := abs_le.mp (square_error hv.y hy).2
  have hz := ((⟨hv.z, hflat⟩ : Exact v.z 0).mul_zero ⟨hv.z, hflat⟩).value
  refine dot_self_error_of hfin hv ?_ least_pos.le
  rw [hz, hSdef, abs_le]
  constructor <;> linarith

end

-- ---------------------------------------------------------------------------
-- Normalising
-- ---------------------------------------------------------------------------

/-- `k` is `a` scaled by `κ`, each component rounded once. -/
structure Scaled (k : Vec Float) (a : Vec ℝ) (κ : ℝ) : Prop where
  x : Rounded (a.x * κ) k.x
  y : Rounded (a.y * κ) k.y
  z : Rounded (a.z * κ) k.z

section
variable [Trig] {v : Vec Float}

theorem normalized_of_pos (hv : v.IsFinite) (hfin : (v.dot v).isFinite = true)
    (hpos : 0 < real (v.dot v)) (hS : v.real.dot v.real ≤ 3 * real (v.dot v)) :
    ∃ (k : Vec Float) (κ : ℝ), v.normalized? = some k ∧ Scaled k v.real κ ∧ 0 < κ ∧
      |κ ^ 2 * real (v.dot v) - 1| ≤ 8 * roundoff := by
  have hroot : Rounded √(real (v.dot v)) v.length := rounded_sqrt hfin hpos.le
  have hrootpos : 0 < real v.length := root_pos hfin hpos
  obtain ⟨hinv, hκpos, hκerr⟩ : (1.0 / v.length).isFinite = true ∧ 0 < real (1.0 / v.length) ∧
    |real (1.0 / v.length) ^ 2 * real (v.dot v) - 1| ≤ 8 * roundoff := reciprocal_error hfin hpos
  -- No component is longer than the whole, so none of the products overflows.
  have hmul {x : Float} (hx : x.isFinite = true) (hle : real x * real x ≤ v.real.dot v.real) :
      Rounded (real x * real (1.0 / v.length)) (x * (1.0 / v.length)) := by
    have hle2 : real x * real x * real (1.0 / v.length) ^ 2 ≤
        3 * real (v.dot v) * real (1.0 / v.length) ^ 2 :=
      mul_le_mul_of_nonneg_right (hle.trans hS) (by positivity)
    have hsize : |real x * real (1.0 / v.length)| ≤ 2 ^ (1 : ℤ) := by
      obtain ⟨-, hup⟩ := abs_le.mp hκerr
      have := roundoff_le
      refine abs_le_of_sq_le_sq ?_ (by norm_num)
      norm_num
      linarith
    exact rounded_mul hx hinv (hsize.trans (zpow_le_zpow_right₀ one_le_two (by norm_num)))
  have hx := mul_self_nonneg (real v.x)
  have hy := mul_self_nonneg (real v.y)
  have hz := mul_self_nonneg (real v.z)
  have hSdef := Vec.real_dot_self v
  refine ⟨v.scale (1.0 / v.length), real (1.0 / v.length), ?_,
    ⟨hmul hv.x (by linarith), hmul hv.y (by linarith), hmul hv.z (by linarith)⟩, hκpos, hκerr⟩
  have hnz : Scalar.isZero v.length = false := by
    refine Bool.eq_false_iff.mpr fun h => hrootpos.ne' ?_
    rwa [← exact_zero.value, ← beq_iff hroot.finite exact_zero.finite]
  have hfin' : Scalar.isFinite v.length = true := hroot.finite
  rw [Vec.normalized?, hnz, hfin']
  rfl

theorem normalized_of_zero (hfin : (v.dot v).isFinite = true) (hz : real (v.dot v) = 0) :
    v.normalized? = none := by
  have hroot : Rounded √(real (v.dot v)) v.length := rounded_sqrt hfin hz.ge
  rw [hz, Real.sqrt_zero] at hroot
  have hzero : Scalar.isZero v.length = true := by
    refine (beq_iff hroot.finite exact_zero.finite).mpr ?_
    rw [exact_zero.value]
    exact hroot.rounds.exact representable_zero
  rw [Vec.normalized?, hzero]
  rfl

theorem normalized_of_not_finite (h : (v.dot v).isFinite = false) : v.normalized? = none := by
  have hlength : Scalar.isFinite v.length = false := by
    refine Bool.eq_false_iff.mpr fun hroot => ?_
    have hfin : (v.dot v).isFinite = true := finite_of_sqrt hroot
    rw [h] at hfin
    cases hfin
  rw [Vec.normalized?, hlength, Bool.not_false, Bool.or_true]
  rfl

theorem normalized_of_moderate (hv : v.IsFinite) (hlow : 1e-12 ≤ v.real.dot v.real)
    (hhigh : v.real.dot v.real ≤ 1e15) :
    ∃ (k : Vec Float) (κ : ℝ), v.normalized? = some k ∧ Scaled k v.real κ ∧ 0 < κ ∧
      |κ ^ 2 * v.real.dot v.real - 1| ≤ 1e-13 := by
  have hfin := finite_of_moderate hv hhigh
  obtain ⟨-, herr⟩ := dot_self_error hv hfin
  have hl : least ≤ 1e-40 := (zpow_le_zpow_right₀ one_le_two (by norm_num)).trans
    (by norm_num : (2 : ℝ) ^ (-140 : ℤ) ≤ 1e-40)
  have hu := roundoff_le
  have hsmall : 8 * roundoff * v.real.dot v.real ≤ 1e-14 * v.real.dot v.real := by
    gcongr
    linarith
  obtain ⟨hDlow, hDhigh⟩ := abs_le.mp herr
  obtain ⟨k, κ, hk, hscaled, hκ, hκerr⟩ := normalized_of_pos hv hfin (by linarith) (by linarith)
  refine ⟨k, κ, hk, hscaled, hκ, ?_⟩
  obtain ⟨hlow', hhigh'⟩ := abs_le.mp hκerr
  have hsq : 0 < κ ^ 2 := by positivity
  generalize v.real.dot v.real = S at *
  generalize real (v.dot v) = D at *
  have h1 : κ ^ 2 * (S * (1 - 2e-14)) ≤ κ ^ 2 * D := by
    gcongr
    linarith
  have h2 : κ ^ 2 * D ≤ κ ^ 2 * (S * (1 + 2e-14)) := by
    gcongr
    linarith
  rw [abs_le]
  constructor <;> linarith

/-- A horizontal axis no longer than one is normalised unless its squared length is computed as
zero. Near the least double that length may be off by its whole size. -/
theorem normalized_of_flat (hv : v.IsFinite) (hflat : real v.z = 0) (hS : v.real.dot v.real ≤ 1.1)
    (hD : 0 < real (v.dot v)) :
    ∃ (k : Vec Float) (κ : ℝ), v.normalized? = some k ∧ Scaled k v.real κ ∧ 0.9 ≤ κ ∧
      κ * least ≤ 1e-15 ∧ κ ^ 2 * v.real.dot v.real ≤ 2.1 := by
  have hl := least_pos
  have hl1 := least_le.trans roundoff_le
  have hu := roundoff_le
  have hu0 := roundoff_pos
  have hS0 := Vec.dot_self_nonneg v.real
  have hfin := finite_of_moderate hv (hS.trans (by norm_num))
  obtain ⟨-, herr⟩ := dot_self_error_flat hv hflat hfin
  have hDl := least_le_real hfin hD
  obtain ⟨hlow, hhigh⟩ := abs_le.mp herr
  have hsmall : 8 * roundoff * v.real.dot v.real ≤ 1e-14 * v.real.dot v.real :=
    mul_le_mul_of_nonneg_right (by linarith) hS0
  have hsmall' : (1 + 4 * roundoff) * least ≤ (1 + 1e-14) * least :=
    mul_le_mul_of_nonneg_right (by linarith) hl.le
  obtain ⟨k, κ, hk, hscaled, hκ, hκerr⟩ := normalized_of_pos hv hfin hD (by linarith)
  obtain ⟨hκlow, hκhigh⟩ := abs_le.mp hκerr
  have hsq : 0 < κ ^ 2 := by positivity
  generalize v.real.dot v.real = S at *
  generalize real (v.dot v) = D at *
  refine ⟨k, κ, hk, hscaled, ?_, ?_, ?_⟩
  · have h : κ ^ 2 * D ≤ κ ^ 2 * 1.12 := by
      refine mul_le_mul_of_nonneg_left ?_ hsq.le
      linarith
    nlinarith
  · have h : κ ^ 2 * least ≤ κ ^ 2 * D := mul_le_mul_of_nonneg_left hDl hsq.le
    have hl2 : least ≤ 1e-31 := (zpow_le_zpow_right₀ one_le_two (by norm_num)).trans
      (by norm_num : (2 : ℝ) ^ (-110 : ℤ) ≤ 1e-31)
    have hprod : κ ^ 2 * least * least ≤ 2 * 1e-31 :=
      mul_le_mul (by linarith) hl2 hl.le (by norm_num)
    refine le_of_sq_le_sq ?_ (by norm_num)
    linarith
  · have h : κ ^ 2 * S ≤ κ ^ 2 * (2.01 * D) := by
      refine mul_le_mul_of_nonneg_left ?_ hsq.le
      linarith
    linarith

end

namespace Scaled

variable {k : Vec Float} {a : Vec ℝ} {κ : ℝ}

theorem finite (h : Scaled k a κ) : k.IsFinite := ⟨h.x.finite, h.y.finite, h.z.finite⟩

theorem exact_z (h : Scaled k a κ) (ha : a.z = 0) : Exact k.z 0 := by
  have hz := h.z
  rw [ha, zero_mul] at hz
  exact hz.exact representable_zero

theorem component_error {b : ℝ} {y : Float} (h : Rounded b y) (hb : b ^ 2 ≤ 3.2) :
    |real y - b| ≤ 2e-15 ∧ |real y ^ 2 - b ^ 2| ≤ 1e-14 := by
  have hsize : |b| ≤ 1.8 := abs_le_of_sq_le_sq (by norm_num; linarith) (by norm_num)
  have hu := roundoff_le
  have hl : least ≤ 1e-16 := (zpow_le_zpow_right₀ one_le_two (by norm_num)).trans
    (by norm_num : (2 : ℝ) ^ (-60 : ℤ) ≤ 1e-16)
  have herr : |real y - b| ≤ 2e-15 := by
    have hpart : roundoff * |b| ≤ 1e-15 * 1.8 := by gcongr
    have := h.rounds.sum
    linarith
  refine ⟨herr, ?_⟩
  have hsum : |real y + b| ≤ 4 := by
    have hy := abs_sub_abs_le_abs_sub (real y) b
    have := abs_add_le (real y) b
    linarith
  calc |real y ^ 2 - b ^ 2| = |real y - b| * |real y + b| := by
        rw [← abs_mul]
        ring_nf
    _ ≤ 2e-15 * 4 := by gcongr
    _ ≤ 1e-14 := by norm_num

theorem square_le {c : ℝ} (hS : κ ^ 2 * a.dot a ≤ c) :
    (a.x * κ) ^ 2 ≤ c ∧ (a.y * κ) ^ 2 ≤ c ∧ (a.z * κ) ^ 2 ≤ c := by
  have hsum : (a.x * κ) ^ 2 + (a.y * κ) ^ 2 + (a.z * κ) ^ 2 ≤ c := by
    rw [Vec.dot_eq] at hS
    linarith
  have := sq_nonneg (a.x * κ)
  have := sq_nonneg (a.y * κ)
  have := sq_nonneg (a.z * κ)
  exact ⟨by linarith, by linarith, by linarith⟩

theorem dot_error (h : Scaled k a κ) (hS : κ ^ 2 * a.dot a ≤ 3.2) :
    |k.real.dot k.real - κ ^ 2 * a.dot a| ≤ 1e-13 := by
  obtain ⟨hx, hy, hz⟩ := square_le hS
  obtain ⟨hx1, hx2⟩ := abs_le.mp (component_error h.x hx).2
  obtain ⟨hy1, hy2⟩ := abs_le.mp (component_error h.y hy).2
  obtain ⟨hz1, hz2⟩ := abs_le.mp (component_error h.z hz).2
  have hk : k.real.dot k.real = real k.x ^ 2 + real k.y ^ 2 + real k.z ^ 2 := by
    rw [Vec.dot_eq]
    simp only [Vec.real]
    ring
  have ha : κ ^ 2 * a.dot a = (a.x * κ) ^ 2 + (a.y * κ) ^ 2 + (a.z * κ) ^ 2 := by
    rw [Vec.dot_eq]
    ring
  rw [hk, ha, abs_le]
  constructor <;> linarith

theorem near (h : Scaled k a κ) (hS : κ ^ 2 * a.dot a ≤ 2.1) : NearVec k k.real 1.5 0 := by
  have hsize {b : ℝ} {y : Float} (hround : Rounded b y) (hb : b ^ 2 ≤ 2.1) : |real y| ≤ 1.5 := by
    refine abs_le_of_sq_le_sq ?_ (by norm_num)
    have := (abs_le.mp (component_error hround (hb.trans (by norm_num))).2).2
    norm_num
    linarith
  obtain ⟨hx, hy, hz⟩ := square_le hS
  exact ⟨(exact_real h.x.finite).near (hsize h.x hx), (exact_real h.y.finite).near (hsize h.y hy),
    (exact_real h.z.finite).near (hsize h.z hz)⟩

end Scaled

end SimSetup
