import SimSetup.Proofs.Geometry.Facing

/-!
# Computed angles

Angles pass from radians to degrees and back before their sine and cosine are taken. Where the
library's functions are accurate, so are the sine and the cosine that a turn uses.
-/

namespace SimSetup

open Double

/-- The library computes sines, cosines and arc cosines to about the precision of doubles. -/
structure Trig.Accurate [Trig] : Prop where
  sin : ∀ x : Float, x.isFinite = true → |real x| ≤ 4 →
    Near (Trig.sin x) (Real.sin (real x)) 1 1e-15
  cos : ∀ x : Float, x.isFinite = true → |real x| ≤ 4 →
    Near (Trig.cos x) (Real.cos (real x)) 1 1e-15
  acos : ∀ x : Float, x.isFinite = true → |real x| ≤ 1 →
    Near (Trig.acos x) (Real.arccos (real x)) 4 1e-15

theorem exact_halfTurn : Exact 180.0 180 := by
  have h := exact_finite (show (180.0 : Float).toModel.unpack =
    .finite .positive (180 * 2 ^ 45) (-45) (by decide) from rfl)
  norm_num [signum] at h
  exact h

theorem exact_degrees : Exact (180.0 / Scalar.floatPi) (8063664102031864 * 2 ^ (-47 : ℤ)) := by
  have h := exact_finite (show (180.0 / Scalar.floatPi : Float).toModel.unpack =
    .finite .positive 8063664102031864 (-47) (by decide) from rfl)
  rw [signum, one_mul] at h
  exact h

theorem exact_radians : Exact (Scalar.floatPi / 180.0) (5030569068109113 * 2 ^ (-58 : ℤ)) := by
  have h := exact_finite (show (Scalar.floatPi / 180.0 : Float).toModel.unpack =
    .finite .positive 5030569068109113 (-58) (by decide) from rfl)
  rw [signum, one_mul] at h
  exact h

theorem exact_epsilon : Exact Scalar.floatEpsilon (2 ^ (-52 : ℤ)) := by
  have h := exact_finite (show Scalar.floatEpsilon.toModel.unpack =
    .finite .positive (2 ^ 52) (-104) (by decide) from rfl)
  norm_num [signum] at h ⊢
  exact h

section
variable [Trig] {x : Float}

theorem near_toDegrees {a : ℝ} (hx : Near x a 4 1e-15) :
    Near (Scalar.toDegrees x) (a * (8063664102031864 * 2 ^ (-47 : ℤ))) 240 1e-12 :=
  (hx.mul (exact_degrees.near (m := 58) (by norm_num)) (by norm_num)).weaken (by norm_num)
    (by norm_num [productError, slack, roundoff])

theorem near_toRadians {a : ℝ} (hx : Near x a 240 1e-12) :
    Near (Scalar.toRadians x) (a * (5030569068109113 * 2 ^ (-58 : ℤ))) 6 1e-13 :=
  (hx.mul (exact_radians.near (m := 0.018) (by norm_num)) (by norm_num)).weaken (by norm_num)
    (by norm_num [productError, slack, roundoff])

theorem negligible_iff (hx : x.isFinite = true) :
    Scalar.negligible x = true ↔ |real x| < 2 ^ (-52 : ℤ) := by
  have hdef : Scalar.negligible x = true ↔ x.abs < Scalar.floatEpsilon := decide_eq_true_iff
  rw [hdef, lt_iff (finite_abs hx) exact_epsilon.finite, real_abs hx, exact_epsilon.value]

theorem halfTurn_not_negligible : Scalar.negligible (180.0 : Float) = false := by
  rw [← Bool.not_eq_true, negligible_iff exact_halfTurn.finite, exact_halfTurn.value]
  norm_num

end

section
variable [Trig] (acc : Trig.Accurate) {d θ : Float}
include acc

theorem near_cos_sin (hθ : θ.isFinite = true) (hb : |real θ| ≤ 4) :
    Near (Trig.cos θ) (real (Trig.cos θ)) 1.01 0 ∧
      Near (Trig.sin θ) (real (Trig.sin θ)) 1.01 0 := by
  have hcos := acc.cos θ hθ hb
  have hsin := acc.sin θ hθ hb
  exact ⟨(exact_real hcos.finite).near (hcos.size.trans (by norm_num)),
    (exact_real hsin.finite).near (hsin.size.trans (by norm_num))⟩

theorem cos_sin_error {a ε : ℝ} (hθ : Near θ a 3.5 ε) (hε : ε ≤ 0.1) :
    |real (Trig.cos θ) - Real.cos a| ≤ ε + 1e-15 ∧
      |real (Trig.sin θ) - Real.sin a| ≤ ε + 1e-15 := by
  have hsize : |real θ| ≤ 4 := hθ.size.trans (by linarith)
  have hcos := (acc.cos θ hθ.finite hsize).error
  have hsin := (acc.sin θ hθ.finite hsize).error
  have hcos' := (Real.abs_cos_sub_cos_le (real θ) a).trans hθ.error
  have hsin' := (Real.abs_sin_sub_sin_le (real θ) a).trans hθ.error
  constructor
  · refine (abs_sub_le _ (Real.cos (real θ)) _).trans ?_
    linarith
  · refine (abs_sub_le _ (Real.sin (real θ)) _).trans ?_
    linarith

theorem near_acos_degrees (hd : d.isFinite = true) (hb : |real d| ≤ 1) :
    Near (Scalar.toDegrees (Trig.acos d))
      (Real.arccos (real d) * (8063664102031864 * 2 ^ (-47 : ℤ)))
      240 1e-12 :=
  near_toDegrees ((acc.acos d hd hb).weaken le_rfl (by norm_num))

/-- The angle of a slant turn, as the turn reads it. -/
theorem near_slant (hd : d.isFinite = true) (hb : |real d| ≤ 1) :
    Near (Scalar.toRadians (Scalar.toDegrees (Trig.acos d))) (Real.arccos (real d)) 3.5 1e-12 := by
  have h := near_toRadians (near_acos_degrees acc hd hb)
  have hlow := Real.arccos_nonneg (real d)
  have hhigh := (Real.arccos_le_pi (real d)).trans Real.pi_lt_d2.le
  have hback : |Real.arccos (real d) * (8063664102031864 * 2 ^ (-47 : ℤ)) *
      (5030569068109113 * 2 ^ (-58 : ℤ)) - Real.arccos (real d)| ≤ 1e-14 := by
    rw [abs_le]
    constructor <;> linarith
  refine ⟨h.finite, ?_, ?_⟩
  · rw [abs_of_nonneg hlow]
    linarith
  · refine (abs_sub_le _ _ _).trans ((add_le_add h.error hback).trans ?_)
    norm_num

theorem slant_cos_sin (hd : d.isFinite = true) (hb : |real d| ≤ 1) :
    |real (Trig.cos (Scalar.toRadians (Scalar.toDegrees (Trig.acos d)))) - real d| ≤ 1e-11 ∧
      1 - real d ^ 2 - 1e-11 ≤
        real (Trig.sin (Scalar.toRadians (Scalar.toDegrees (Trig.acos d)))) := by
  obtain ⟨hcos, hsin⟩ := cos_sin_error acc (near_slant acc hd hb) (by norm_num)
  obtain ⟨hd1, hd2⟩ := abs_le.mp hb
  rw [Real.cos_arccos hd1 hd2] at hcos
  rw [Real.sin_arccos] at hsin
  obtain ⟨hlow, -⟩ := abs_le.mp hsin
  have hsq : 0 ≤ 1 - real d ^ 2 := by nlinarith
  have hroot : 1 - real d ^ 2 ≤ √(1 - real d ^ 2) := by
    refine Real.le_sqrt_of_sq_le ?_
    nlinarith [sq_nonneg (real d)]
  refine ⟨hcos.trans (by norm_num), ?_⟩
  linarith

/-- Only a direction that is almost the normal makes a negligible angle with it. -/
theorem cos_near_one_of_negligible (hd : d.isFinite = true) (hb : |real d| ≤ 1)
    (h : Scalar.negligible (Scalar.toDegrees (Trig.acos d)) = true) : 1 - 1e-11 ≤ real d := by
  have hnear := near_acos_degrees acc hd hb
  rw [negligible_iff hnear.finite] at h
  obtain ⟨hlow, -⟩ := hnear.bounds
  obtain ⟨-, hup⟩ := abs_lt.mp h
  obtain ⟨hd1, hd2⟩ := abs_le.mp hb
  have hsmall : real (Scalar.toDegrees (Trig.acos d)) ≤ 1e-15 := hup.le.trans (by norm_num)
  have hangle : Real.arccos (real d) ≤ 1e-12 := by
    generalize hC : (8063664102031864 : ℝ) * 2 ^ (-47 : ℤ) = C at hlow
    have h57 : 57 ≤ C := by
      rw [← hC]
      norm_num
    nlinarith [Real.arccos_nonneg (real d)]
  have hcos := Real.abs_cos_sub_cos_le 0 (Real.arccos (real d))
  rw [Real.cos_zero, Real.cos_arccos hd1 hd2, zero_sub, abs_neg,
    abs_of_nonneg (Real.arccos_nonneg _)] at hcos
  obtain ⟨-, hle⟩ := abs_le.mp hcos
  linarith

theorem half_turn_cos_sin :
    Near (Trig.cos (Scalar.toRadians 180.0)) (real (Trig.cos (Scalar.toRadians 180.0))) 1.01 0 ∧
      Near (Trig.sin (Scalar.toRadians 180.0)) (real (Trig.sin (Scalar.toRadians 180.0))) 1.01 0 ∧
      real (Trig.cos (Scalar.toRadians 180.0)) ≤ -0.99 ∧
      |real (Trig.sin (Scalar.toRadians 180.0))| ≤ 0.01 := by
  have h := near_toRadians (exact_halfTurn.near (m := 240) (by norm_num) |>.weaken le_rfl
    (by norm_num))
  have hpi1 := Real.pi_gt_d6
  have hpi2 := Real.pi_lt_d6
  have hnear : Near (Scalar.toRadians 180.0) Real.pi 3.5 1e-5 := by
    refine ⟨h.finite, ?_, ?_⟩
    · rw [abs_of_pos Real.pi_pos]
      linarith
    · obtain ⟨hlow, hhigh⟩ := h.bounds
      rw [abs_le]
      constructor <;> linarith
  obtain ⟨hcos, hsin⟩ := cos_sin_error acc hnear (by norm_num)
  obtain ⟨hc, hs⟩ := near_cos_sin acc hnear.finite (hnear.size.trans (by norm_num))
  rw [Real.cos_pi] at hcos
  rw [Real.sin_pi, sub_zero] at hsin
  obtain ⟨-, hcos⟩ := abs_le.mp hcos
  refine ⟨hc, hs, ?_, hsin.trans (by norm_num)⟩
  linarith

end

end SimSetup
