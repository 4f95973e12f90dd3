import SimSetup.Proofs.Geometry.Slant
import SimSetup.Boundary.Basic

/-!
# The winding of a boundary's plane

A plane's corners should wind around the normal that is stored beside them. They do unless the
normal points below the square, misses the test for opposite directions by a rounding, and makes an
axis too short to turn about.
-/

namespace SimSetup

open Double

namespace Patch
variable [Trig]

/-- When the square is to face `target`, its corners point there: `target` lies above it, or is
opposite enough for the flip, or makes an axis that can be normalised. -/
def Follows (p : Patch Float) (target : Vec Float) : Prop :=
  0.0 < target.z ∨ p.normal.dot target ≤ -1.0 ∨ (p.normal.cross target).normalized?.isSome

/-- The axis is normalised, but to a vector much shorter than one: its squared length underflows. -/
def Stunted (p : Patch Float) (target : Vec Float) : Prop :=
  (p.normal.cross target).normalized?.any (fun k => k.dot k < 0.5625)

instance (p : Patch Float) (target : Vec Float) : Decidable (p.Follows target) :=
  inferInstanceAs (Decidable (_ ∨ _ ∨ _))

instance (p : Patch Float) (target : Vec Float) : Decidable (p.Stunted target) :=
  inferInstanceAs (Decidable (_ = true))

end Patch

theorem exact_thousand : Exact 1000.0 1000 := by
  have h := exact_finite (show (1000.0 : Float).toModel.unpack =
    .finite .positive (1000 * 2 ^ 43) (-43) (by decide) from rfl)
  norm_num [signum] at h
  exact h

section
variable [Trig]

theorem isUnit_normalized_of_moderate {n : Vec Float} (hn : n.IsFinite)
    (hlow : 1e-3 ≤ n.real.length) (hhigh : n.real.length ≤ 1e3) :
    ∃ t : Vec Float, n.normalized? = some t ∧ IsUnit t := by
  have hlen : n.real.length = √(n.real.dot n.real) := rfl
  rw [hlen] at hlow hhigh
  have h1 : 1e-6 ≤ n.real.dot n.real := by
    have := (Real.le_sqrt' (by norm_num)).mp hlow
    linarith
  have h2 : n.real.dot n.real ≤ 1e6 := by
    have := (Real.sqrt_le_left (by norm_num)).mp hhigh
    linarith
  obtain ⟨t, κ, ht, hscaled, -, hκ⟩ := normalized_of_moderate hn (h1.trans' (by norm_num))
    (h2.trans (by norm_num))
  obtain ⟨hκ1, hκ2⟩ := abs_le.mp hκ
  obtain ⟨hd1, hd2⟩ := abs_le.mp (hscaled.dot_error (by linarith))
  refine ⟨t, ht, hscaled.finite, ?_⟩
  rw [abs_le]
  constructor <;> linarith

section
variable {p : Patch Float} {n t : Vec Float} (hn : n.normalized? = some t)
include hn

theorem turnTo_normal (p : Patch Float) : (p.turnTo n).normal = t := by
  rw [Patch.turnTo, hn]

theorem turnTo_of_none (h : p.rotationTo? t = none) : p.turnTo n = { p with normal := t } := by
  rw [Patch.turnTo, hn]
  simp only [h]

theorem turnTo_of_some {r : Rotation Float} (h : p.rotationTo? t = some r) :
    p.turnTo n = { p.rotateCorners r with normal := t } := by
  rw [Patch.turnTo, hn]
  simp only [h]

end

section
variable {p : Patch Float} {t : Vec Float} (hd : (p.normal.dot t).isFinite = true)
include hd

theorem le_one_iff : Scalar.le Scalar.one (p.normal.dot t) = true ↔ 1 ≤ real (p.normal.dot t) := by
  have hdef : Scalar.le Scalar.one (p.normal.dot t) = true ↔ 1.0 ≤ p.normal.dot t :=
    decide_eq_true_iff
  rw [hdef, le_iff exact_one.finite hd, exact_one.value]

theorem le_neg_one_iff :
    Scalar.le (p.normal.dot t) (-Scalar.one) = true ↔ real (p.normal.dot t) ≤ -1 := by
  have hdef : Scalar.le (p.normal.dot t) (-Scalar.one) = true ↔ p.normal.dot t ≤ -1.0 :=
    decide_eq_true_iff
  rw [hdef, le_iff hd exact_one.neg.finite, exact_one.neg.value]

theorem rotationTo?_of_same (h : 1 ≤ real (p.normal.dot t)) : p.rotationTo? t = none := by
  simp only [Patch.rotationTo?, (le_one_iff hd).mpr h, ↓reduceIte]

theorem rotationTo?_of_opposite (h : real (p.normal.dot t) ≤ -1) :
    p.rotationTo? t = some ⟨180.0, p.edge1, p.center⟩ := by
  have hlt : ¬ Scalar.le Scalar.one (p.normal.dot t) = true := by
    rw [le_one_iff hd]
    linarith
  simp only [Patch.rotationTo?, hlt, (le_neg_one_iff hd).mpr h, ↓reduceIte]
  rfl

theorem rotationTo?_of_slant (h1 : real (p.normal.dot t) < 1) (h2 : -1 < real (p.normal.dot t)) :
    p.rotationTo? t =
      some ⟨Scalar.toDegrees (Trig.acos (p.normal.dot t)), p.normal.cross t, p.center⟩ := by
  have hlt1 : ¬ Scalar.le Scalar.one (p.normal.dot t) = true := by
    rw [le_one_iff hd]
    linarith
  have hlt2 : ¬ Scalar.le (p.normal.dot t) (-Scalar.one) = true := by
    rw [le_neg_one_iff hd]
    linarith
  simp only [Patch.rotationTo?, hlt1, hlt2]
  rfl

end

/-- Without an axis there is no turn, and only opposite directions flip. -/
theorem turnTo_of_unturned {p : Patch Float} {n t : Vec Float} (hn : n.normalized? = some t)
    (hopp : ¬ Scalar.le (p.normal.dot t) (-Scalar.one) = true)
    (haxis : (p.normal.cross t).normalized? = none) : p.turnTo n = { p with normal := t } := by
  by_cases hsame : Scalar.le Scalar.one (p.normal.dot t) = true
  · exact turnTo_of_none hn (by simp only [Patch.rotationTo?, hsame, ↓reduceIte])
  · have hrot : p.rotationTo? t = some ⟨Scalar.toDegrees (Scalar.acos (p.normal.dot t)),
        p.normal.cross t, p.center⟩ := by
      simp only [Patch.rotationTo?, hsame, hopp]
      rfl
    rw [turnTo_of_some hn hrot, rotateCorners_of_isIdentity]
    rw [Rotation.isIdentity, haxis, Option.isNone_none, Bool.or_true]

variable {p : Patch Float} {ρ : ℝ} {t : Vec Float} (hp : Upright p ρ) (hlow : 1 ≤ ρ)
  (hhigh : ρ ≤ 1000) (ht : IsUnit t)
include hp hlow hhigh ht

omit hlow hhigh in
theorem Upright.long_of_not_stunted (hD : 0 < real ((p.normal.cross t).dot (p.normal.cross t)))
    (hclear : ¬ p.Stunted t) :
    ∃ k, (p.normal.cross t).normalized? = some k ∧ 0.5625 ≤ k.dot k := by
  obtain ⟨k, κ, hk, hscaled, -, -, hq⟩ := hp.normalized_axis ht hD
  refine ⟨k, hk, ?_⟩
  have hfin : (k.dot k).isFinite = true := (hscaled.near hq).near_dot_self.finite
  by_contra hlt
  rw [le_iff exact_long.finite hfin, not_le, ← lt_iff hfin exact_long.finite] at hlt
  exact hclear (by rw [Patch.Stunted, hk, Option.any_some, decide_eq_true hlt])

theorem Upright.unturned_iff (hz : 0.9 ≤ |real t.z|) :
    0.0 < { p with normal := t }.winding ↔ 0.0 < t.z := by
  have hρ : |ρ| ≤ 1000 := by rwa [abs_of_nonneg (by linarith)]
  have hnear := hp.winding_unturned hρ ht.near
  have hρ2 : 1 ≤ ρ ^ 2 := by nlinarith
  obtain ⟨h1, h2⟩ := hnear.bounds
  rw [lt_iff exact_zero.finite hnear.finite, lt_iff exact_zero.finite ht.finite.z, exact_zero.value]
  constructor
  · intro hW
    by_contra hneg
    rw [abs_of_nonpos (not_lt.mp hneg)] at hz
    nlinarith
  · intro hpos
    rw [abs_of_pos hpos] at hz
    nlinarith

variable (acc : Trig.Accurate)
include acc

/-- The square faces a direction below it only where the turn carries its corners along. -/
theorem Upright.winding_iff (hclear : ¬ p.Stunted t) {n : Vec Float} (hn : n.normalized? = some t) :
    0.0 < (p.turnTo n).winding ↔ p.Follows t := by
  have hunit := ht.near
  have hdot := hp.dot_near hunit
  obtain ⟨hd1, hd2⟩ := hdot.bounds
  have hop : p.normal.dot t ≤ -1.0 ↔ real (p.normal.dot t) ≤ -1 := by
    rw [le_iff hdot.finite exact_one.neg.finite, exact_one.neg.value]
  -- Where the direction is almost straight up, leaving the corners in place is right.
  have hup (h : 0.99 ≤ real t.z) : 0.0 < { p with normal := t }.winding ↔ p.Follows t := by
    have hpos : 0.0 < t.z := by
      rw [lt_iff exact_zero.finite ht.finite.z, exact_zero.value]
      linarith
    rw [hp.unturned_iff hlow hhigh ht (le_trans (by linarith) (le_abs_self _))]
    exact ⟨.inl, fun _ => hpos⟩
  rcases le_or_gt (real (p.normal.dot t)) (-1) with hopp | hgt
  · rw [turnTo_of_some hn (rotationTo?_of_opposite hdot.finite hopp)]
    exact ⟨fun _ => .inr (.inl (hop.mpr hopp)), fun _ => hp.flip_pos acc hlow hhigh ht hopp⟩
  obtain ⟨hfin, hD0, -⟩ := hp.axis_dot ht
  rcases hD0.eq_or_lt with hD | hD
  · have haxis := normalized_of_zero hfin hD.symm
    rw [turnTo_of_unturned hn (by rwa [le_neg_one_iff hdot.finite, not_le]) haxis,
      hp.unturned_iff hlow hhigh ht (hp.abs_z_of_axis_zero ht hD.symm)]
    refine ⟨.inl, ?_⟩
    rintro (h | h | h)
    · exact h
    · exact absurd (hop.mp h) (not_le.mpr hgt)
    · rw [haxis] at h
      cases h
  rcases le_or_gt 1 (real (p.normal.dot t)) with hsame | hlt
  · rw [turnTo_of_none hn (rotationTo?_of_same hdot.finite hsame)]
    exact hup (by linarith)
  rw [turnTo_of_some hn (rotationTo?_of_slant hdot.finite hlt hgt)]
  have hd : |real (p.normal.dot t)| ≤ 1 := abs_le.mpr ⟨hgt.le, hlt.le⟩
  cases hθ : Scalar.negligible (Scalar.toDegrees (Trig.acos (p.normal.dot t))) with
  | true =>
    have := cos_near_one_of_negligible acc hdot.finite hd hθ
    rw [rotateCorners_of_isIdentity (by rw [Rotation.isIdentity, hθ, Bool.true_or])]
    exact hup (by linarith)
  | false =>
    obtain ⟨k, hk, hlong⟩ := hp.long_of_not_stunted ht hD hclear
    exact ⟨fun _ => .inr (.inr (by rw [hk]; rfl)),
      fun _ => hp.slant_pos acc hlow hhigh ht hd hD hk hlong hθ⟩

end

-- ---------------------------------------------------------------------------
-- A library that is accurate
-- ---------------------------------------------------------------------------

section
attribute [local instance] atLeastTwo_two

noncomputable def nearest (a : ℝ) : Float :=
  .ofModel (.pack (.normalize .binary64 ⌊a * 2 ^ 60⌋ (-60) .positive))

end

@[reducible]
noncomputable def Trig.nearest : Trig where
  sin x := SimSetup.nearest (Real.sin (real x))
  cos x := SimSetup.nearest (Real.cos (real x))
  acos x := SimSetup.nearest (Real.arccos (real x))

theorem near_nearest {a m : ℝ} (ha : |a| ≤ m) (hm : m ≤ 4) : Near (nearest a) a m 1e-15 := by
  have hgrid : (2 : ℝ) ^ (-60 : ℤ) = 1 / 2 ^ 60 := by norm_num
  have hfloor : |(⌊a * 2 ^ 60⌋ : ℝ) * 2 ^ (-60 : ℤ) - a| ≤ 1e-17 := by
    have h1 := Int.floor_le (a * 2 ^ 60)
    have h2 := (Int.lt_floor_add_one (a * 2 ^ 60)).le
    generalize (⌊a * 2 ^ 60⌋ : ℝ) = n at h1 h2 ⊢
    rw [hgrid, abs_le]
    constructor <;> linarith
  have hb : |(⌊a * 2 ^ 60⌋ : ℝ) * 2 ^ (-60 : ℤ)| ≤ 1e15 := by
    generalize (⌊a * 2 ^ 60⌋ : ℝ) * 2 ^ (-60 : ℤ) = b at hfloor ⊢
    have := abs_sub_abs_le_abs_sub b a
    linarith
  have hround := (computes_normalize (z := nearest a) rfl).rounded (range_of_le hb)
  refine (hround.near ha hfloor).weaken le_rfl ?_
  have hslack : slack (m + 1e-17) ≤ slack 4.1 :=
    mul_le_mul_of_nonneg_left (by linarith) roundoff_pos.le
  refine (add_le_add_right hslack _).trans ?_
  norm_num [slack, roundoff]

theorem Trig.nearest_accurate : @Trig.Accurate Trig.nearest := by
  let _ := Trig.nearest
  refine ⟨fun x _ _ => near_nearest (Real.abs_sin_le_one _) (by norm_num), fun x _ _ =>
    near_nearest (Real.abs_cos_le_one _) (by norm_num), fun x _ _ => near_nearest ?_ le_rfl⟩
  rw [abs_of_nonneg (Real.arccos_nonneg _)]
  exact (Real.arccos_le_pi _).trans Real.pi_lt_four.le

namespace Boundary

/-- A plane's corners wind around its normal exactly where the square could follow it. -/
theorem plane_winding_iff [Trig] (acc : Trig.Accurate) {b : Boundary}
    (hcentre : (b.centre == Vec.zero) = true) (hlow : 1.0 ≤ b.radius) (hhigh : b.radius ≤ 1000.0)
    (hn : b.normal.IsFinite) (hshort : 1e-3 ≤ b.normal.real.length)
    (hlong : b.normal.real.length ≤ 1e3)
    (hclear : ¬ ((Patch.square b.radius).moveTo b.centre).Stunted b.plane.normal) :
    0.0 < b.plane.winding ↔
      ((Patch.square b.radius).moveTo b.centre).Follows b.plane.normal := by
  obtain ⟨t, ht, hunit⟩ := isUnit_normalized_of_moderate hn hshort hlong
  have hr := finite_of_le_of_le exact_one.finite exact_thousand.finite hlow hhigh
  rw [le_iff exact_one.finite hr, exact_one.value] at hlow
  rw [le_iff hr exact_thousand.finite, exact_thousand.value] at hhigh
  have hc : ExactVec b.centre ⟨0, 0, 0⟩ := by
    have hdef : (b.centre == Vec.zero) =
        (b.centre.x == 0.0 && (b.centre.y == 0.0 && b.centre.z == 0.0)) := rfl
    rw [hdef, Bool.and_eq_true, Bool.and_eq_true] at hcentre
    exact ⟨exact_of_beq_zero hcentre.1, exact_of_beq_zero hcentre.2.1,
      exact_of_beq_zero hcentre.2.2⟩
  have hp := (square_upright (exact_real hr) hlow hhigh).moveTo
    (by rwa [abs_of_nonneg (by linarith)]) hc
  have hnormal : b.plane.normal = t := turnTo_normal ht _
  rw [hnormal] at hclear ⊢
  exact hp.winding_iff hlow hhigh hunit acc hclear ht

theorem plane_winding_slanted : letI := Trig.nearest
    0.0 < ({ Boundary.new .inlet with
      normal := ⟨1.0, 0.0, -1.0⟩, radius := 2.0 } : Boundary).plane.winding := by
  let _ := Trig.nearest
  have hlen : (⟨1.0, 0.0, -1.0⟩ : Vec Float).real.length = √2 := by
    have h : (⟨1.0, 0.0, -1.0⟩ : Vec Float).real = ⟨1, 0, -1⟩ := by
      rw [Vec.real, exact_one.value, exact_zero.value, exact_one.neg.value]
    change √((⟨1.0, 0.0, -1.0⟩ : Vec Float).real.dot (⟨1.0, 0.0, -1.0⟩ : Vec Float).real) = √2
    rw [h, Vec.dot_eq]
    norm_num
  refine (plane_winding_iff Trig.nearest_accurate (by decide +kernel) (by decide +kernel)
    (by decide +kernel) ⟨rfl, rfl, rfl⟩ ?_ ?_ (by decide +kernel)).mpr (by decide +kernel)
  · rw [hlen]
    exact Real.le_sqrt_of_sq_le (by norm_num)
  · rw [hlen, Real.sqrt_le_left (by norm_num)]
    norm_num

/-- The computed normal of this square is shorter than one, so that the opposite direction is not
taken for opposite: the corners stay and the normal is turned over. -/
theorem plane_winding_opposite : ¬ 0.0 <
    ({ Boundary.new .inlet with
      normal := ⟨0.0, 0.0, -1.0⟩, radius := 3.5 } : Boundary).plane.winding := by
  have hn : (⟨0.0, 0.0, -1.0⟩ : Vec Float).normalized? = some ⟨0.0, 0.0, -1.0⟩ := by decide +kernel
  have hplane : ({ Boundary.new .inlet with
      normal := ⟨0.0, 0.0, -1.0⟩, radius := 3.5 } : Boundary).plane =
      { (Patch.square 3.5).moveTo Vec.zero with normal := ⟨0.0, 0.0, -1.0⟩ } :=
    turnTo_of_unturned hn (by decide +kernel) (by decide +kernel)
  rw [hplane]
  decide +kernel

end Boundary

end SimSetup
