import SimSetup.Proofs.Boundary.Winding

/-!
# Which normals a plane takes

A plane takes the direction of its boundary's normal unless the squared length of the normal is
computed as zero or as an infinity; it then keeps the direction of the square. The squares of the
components leave the range of doubles long before the components do, so that short and long normals
are ignored, and among the short ones there are some whose unit vector is not of length one: its
squared length is the exact squared length of the normal over the computed one.
-/

namespace SimSetup

open Double

section
variable [Trig] {v : Vec Float} (hv : v.IsFinite)
include hv

-- ---------------------------------------------------------------------------
-- The squared length at the ends of the range
-- ---------------------------------------------------------------------------

theorem dot_self_of_short (hS : v.real.dot v.real < 2 ^ (-1075 : ℤ)) : Exact (v.dot v) 0 := by
  have hsquare {x : Float} (hx : x.isFinite = true) (hle : real x * real x ≤ v.real.dot v.real) :
      Exact (x * x) 0 := by
    have hnonneg := mul_self_nonneg (real x)
    have hsmall := hle.trans_lt hS
    refine ((computes_mul hx hx).rounded ?_).exact_zero_of_lt hnonneg hsmall
    rw [abs_of_nonneg hnonneg]
    exact hsmall.le.trans (zpow_le_zpow_right₀ one_le_two (by norm_num))
  obtain ⟨hx, hy, hz⟩ := square_le_dot v
  have hrange : |(0 : ℝ)| ≤ 2 ^ (1000 : ℤ) := by simp
  exact ((hsquare hv.x hx).add_zero (hsquare hv.y hy) hrange).add_zero (hsquare hv.z hz) hrange

theorem dot_self_of_long (hS : 2 ^ (1025 : ℤ) ≤ v.real.dot v.real) :
    (v.dot v).isFinite = false := by
  by_contra hfin
  rw [Bool.not_eq_false] at hfin
  obtain ⟨-, herr⟩ := dot_self_error hv hfin
  have hlow := (abs_le.mp herr).1
  have hD := (le_abs_self _).trans (real_le_range hfin)
  have hu := roundoff_le
  have hl := least_le
  obtain ⟨B, hB, hB1, hbound⟩ : ∃ B : ℝ, B = 2 ^ (1024 : ℤ) ∧ 1 ≤ B ∧
      (2 : ℝ) ^ (1025 : ℤ) = 2 * B :=
    ⟨_, rfl, one_le_zpow₀ one_le_two (by norm_num), zpow_one_add₀ two_ne_zero 1024⟩
  rw [hbound] at hS
  rw [← hB] at hD
  clear hbound hB herr
  generalize v.real.dot v.real = S at *
  have hpart : roundoff * S ≤ 1e-15 * S := mul_le_mul_of_nonneg_right hu (by linarith)
  linarith

-- ---------------------------------------------------------------------------
-- The length of the unit vector
-- ---------------------------------------------------------------------------

theorem dot_self_le (hfin : (v.dot v).isFinite = true) (hpos : 0 < real (v.dot v)) :
    v.real.dot v.real ≤ 3 * real (v.dot v) := by
  obtain ⟨-, herr⟩ := dot_self_error hv hfin
  have hlow := (abs_le.mp herr).1
  have hl := least_le_real hfin hpos
  have hpart : roundoff * v.real.dot v.real ≤ 1e-15 * v.real.dot v.real :=
    mul_le_mul_of_nonneg_right roundoff_le (Vec.dot_self_nonneg _)
  linarith

/-- The unit vector is too long by as much as the computed length is too short. -/
theorem normalized_length (hfin : (v.dot v).isFinite = true) (hpos : 0 < real (v.dot v)) :
    ∃ u : Vec Float, v.normalized? = some u ∧
      |u.real.dot u.real - v.real.dot v.real / real (v.dot v)| ≤ 1e-12 := by
  have hS := dot_self_le hv hfin hpos
  obtain ⟨u, κ, hu, hscaled, -, hκ⟩ := normalized_of_pos hv hfin hpos hS
  refine ⟨u, hu, ?_⟩
  obtain ⟨q, hq, hSq⟩ : ∃ q, q = v.real.dot v.real / real (v.dot v) ∧
      v.real.dot v.real = q * real (v.dot v) := ⟨_, rfl, (div_mul_cancel₀ _ hpos.ne').symm⟩
  have hq0 : 0 ≤ q := hq ▸ div_nonneg (Vec.dot_self_nonneg _) hpos.le
  have hq3 : q ≤ 3 := hq ▸ (div_le_iff₀ hpos).mpr hS
  have hround := roundoff_le
  have hscale : |κ ^ 2 * v.real.dot v.real - q| ≤ 3e-14 := by
    calc |κ ^ 2 * v.real.dot v.real - q| = q * |κ ^ 2 * real (v.dot v) - 1| := by
          rw [hSq, ← abs_of_nonneg hq0, ← abs_mul, abs_of_nonneg hq0]
          ring_nf
      _ ≤ 3 * (8 * 1e-15) := by
        gcongr
        exact hκ.trans (by linarith)
      _ ≤ 3e-14 := by norm_num
  obtain ⟨hlow, hhigh⟩ := abs_le.mp hscale
  have hlength := hscaled.dot_error (by linarith)
  rw [← hq]
  calc |u.real.dot u.real - q|
      ≤ |u.real.dot u.real - κ ^ 2 * v.real.dot v.real| + |κ ^ 2 * v.real.dot v.real - q| :=
        abs_sub_le _ _ _
    _ ≤ 1e-13 + 3e-14 := add_le_add hlength hscale
    _ ≤ 1e-12 := by norm_num

theorem normalized_eq_none_iff :
    v.normalized? = none ↔ ((v.dot v).isFinite = true → real (v.dot v) = 0) := by
  constructor
  · intro hnone hfin
    by_contra hne
    have hpos : 0 < real (v.dot v) := lt_of_le_of_ne (dot_self_error hv hfin).1 (Ne.symm hne)
    obtain ⟨u, hu, -⟩ := normalized_length hv hfin hpos
    rw [hnone] at hu
    cases hu
  · intro h
    cases hfin : (v.dot v).isFinite with
    | false => exact normalized_of_not_finite hfin
    | true => exact normalized_of_zero hfin (h hfin)

theorem length_of_normalized {u : Vec Float} (hu : v.normalized? = some u) :
    |u.real.dot u.real - v.real.dot v.real / real (v.dot v)| ≤ 1e-12 := by
  have hsome : ¬ v.normalized? = none := by simp [hu]
  rw [normalized_eq_none_iff hv, Classical.not_imp] at hsome
  obtain ⟨hfin, hne⟩ := hsome
  have hpos := lt_of_le_of_ne (dot_self_error hv hfin).1 (Ne.symm hne)
  obtain ⟨k, hk, hlength⟩ := normalized_length hv hfin hpos
  obtain rfl : u = k := Option.some.inj (hu.symm.trans hk)
  exact hlength

theorem dot_self_ratio (hfin : (v.dot v).isFinite = true)
    (hS : 2 ^ (-1043 : ℤ) ≤ v.real.dot v.real) :
    0 < real (v.dot v) ∧ |v.real.dot v.real / real (v.dot v) - 1| ≤ 9e-10 := by
  obtain ⟨-, herr⟩ := dot_self_error hv hfin
  have hl : least ≤ 4.7e-10 * v.real.dot v.real := by
    calc least = 2 ^ (-31 : ℤ) * 2 ^ (-1043 : ℤ) := by
          rw [two_zpow_mul, least]
          norm_num
      _ ≤ 4.7e-10 * v.real.dot v.real := by
        gcongr
        norm_num
  have hS0 : 0 < v.real.dot v.real := lt_of_lt_of_le (by positivity) hS
  clear hS
  have hpart : roundoff * v.real.dot v.real ≤ 1e-15 * v.real.dot v.real :=
    mul_le_mul_of_nonneg_right roundoff_le hS0.le
  obtain ⟨hlow, hhigh⟩ := abs_le.mp herr
  generalize v.real.dot v.real = S at *
  generalize real (v.dot v) = D at *
  have hD : 0 < D := by linarith
  refine ⟨hD, ?_⟩
  rw [div_sub_one hD.ne', abs_div, abs_of_pos hD, div_le_iff₀ hD, abs_le]
  constructor <;> linarith

end

-- ---------------------------------------------------------------------------
-- Planes
-- ---------------------------------------------------------------------------

namespace Boundary

section
variable [Trig]

def HonoursNormal (b : Boundary) : Prop :=
  ∃ u, b.normal.normalized? = some u ∧ |u.real.dot u.real - 1| ≤ 1e-9 ∧ b.plane.normal = u

/-- The plane is the square, moved to the centre and not turned. -/
def IgnoresNormal (b : Boundary) : Prop :=
  b.normal.normalized? = none ∧ b.plane = (Patch.square b.radius).moveTo b.centre

theorem ignoresNormal_iff (b : Boundary) : b.IgnoresNormal ↔ b.normal.normalized? = none := by
  refine ⟨And.left, fun h => ⟨h, ?_⟩⟩
  rw [plane, Patch.facing, Patch.turnTo, h]

theorem plane_normal {b : Boundary} (h : b.normal.normalized? = some u) : b.plane.normal = u :=
  turnTo_normal h _

/-- A normal between the ends of the range is honoured and one beyond them is ignored. In all cases
the computed squared length decides: a normal is ignored where that is zero or infinite, and else
the square of the plane's unit normal is off by what it is off by. -/
theorem plane_takes_normal {b : Boundary} (hn : b.normal.IsFinite) :
    (2 ^ (-1043 : ℤ) ≤ b.normal.real.dot b.normal.real →
      b.normal.real.dot b.normal.real ≤ 2 ^ (1021 : ℤ) → b.HonoursNormal) ∧
    (b.normal.real.dot b.normal.real < 2 ^ (-1075 : ℤ) ∨
      2 ^ (1025 : ℤ) ≤ b.normal.real.dot b.normal.real → b.IgnoresNormal) ∧
    (b.IgnoresNormal ↔
      ((b.normal.dot b.normal).isFinite = true → real (b.normal.dot b.normal) = 0)) ∧
    ∀ u, b.normal.normalized? = some u → b.plane.normal = u ∧
      |u.real.dot u.real - b.normal.real.dot b.normal.real / real (b.normal.dot b.normal)| ≤
        1e-12 := by
  refine ⟨fun hlow hhigh => ?_, fun hout => ?_, ?_, fun u hu =>
    ⟨plane_normal hu, length_of_normalized hn hu⟩⟩
  · have hfin := finite_dot_self hn hhigh
    obtain ⟨hpos, hratio⟩ := dot_self_ratio hn hfin hlow
    obtain ⟨u, hu, hlen⟩ := normalized_length hn hfin hpos
    refine ⟨u, hu, ?_, plane_normal hu⟩
    refine (abs_sub_le _ _ _).trans ((add_le_add hlen hratio).trans ?_)
    norm_num
  · rw [ignoresNormal_iff]
    rcases hout with hshort | hlong
    · have hzero := dot_self_of_short hn hshort
      exact normalized_of_zero hzero.finite hzero.value
    · exact normalized_of_not_finite (dot_self_of_long hn hlong)
  · rw [ignoresNormal_iff, normalized_eq_none_iff hn]

end

theorem real_dot_self_of_axis {x : Float} {k : ℤ} (hx : Exact x (2 ^ k)) :
    (⟨x, 0.0, 0.0⟩ : Vec Float).IsFinite ∧
      (⟨x, 0.0, 0.0⟩ : Vec Float).real.dot (⟨x, 0.0, 0.0⟩ : Vec Float).real = 2 ^ (k + k) := by
  refine ⟨⟨hx.finite, exact_zero.finite, exact_zero.finite⟩, ?_⟩
  rw [Vec.real_dot_self, hx.value, exact_zero.value, two_zpow_mul]
  norm_num

theorem plane_takes_normal_minute :
    let short : Boundary := { new .inlet with normal := ⟨3.054936363499605e-151, 0.0, 0.0⟩ }
    let shorter : Boundary := { new .inlet with normal := ⟨2.409919865102884e-181, 0.0, 0.0⟩ }
    short.HonoursNormal ∧ shorter.IgnoresNormal ∧
      ∃ u, short.normal.normalized? = some u ∧ short.plane.normal = u ∧
        |u.real.dot u.real - short.normal.real.dot short.normal.real /
          real (short.normal.dot short.normal)| ≤ 1e-12 := by
  intro short shorter
  have hx : Exact 3.054936363499605e-151 (2 ^ (-500 : ℤ)) :=
    exact_two_zpow (e := -552) (by decide) (by decide +kernel)
  have hy : Exact 2.409919865102884e-181 (2 ^ (-600 : ℤ)) :=
    exact_two_zpow (e := -652) (by decide) (by decide +kernel)
  obtain ⟨hn, hS⟩ : short.normal.IsFinite ∧
      short.normal.real.dot short.normal.real = 2 ^ (-1000 : ℤ) := real_dot_self_of_axis hx
  obtain ⟨hn', hS'⟩ : shorter.normal.IsFinite ∧
      shorter.normal.real.dot shorter.normal.real = 2 ^ (-1200 : ℤ) := real_dot_self_of_axis hy
  obtain ⟨hrange, -, -, hlength⟩ := plane_takes_normal hn
  obtain ⟨-, hout, -, -⟩ := plane_takes_normal hn'
  rw [hS] at hrange
  rw [hS'] at hout
  obtain ⟨u, hu, hhonours⟩ := hrange (zpow_le_zpow_right₀ one_le_two (by decide))
    (zpow_le_zpow_right₀ one_le_two (by decide))
  exact ⟨⟨u, hu, hhonours⟩, hout (.inl (zpow_lt_zpow_right₀ one_lt_two (by decide))), u, hu,
    hlength u hu⟩

/-- The square of this length underflows, so that the plane is left as the square. -/
theorem minute_normal_ignored :
    let n : Vec Float := ⟨1e-200, 0.0, 0.0⟩
    n.IsFinite ∧ (n == Vec.zero) = false ∧
      ¬ ({ Boundary.new .inlet with normal := n } : Boundary).HonoursNormal := by
  have hfin : (1e-200 : Float).isFinite = true := by decide +kernel
  have hnone : (⟨1e-200, 0.0, 0.0⟩ : Vec Float).normalized? = none := by decide +kernel
  refine ⟨⟨hfin, exact_zero.finite, exact_zero.finite⟩, by decide +kernel, ?_⟩
  rintro ⟨u, hu, -⟩
  rw [hnone] at hu
  cases hu

end Boundary

end SimSetup
