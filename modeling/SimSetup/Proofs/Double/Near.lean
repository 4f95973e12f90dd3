import SimSetup.Proofs.Double.Arithmetic

/-!
# Doubles near exact values

`Exact` follows the operations that lose nothing, such as those with zero or with powers of two.
`Near` follows the others and adds up what their roundings may lose.
-/

namespace SimSetup.Double

open Float.Model Float.Model.UnpackedFloat

-- ---------------------------------------------------------------------------
-- Representable values
-- ---------------------------------------------------------------------------

theorem representable_zero : Representable 0 := ⟨0, 0, by norm_num, by norm_num, by norm_num⟩

theorem Representable.two_mul (h : Representable a) : Representable (2 * a) := by
  obtain ⟨n, e, hn, he, rfl⟩ := h
  refine ⟨n, e + 1, hn, by omega, ?_⟩
  rw [zpow_add_one₀ two_ne_zero]
  ring

theorem representable_real {x : Float} (hx : x.isFinite = true) : Representable (real x) := by
  rcases finite_cases hx with ⟨s, -, h⟩ | ⟨s, m, e, hm, -, hc, h⟩ <;> rw [h]
  · exact representable_zero
  · have hpos : Representable ((m : ℝ) * 2 ^ e) :=
      ⟨m, e, by rw [Nat.abs_cast]; exact_mod_cast hc.lt, hc.low, by push_cast; rfl⟩
    cases s with
    | negative => simpa [signum] using hpos.neg
    | positive => simpa [signum] using hpos

theorem real_eq_mul_least {x : Float} (hx : x.isFinite = true) :
    ∃ n : ℤ, real x = n * 2 ^ (-1074 : ℤ) := by
  obtain ⟨n, e, -, he, h⟩ := representable_real hx
  refine ⟨n * 2 ^ (e + 1074).toNat, ?_⟩
  rw [h]
  push_cast
  rw [← zpow_natCast, mul_assoc, two_zpow_mul, Int.toNat_of_nonneg (by omega)]
  congr 2
  omega

theorem real_le_range {x : Float} (hx : x.isFinite = true) : |real x| ≤ 2 ^ (1024 : ℤ) := by
  rcases finite_cases hx with ⟨s, -, h⟩ | ⟨s, m, e, hm, -, hc, h⟩ <;> rw [h]
  · rw [abs_zero]
    positivity
  · rw [abs_mul, abs_signum, one_mul, abs_of_nonneg (by positivity)]
    have hlt : (m : ℝ) ≤ 2 ^ (53 : ℤ) := by exact_mod_cast hc.lt.le
    have hexp : (2 : ℝ) ^ e ≤ 2 ^ (971 : ℤ) := zpow_le_zpow_right₀ one_le_two hc.high
    calc (m : ℝ) * 2 ^ e ≤ 2 ^ (53 : ℤ) * 2 ^ (971 : ℤ) := by gcongr
      _ = 2 ^ (1024 : ℤ) := two_zpow_mul 53 971

theorem representable_of_lt {n : ℤ} (hn : |n| < 2 ^ 53) : Representable (n * 2 ^ (-1074 : ℤ)) :=
  ⟨n, -1074, hn, le_rfl, rfl⟩

-- ---------------------------------------------------------------------------
-- Operations that are exact
-- ---------------------------------------------------------------------------

/-- The sizes followed here stay far below the end of the range. -/
theorem pow_le_range : (2 : ℝ) ^ 200 ≤ 2 ^ (1000 : ℤ) := by
  rw [← zpow_natCast]
  exact zpow_le_zpow_right₀ one_le_two (by norm_num)

theorem range_of_le {a : ℝ} (h : |a| ≤ 1e15) : |a| ≤ 2 ^ (1000 : ℤ) :=
  h.trans ((by norm_num : (1e15 : ℝ) ≤ 2 ^ 200).trans pow_le_range)

/-- A finite double whose value is `a`. -/
structure Exact (x : Float) (a : ℝ) : Prop where
  finite : x.isFinite = true
  value : real x = a

theorem Rounded.exact (h : Rounded a y) (ha : Representable a) : Exact y a :=
  ⟨h.finite, h.rounds.exact ha⟩

theorem exact_real {x : Float} (hx : x.isFinite = true) : Exact x (real x) := ⟨hx, rfl⟩

theorem exact_finite {x : Float} (h : x.toModel.unpack = .finite s m e hm) :
    Exact x (signum s * (m * 2 ^ e)) := by
  refine ⟨?_, ?_⟩
  · change x.toModel.unpack.isFinite = true
    rw [h]
    rfl
  · rw [real, h]
    rfl

theorem exact_two_zpow {x : Float} {e : ℤ} (he : -1074 ≤ e ∧ e ≤ 971)
    (h : x.toModel = .pack (.finite .positive (2 ^ 52) e (by decide))) :
    Exact x (2 ^ (e + 52)) := by
  have hx := exact_finite (h ▸ unpack_pack (by decide) ⟨by decide, he.1, he.2, .inl le_rfl⟩)
  have hvalue : signum .positive * ((2 ^ 52 : ℕ) * 2 ^ e) = 2 ^ (e + 52) := by
    rw [signum, one_mul, Nat.cast_pow, Nat.cast_ofNat, ← zpow_natCast, two_zpow_mul, add_comm]
    rfl
  rwa [hvalue] at hx

theorem exact_zero : Exact 0.0 0 :=
  ⟨rfl, by rw [real, show (0.0 : Float).toModel.unpack = .zero .positive from rfl]; rfl⟩

theorem exact_one : Exact 1.0 1 := by
  have h := exact_finite (show (1.0 : Float).toModel.unpack =
    .finite .positive (2 ^ 52) (-52) (by decide) from rfl)
  norm_num [signum] at h
  exact h

theorem exact_half : Exact 0.5 (1 / 2) := by
  have h := exact_finite (show (0.5 : Float).toModel.unpack =
    .finite .positive (2 ^ 52) (-53) (by decide) from rfl)
  norm_num [signum] at h
  exact h

namespace Exact

variable {x y : Float} {a b : ℝ}

theorem representable (h : Exact x a) : Representable a := h.value ▸ representable_real h.finite

theorem neg (h : Exact x a) : Exact (-x) (-a) :=
  ⟨finite_neg h.finite, by rw [real_neg h.finite, h.value]⟩

theorem mul (hx : Exact x a) (hy : Exact y b) (h : Representable (a * b))
    (hb : |a * b| ≤ 2 ^ (1000 : ℤ)) : Exact (x * y) (a * b) := by
  have hround := rounded_mul hx.finite hy.finite (by rwa [hx.value, hy.value])
  rw [hx.value, hy.value] at hround
  exact hround.exact h

theorem add (hx : Exact x a) (hy : Exact y b) (h : Representable (a + b))
    (hb : |a + b| ≤ 2 ^ (1000 : ℤ)) : Exact (x + y) (a + b) := by
  have hround := rounded_add hx.finite hy.finite (by rwa [hx.value, hy.value])
  rw [hx.value, hy.value] at hround
  exact hround.exact h

theorem sub (hx : Exact x a) (hy : Exact y b) (h : Representable (a - b))
    (hb : |a - b| ≤ 2 ^ (1000 : ℤ)) : Exact (x - y) (a - b) := by
  have hround := rounded_sub hx.finite hy.finite (by rwa [hx.value, hy.value])
  rw [hx.value, hy.value] at hround
  exact hround.exact h

theorem mul_zero (hx : Exact x a) (hy : Exact y 0) : Exact (x * y) 0 := by
  simpa using hx.mul hy (by simpa using representable_zero) (by simp)

theorem zero_mul (hx : Exact x 0) (hy : Exact y a) : Exact (x * y) 0 := by
  simpa using hx.mul hy (by simpa using representable_zero) (by simp)

theorem add_zero (hx : Exact x a) (hy : Exact y 0) (hb : |a| ≤ 2 ^ (1000 : ℤ)) :
    Exact (x + y) a := by
  simpa using hx.add hy (by simpa using hx.representable) (by simpa using hb)

theorem zero_add (hx : Exact x 0) (hy : Exact y a) (hb : |a| ≤ 2 ^ (1000 : ℤ)) :
    Exact (x + y) a := by
  simpa using hx.add hy (by simpa using hy.representable) (by simpa using hb)

theorem sub_zero (hx : Exact x a) (hy : Exact y 0) (hb : |a| ≤ 2 ^ (1000 : ℤ)) :
    Exact (x - y) a := by
  simpa using hx.sub hy (by simpa using hx.representable) (by simpa using hb)

theorem zero_sub (hx : Exact x 0) (hy : Exact y a) (hb : |a| ≤ 2 ^ (1000 : ℤ)) :
    Exact (x - y) (-a) := by
  simpa using hx.sub hy (by simpa using hy.representable.neg) (by simpa using hb)

theorem sub_self (hx : Exact x a) (hy : Exact y a) : Exact (x - y) 0 := by
  simpa using hx.sub hy (by simpa using representable_zero) (by simp)

theorem double (h : Exact x a) (ha : |a| ≤ 1e14) : Exact (x - -x) (2 * a) := by
  have hsum : a - -a = 2 * a := by ring
  rw [← hsum]
  refine h.sub h.neg (hsum ▸ h.representable.two_mul) (range_of_le ?_)
  rw [hsum, abs_mul, abs_two]
  linarith

end Exact

-- ---------------------------------------------------------------------------
-- Finiteness from comparisons
-- ---------------------------------------------------------------------------

theorem finite_of_le_of_le {x y z : Float} (hy : y.isFinite = true) (hz : z.isFinite = true)
    (hyx : y ≤ x) (hxz : x ≤ z) : x.isFinite = true := by
  have hlow : y.toModel.unpack.le x.toModel.unpack = true := decide_eq_true_iff.mp hyx
  have hhigh : x.toModel.unpack.le z.toModel.unpack = true := decide_eq_true_iff.mp hxz
  change x.toModel.unpack.isFinite = true
  cases hu : x.toModel.unpack with
  | notANumber =>
    rw [hu] at hhigh
    cases hhigh
  | infinity s =>
    rw [hu] at hlow hhigh
    cases s with
    | negative =>
      rcases finite_cases hy with ⟨t, hv, -⟩ | ⟨t, m, e, hm, hv, -⟩ <;> rw [hv] at hlow
      · cases hlow
      · cases t <;> cases hlow
    | positive =>
      rcases finite_cases hz with ⟨t, hv, -⟩ | ⟨t, m, e, hm, hv, -⟩ <;> rw [hv] at hhigh <;>
        cases hhigh
  | zero => rfl
  | finite => rfl

theorem exact_of_beq_zero {x : Float} (h : (x == 0.0) = true) : Exact x 0 := by
  have hbeq : x.toModel.unpack.beq (.zero .positive) = true := h
  have hfin : x.isFinite = true := by
    change x.toModel.unpack.isFinite = true
    cases hu : x.toModel.unpack with
    | notANumber =>
      rw [hu] at hbeq
      cases hbeq
    | infinity s =>
      rw [hu] at hbeq
      cases s <;> cases hbeq
    | zero => rfl
    | finite => rfl
  rw [beq_iff hfin exact_zero.finite, exact_zero.value] at h
  exact ⟨hfin, h⟩

-- ---------------------------------------------------------------------------
-- What rounding loses
-- ---------------------------------------------------------------------------

theorem roundoff_pos : 0 < roundoff := by
  unfold roundoff
  positivity

theorem roundoff_le : roundoff ≤ 1e-15 := by norm_num [roundoff]

theorem least_pos : 0 < least := by
  unfold least
  positivity

theorem half_least : (2 : ℝ) ^ (-1075 : ℤ) = least / 2 := by
  rw [least, div_eq_mul_inv, ← zpow_sub_one₀ two_ne_zero]
  norm_num

theorem least_le : least ≤ roundoff := zpow_le_zpow_right₀ one_le_two (by norm_num)

theorem least_le_real {x : Float} (hx : x.isFinite = true) (h : 0 < real x) : least ≤ real x := by
  obtain ⟨n, hn⟩ := real_eq_mul_least hx
  have hpos := least_pos
  rw [← least] at hn
  have hn1 : 1 ≤ n := by
    by_contra hlt
    have hle : (n : ℝ) ≤ 0 := by exact_mod_cast (by omega : n ≤ 0)
    have := mul_nonpos_of_nonpos_of_nonneg hle hpos.le
    linarith
  have : (1 : ℝ) ≤ n := by exact_mod_cast hn1
  rw [hn]
  nlinarith

theorem Rounds.sum (h : Rounds a b) : |b - a| ≤ roundoff * |a| + least / 2 := by
  have h1 : 0 ≤ roundoff * |a| := mul_nonneg roundoff_pos.le (abs_nonneg a)
  have h2 := least_pos
  exact h.error.trans (max_le (by rw [← roundoff]; linarith) (by rw [half_least]; linarith))

/-- Results that are not subnormal are off by a part of their own size only. -/
theorem Rounds.relative (h : Rounds a b) (ha : 2 ^ (-1022 : ℤ) ≤ |a|) :
    |b - a| ≤ roundoff * |a| := by
  refine h.error.trans (max_le le_rfl ?_)
  calc (2 : ℝ) ^ (-1075 : ℤ) = roundoff * 2 ^ (-1022 : ℤ) := by
        rw [roundoff, two_zpow_mul]
        norm_num
    _ ≤ roundoff * |a| := mul_le_mul_of_nonneg_left ha roundoff_pos.le

theorem Rounded.nonneg (h : Rounded a y) (ha : 0 ≤ a) : 0 ≤ real y := by
  obtain ⟨n, hn⟩ := real_eq_mul_least h.finite
  obtain ⟨hlow, -⟩ := abs_le.mp h.rounds.sum
  rw [abs_of_nonneg ha] at hlow
  have hpart : roundoff * a ≤ 1 * a :=
    mul_le_mul_of_nonneg_right (roundoff_le.trans (by norm_num)) ha
  -- Half the least double below zero there is nothing but zero itself.
  have hn0 : 0 ≤ n := by
    by_contra hneg
    have hle : (n : ℝ) ≤ -1 := by exact_mod_cast (by omega : n ≤ -1)
    have hpos := least_pos
    have : n * least ≤ -1 * least := mul_le_mul_of_nonneg_right hle hpos.le
    rw [hn, ← least] at hlow
    linarith
  rw [hn]
  have : (0 : ℝ) ≤ n := by exact_mod_cast hn0
  positivity

/-- Less than half the least double is rounded to zero. -/
theorem Rounded.exact_zero_of_lt (h : Rounded a y) (ha : 0 ≤ a) (hsmall : a < 2 ^ (-1075 : ℤ)) :
    Exact y 0 := by
  refine ⟨h.finite, ?_⟩
  have herr : real y ≤ a + 2 ^ (-1075 : ℤ) := by
    have hpart : 2 ^ (-53 : ℤ) * |a| ≤ (2 : ℝ) ^ (-1075 : ℤ) := by
      rw [abs_of_nonneg ha]
      refine (mul_le_of_le_one_left ha ?_).trans hsmall.le
      exact zpow_le_one_of_nonpos₀ one_le_two (by norm_num)
    have := (abs_le.mp (h.rounds.error.trans (max_le hpart le_rfl))).2
    linarith
  by_contra hne
  have hpos : 0 < real y := lt_of_le_of_ne (h.nonneg ha) (Ne.symm hne)
  have := least_le_real h.finite hpos
  rw [half_least] at herr hsmall
  linarith

/-- Sums do not underflow: what they lose is always a part of their own size. -/
theorem add_relative {x y : Float} (hfin : (x + y).isFinite = true) :
    |real (x + y) - (real x + real y)| ≤ roundoff * |real x + real y| := by
  obtain ⟨hx, hy⟩ := finite_of_add hfin
  have h := (computes_add hx hy).rounds hfin
  obtain ⟨m, hm⟩ := real_eq_mul_least hx
  obtain ⟨n, hn⟩ := real_eq_mul_least hy
  have hsum : real x + real y = (m + n : ℤ) * 2 ^ (-1074 : ℤ) := by
    rw [hm, hn]
    push_cast
    ring
  by_cases hsmall : |m + n| < 2 ^ 53
  · rw [h.exact (hsum ▸ representable_of_lt hsmall), sub_self, abs_zero]
    exact mul_nonneg roundoff_pos.le (abs_nonneg _)
  · refine h.relative ?_
    have hbig : (2 : ℝ) ^ (53 : ℤ) ≤ |((m + n : ℤ) : ℝ)| := by exact_mod_cast not_lt.mp hsmall
    rw [hsum, abs_mul, abs_of_pos (by positivity : (0 : ℝ) < 2 ^ (-1074 : ℤ))]
    calc (2 : ℝ) ^ (-1022 : ℤ) ≤ 2 ^ (53 : ℤ) * 2 ^ (-1074 : ℤ) := by
          rw [two_zpow_mul]
          exact zpow_le_zpow_right₀ one_le_two (by norm_num)
      _ ≤ |((m + n : ℤ) : ℝ)| * 2 ^ (-1074 : ℤ) := by gcongr

-- ---------------------------------------------------------------------------
-- Operations that round
-- ---------------------------------------------------------------------------

/-- A finite double within `ε` of `a`, which is at most `m` in size. -/
structure Near (x : Float) (a m ε : ℝ) : Prop where
  finite : x.isFinite = true
  bound : |a| ≤ m
  error : |real x - a| ≤ ε

noncomputable def slack (m : ℝ) : ℝ := roundoff * (m + 1)

/-- The error of a sum of values of sizes `m` and `n` with errors `ε` and `δ`. -/
noncomputable def sumError (m n ε δ : ℝ) : ℝ := ε + δ + slack (m + n + (ε + δ))

noncomputable def productError (m n ε δ : ℝ) : ℝ :=
  m * δ + n * ε + ε * δ + slack (m * n + (m * δ + n * ε + ε * δ))

theorem Rounded.near (h : Rounded b y) (ha : |a| ≤ m) (hb : |b - a| ≤ ε) :
    Near y a m (ε + slack (m + ε)) := by
  refine ⟨h.finite, ha, ?_⟩
  have hsize : |b| ≤ m + ε := by
    calc |b| = |a + (b - a)| := by ring_nf
      _ ≤ |a| + |b - a| := abs_add_le _ _
      _ ≤ m + ε := by linarith
  calc |real y - a| = |(real y - b) + (b - a)| := by ring_nf
    _ ≤ |real y - b| + |b - a| := abs_add_le _ _
    _ ≤ roundoff * |b| + least / 2 + ε := add_le_add h.rounds.sum hb
    _ ≤ slack (m + ε) + ε := by
      have hpart := mul_le_mul_of_nonneg_left hsize roundoff_pos.le
      have := least_le
      have := least_pos
      unfold slack
      linarith
    _ = ε + slack (m + ε) := by ring

theorem Exact.near (h : Exact x a) (ha : |a| ≤ m) : Near x a m 0 :=
  ⟨h.finite, ha, by simp [h.value]⟩

namespace Near

variable {x y : Float} {a b m n ε δ : ℝ}

theorem weaken (h : Near x a m ε) (hm : m ≤ n) (hε : ε ≤ δ) : Near x a n δ :=
  ⟨h.finite, h.bound.trans hm, h.error.trans hε⟩

theorem nonneg (h : Near x a m ε) : 0 ≤ m ∧ 0 ≤ ε :=
  ⟨(abs_nonneg a).trans h.bound, (abs_nonneg _).trans h.error⟩

theorem size (h : Near x a m ε) : |real x| ≤ m + ε := by
  calc |real x| = |a + (real x - a)| := by ring_nf
    _ ≤ |a| + |real x - a| := abs_add_le _ _
    _ ≤ m + ε := add_le_add h.bound h.error

theorem bounds (h : Near x a m ε) : a - ε ≤ real x ∧ real x ≤ a + ε := by
  have := abs_le.mp h.error
  constructor <;> linarith

theorem neg (h : Near x a m ε) : Near (-x) (-a) m ε := by
  refine ⟨finite_neg h.finite, by rw [abs_neg]; exact h.bound, ?_⟩
  rw [real_neg h.finite, neg_sub_neg, abs_sub_comm]
  exact h.error

theorem add (hx : Near x a m ε) (hy : Near y b n δ) (hb : m + n + (ε + δ) ≤ 2 ^ 200) :
    Near (x + y) (a + b) (m + n) (sumError m n ε δ) := by
  have hsize : |real x + real y| ≤ 2 ^ 200 := by
    refine le_trans (abs_add_le _ _) (le_trans (add_le_add hx.size hy.size) ?_)
    linarith
  refine (rounded_add hx.finite hy.finite (hsize.trans pow_le_range)).near ?_ ?_
  · exact (abs_add_le a b).trans (add_le_add hx.bound hy.bound)
  · calc |real x + real y - (a + b)| = |(real x - a) + (real y - b)| := by ring_nf
      _ ≤ |real x - a| + |real y - b| := abs_add_le _ _
      _ ≤ ε + δ := add_le_add hx.error hy.error

theorem sub (hx : Near x a m ε) (hy : Near y b n δ) (hb : m + n + (ε + δ) ≤ 2 ^ 200) :
    Near (x - y) (a - b) (m + n) (sumError m n ε δ) := by
  rw [float_sub hx.finite hy.finite, sub_eq_add_neg]
  exact hx.add hy.neg hb

theorem mul (hx : Near x a m ε) (hy : Near y b n δ)
    (hb : m * n + (m * δ + n * ε + ε * δ) ≤ 2 ^ 200) :
    Near (x * y) (a * b) (m * n) (productError m n ε δ) := by
  have hprod : |a * b| ≤ m * n := by
    rw [abs_mul]
    exact mul_le_mul hx.bound hy.bound (abs_nonneg b) hx.nonneg.1
  have herr : |real x * real y - a * b| ≤ m * δ + n * ε + ε * δ := by
    have h1 : |a * (real y - b)| ≤ m * δ := by
      rw [abs_mul]
      exact mul_le_mul hx.bound hy.error (abs_nonneg _) hx.nonneg.1
    have h2 : |b * (real x - a)| ≤ n * ε := by
      rw [abs_mul]
      exact mul_le_mul hy.bound hx.error (abs_nonneg _) hy.nonneg.1
    have h3 : |(real x - a) * (real y - b)| ≤ ε * δ := by
      rw [abs_mul]
      exact mul_le_mul hx.error hy.error (abs_nonneg _) hx.nonneg.2
    calc |real x * real y - a * b|
        = |a * (real y - b) + b * (real x - a) + (real x - a) * (real y - b)| := by ring_nf
      _ ≤ |a * (real y - b)| + |b * (real x - a)| + |(real x - a) * (real y - b)| :=
        abs_add_three _ _ _
      _ ≤ m * δ + n * ε + ε * δ := by linarith
  refine (rounded_mul hx.finite hy.finite (le_trans ?_ pow_le_range)).near hprod herr
  calc |real x * real y| = |a * b + (real x * real y - a * b)| := by ring_nf
    _ ≤ |a * b| + |real x * real y - a * b| := abs_add_le _ _
    _ ≤ 2 ^ 200 := by linarith

end Near

-- ---------------------------------------------------------------------------
-- Reciprocals of roots
-- ---------------------------------------------------------------------------

/-- The reciprocal of a root, both rounded, still undoes the root. -/
theorem reciprocal_root_error {g l κ u : ℝ} (hu : 0 < u) (hu1 : u ≤ 1e-15) (hg : 0 < g)
    (hl : |l - g| ≤ u * g) (hκ : |κ - 1 / l| ≤ u * (1 / l)) :
    0 < κ ∧ |κ ^ 2 * g ^ 2 - 1| ≤ 8 * u := by
  obtain ⟨hllow, hlhigh⟩ := abs_le.mp hl
  obtain ⟨hκlow, hκhigh⟩ := abs_le.mp hκ
  have hug : u * g ≤ 1e-15 * g := by gcongr
  have hlpos : 0 < l := by linarith
  have hinv : 0 < 1 / l := by positivity
  have hκpos : 0 < κ := by nlinarith
  have hone : 1 / l * l = 1 := one_div_mul_cancel hlpos.ne'
  have h1 : κ * l ≤ 1 + u := by nlinarith
  have h2 : 1 - u ≤ κ * l := by nlinarith
  have hup : κ * g ≤ 1 + 3 * u := by
    have : κ * g * (1 - u) ≤ 1 + u := by nlinarith
    nlinarith
  have hlow : 1 - 2 * u ≤ κ * g := by
    have : 1 - u ≤ κ * g * (1 + u) := by nlinarith
    nlinarith
  refine ⟨hκpos, ?_⟩
  rw [← mul_pow, abs_le]
  constructor <;> nlinarith

section
variable {x : Float} (hx : x.isFinite = true) (hpos : 0 < real x)
include hx hpos

theorem root_range : (2 : ℝ) ^ (-537 : ℤ) ≤ √(real x) ∧ √(real x) ≤ 2 ^ (512 : ℤ) := by
  constructor
  · refine Real.le_sqrt_of_sq_le (le_trans (le_of_eq ?_) (least_le_real hx hpos))
    rw [pow_two, two_zpow_mul, least]
    norm_num
  · rw [Real.sqrt_le_left (by positivity), pow_two, two_zpow_mul]
    exact (le_abs_self _).trans (real_le_range hx)

theorem root_error : |real x.sqrt - √(real x)| ≤ roundoff * √(real x) := by
  have hg : 0 < √(real x) := Real.sqrt_pos.mpr hpos
  have hround := (rounded_sqrt hx hpos.le).rounds.relative (by
    rw [abs_of_pos hg]
    exact le_trans (zpow_le_zpow_right₀ one_le_two (by norm_num)) (root_range hx hpos).1)
  rwa [abs_of_pos hg] at hround

theorem root_pos : 0 < real x.sqrt := by
  have hg : 0 < √(real x) := Real.sqrt_pos.mpr hpos
  have hsmall : roundoff * √(real x) ≤ 1 / 2 * √(real x) :=
    mul_le_mul_of_nonneg_right (roundoff_le.trans (by norm_num)) hg.le
  obtain ⟨hlow, -⟩ := abs_le.mp (root_error hx hpos)
  linarith

theorem reciprocal_range :
    (2 : ℝ) ^ (-1022 : ℤ) ≤ 1 / real x.sqrt ∧ 1 / real x.sqrt ≤ 2 ^ (1000 : ℤ) := by
  have hpos' := root_pos hx hpos
  obtain ⟨hlow, hhigh⟩ := root_range hx hpos
  obtain ⟨hllow, hlhigh⟩ := abs_le.mp (root_error hx hpos)
  have hsmall : roundoff * √(real x) ≤ 1 / 2 * √(real x) :=
    mul_le_mul_of_nonneg_right (roundoff_le.trans (by norm_num)) (Real.sqrt_nonneg _)
  constructor
  · rw [le_div_iff₀ hpos']
    have hle : real x.sqrt ≤ 2 * √(real x) := by linarith
    calc (2 : ℝ) ^ (-1022 : ℤ) * real x.sqrt ≤ 2 ^ (-1022 : ℤ) * (2 * 2 ^ (512 : ℤ)) := by
          gcongr
          exact hle.trans (by gcongr)
      _ = 2 ^ (-509 : ℤ) := by
        rw [← zpow_one_add₀ two_ne_zero, two_zpow_mul]
        norm_num
      _ ≤ 2 ^ (0 : ℤ) := zpow_le_zpow_right₀ one_le_two (by norm_num)
      _ = 1 := zpow_zero 2
  · rw [div_le_iff₀ hpos']
    calc (1 : ℝ) = 2 ^ (538 : ℤ) * (1 / 2 * 2 ^ (-537 : ℤ)) := by
          rw [mul_left_comm, two_zpow_mul]
          norm_num
      _ ≤ 2 ^ (1000 : ℤ) * real x.sqrt := by
        refine mul_le_mul (zpow_le_zpow_right₀ one_le_two (by norm_num)) ?_ (by positivity)
          (by positivity)
        linarith

theorem reciprocal_error : (1.0 / x.sqrt).isFinite = true ∧ 0 < real (1.0 / x.sqrt) ∧
    |real (1.0 / x.sqrt) ^ 2 * real x - 1| ≤ 8 * roundoff := by
  have hpos' := root_pos hx hpos
  have hinv : 0 < 1 / real x.sqrt := by positivity
  obtain ⟨hlow, hhigh⟩ := reciprocal_range hx hpos
  have hround := rounded_div exact_one.finite (rounded_sqrt hx hpos.le).finite hpos'.ne' (by
    rwa [exact_one.value, abs_of_pos hinv])
  rw [exact_one.value] at hround
  have hκ := hround.rounds.relative (by rwa [abs_of_pos hinv])
  rw [abs_of_pos hinv] at hκ
  have h := reciprocal_root_error roundoff_pos roundoff_le (Real.sqrt_pos.mpr hpos)
    (root_error hx hpos) hκ
  rw [Real.sq_sqrt hpos.le] at h
  exact ⟨hround.finite, h⟩

end

end SimSetup.Double
