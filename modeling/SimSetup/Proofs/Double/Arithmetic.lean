import SimSetup.Proofs.Double.Rounding

/-!
# Exact values of doubles and their arithmetic

`real` is the exact value of a finite double. Every operation of the arithmetic gives a double that
rounds the exact result, or an infinity if that is near the end of the range, and comparisons
compare the exact values.
-/

namespace SimSetup.Double

open Float.Model Float.Model.UnpackedFloat

/-- The exact value of a finite double, and zero for the others. -/
noncomputable def real (x : Float) : ℝ := unpackedReal x.toModel.unpack

/-- A finite double that rounds `a`. -/
structure Rounded (a : ℝ) (y : Float) : Prop where
  finite : y.isFinite = true
  rounds : Rounds a (real y)

/-- What an operation with the exact result `a` gives: a double that rounds `a`, unless it is not
finite, which happens only near the end of the range. -/
structure Computes (a : ℝ) (y : Float) : Prop where
  finite : |a| ≤ 2 ^ (1022 : ℤ) → y.isFinite = true
  rounds : y.isFinite = true → Rounds a (real y)

theorem Rounded.computes (h : Rounded a y) : Computes a y := ⟨fun _ => h.finite, fun _ => h.rounds⟩

theorem Computes.rounded (h : Computes a y) (hb : |a| ≤ 2 ^ (1000 : ℤ)) : Rounded a y := by
  have hfin := h.finite (hb.trans (zpow_le_zpow_right₀ one_le_two (by norm_num)))
  exact ⟨hfin, h.rounds hfin⟩

theorem finite_cases {x : Float} (h : x.isFinite = true) :
    (∃ s, x.toModel.unpack = .zero s ∧ real x = 0) ∨
      ∃ s m e, ∃ hm : 0 < m, x.toModel.unpack = .finite s m e hm ∧ Canonical m e ∧
        real x = signum s * (m * 2 ^ e) := by
  change x.toModel.unpack.isFinite = true at h
  cases hu : x.toModel.unpack with
  | infinity s => rw [hu] at h; cases h
  | notANumber => rw [hu] at h; cases h
  | zero s => exact .inl ⟨s, rfl, by simp [real, hu, unpackedReal]⟩
  | finite s m e hm =>
    exact .inr ⟨s, m, e, hm, rfl, canonical_unpack hu, by simp [real, hu, unpackedReal]⟩

theorem signum_mul (s t : Sign) : signum (s * t) = signum s * signum t := by
  cases s <;> cases t
  · exact (by norm_num : (1 : ℝ) = -1 * -1)
  · exact (by norm_num : (-1 : ℝ) = -1 * 1)
  · exact (by norm_num : (-1 : ℝ) = 1 * -1)
  · exact (by norm_num : (1 : ℝ) = 1 * 1)

theorem signum_div (s t : Sign) : signum (s / t) = signum s * signum t := by
  have hdiv : s / t = s * t := by cases s <;> cases t <;> rfl
  rw [hdiv, signum_mul]

theorem signum_neg (s : Sign) : signum (-s) = -signum s := by
  cases s
  · exact (by norm_num : (1 : ℝ) = - -1)
  · exact rfl

@[simp] theorem abs_signum (s : Sign) : |signum s| = 1 := by
  cases s <;> simp [signum]

theorem Rounds.signum (h : Rounds a b) (s : Sign) : Rounds (signum s * a) (signum s * b) := by
  cases s with
  | negative => simpa [Double.signum] using h.neg
  | positive => simpa [Double.signum] using h

theorem apply_eq (s : Sign) (n : ℕ) : ((s.apply n : ℤ) : ℝ) = signum s * n := by
  cases s <;> simp [Sign.apply, signum]

theorem unpack_pack_unpack {x : Float} (h : x.isFinite = true) :
    (Float.Model.pack x.toModel.unpack).unpack = x.toModel.unpack := by
  rcases finite_cases h with ⟨s, hu, -⟩ | ⟨s, m, e, hm, hu, hc, -⟩ <;> rw [hu]
  · exact unpack_packedZero
  · exact unpack_pack hm hc

-- ---------------------------------------------------------------------------
-- Changing the sign
-- ---------------------------------------------------------------------------

theorem unpack_neg {x : Float} (h : x.isFinite = true) :
    (-x).toModel.unpack = x.toModel.unpack.neg := by
  change (Float.Model.pack x.toModel.unpack.neg).unpack = _
  rcases finite_cases h with ⟨s, hu, -⟩ | ⟨s, m, e, hm, hu, hc, -⟩ <;> rw [hu]
  · exact unpack_packedZero
  · exact unpack_pack hm hc

theorem finite_neg {x : Float} (h : x.isFinite = true) : (-x).isFinite = true := by
  change (-x).toModel.unpack.isFinite = true
  rw [unpack_neg h]
  rcases finite_cases h with ⟨s, hu, -⟩ | ⟨s, m, e, hm, hu, -⟩ <;> rw [hu] <;> rfl

theorem real_neg {x : Float} (h : x.isFinite = true) : real (-x) = -real x := by
  rw [real, unpack_neg h]
  rcases finite_cases h with ⟨s, hu, hx⟩ | ⟨s, m, e, hm, hu, -, hx⟩ <;> rw [hu, hx]
  · simp [UnpackedFloat.neg, unpackedReal]
  · simp only [UnpackedFloat.neg, unpackedReal, signum_neg, neg_mul]

theorem unpack_abs {x : Float} (h : x.isFinite = true) :
    x.abs.toModel.unpack = x.toModel.unpack.abs := by
  change (Float.Model.pack x.toModel.unpack.abs).unpack = _
  rcases finite_cases h with ⟨s, hu, -⟩ | ⟨s, m, e, hm, hu, hc, -⟩ <;> rw [hu]
  · exact unpack_packedZero
  · exact unpack_pack hm hc

theorem finite_abs {x : Float} (h : x.isFinite = true) : x.abs.isFinite = true := by
  change x.abs.toModel.unpack.isFinite = true
  rw [unpack_abs h]
  rcases finite_cases h with ⟨s, hu, -⟩ | ⟨s, m, e, hm, hu, -⟩ <;> rw [hu] <;> rfl

theorem real_abs {x : Float} (h : x.isFinite = true) : real x.abs = |real x| := by
  rw [real, unpack_abs h]
  rcases finite_cases h with ⟨s, hu, hx⟩ | ⟨s, m, e, hm, hu, -, hx⟩ <;> rw [hu, hx]
  · simp [UnpackedFloat.abs, unpackedReal]
  · rw [abs_mul, abs_signum, one_mul, abs_of_nonneg (by positivity)]
    simp [UnpackedFloat.abs, unpackedReal, signum]

-- ---------------------------------------------------------------------------
-- Results of the model's rounding
-- ---------------------------------------------------------------------------

theorem rounded_zero {z : Float} (h : z.toModel.unpack = .zero s) : Rounded 0 z := by
  refine ⟨?_, ?_⟩
  · change z.toModel.unpack.isFinite = true
    rw [h]
    rfl
  · rw [real, h]
    exact .refl 0

theorem rounded_same {x z : Float} (hx : x.isFinite = true)
    (h : z.toModel = .pack x.toModel.unpack) :
    Rounded (real x) z := by
  have hu : z.toModel.unpack = x.toModel.unpack := by rw [h, unpack_pack_unpack hx]
  refine ⟨?_, ?_⟩
  · change z.toModel.unpack.isFinite = true
    rw [hu]
    exact hx
  · have hreal : real z = real x := congrArg unpackedReal hu
    rw [hreal]
    exact .refl _

section
variable {z : Float} {m : ℕ} {e : ℤ} {s : Sign}

theorem computes_roundWithAccuracy {acc : Accuracy} {x : ℝ}
    (h : z.toModel = .pack (roundWithAccuracy Format.binary64 s m e acc))
    (hx : Holds (.ofMantissaAndAccuracy m acc) x) (hc : 52 ≤ m.log2 ∨ e ≤ -1074) :
    Computes (signum s * (x * 2 ^ e)) z := by
  obtain ⟨b, hb, v, hv, hfin, hreal⟩ := rounds_roundWithAccuracy s hx hc
  have hx0 : 0 ≤ x := (Nat.cast_nonneg _).trans hx.bounds.1
  have hunpack : z.toModel.unpack = v := by rw [h, hv]
  refine ⟨fun hle => ?_, fun hz => ?_⟩
  · rw [abs_mul, abs_signum, one_mul, abs_of_nonneg (by positivity)] at hle
    change z.toModel.unpack.isFinite = true
    rw [hunpack]
    exact hfin hle
  · change z.toModel.unpack.isFinite = true at hz
    rw [hunpack] at hz
    rw [real, hunpack, hreal hz]
    exact hb.signum s

theorem log2_shiftLeft (hm : 0 < m) (k : ℕ) : (m <<< k).log2 = m.log2 + k := by
  have hpos : 0 < 2 ^ k := Nat.two_pow_pos k
  rw [Nat.shiftLeft_eq, Nat.log2_eq_iff (Nat.mul_pos hm hpos).ne']
  constructor
  · rw [pow_add]
    exact Nat.mul_le_mul_right _ (Nat.log2_self_le hm.ne')
  · rw [Nat.add_right_comm, pow_add]
    exact Nat.mul_lt_mul_of_pos_right Nat.lt_log2_self hpos

theorem shiftLeft_mul_zpow (m k : ℕ) (e : ℤ) :
    ((m <<< k : ℕ) : ℝ) * 2 ^ (e - k) = m * 2 ^ e := by
  rw [Nat.shiftLeft_eq, zpow_sub₀ two_ne_zero, zpow_natCast]
  push_cast
  field_simp

/-- A significand that is short of digits is lengthened before it is rounded. -/
theorem computes_round (h : z.toModel = .pack (round Format.binary64 s m e)) (hm : 0 < m) :
    Computes (signum s * (m * 2 ^ e)) z := by
  set k := (e - Format.binary64.targetExponent (totalExponent m e)).toNat with hk
  have hdigits : 52 ≤ (m <<< k).log2 ∨ e - k ≤ -1074 := by
    rw [targetExponent_eq] at hk
    rw [log2_shiftLeft hm]
    omega
  rw [← shiftLeft_mul_zpow m k]
  exact computes_roundWithAccuracy h (holds_ofMantissa _) hdigits

theorem computes_normalize {n : ℤ} {t : Sign}
    (h : z.toModel = .pack (UnpackedFloat.normalize Format.binary64 n e t)) :
    Computes (n * 2 ^ e) z := by
  have hcast {i : ℤ} (hi : 0 < i) : ((i.toNat : ℕ) : ℝ) = i := by
    exact_mod_cast congrArg (Int.cast (R := ℝ)) (Int.toNat_of_nonneg hi.le)
  unfold UnpackedFloat.normalize at h
  split at h
  · next hlt =>
    have hn : 0 < -n := by have := compare_lt_iff_lt.mp hlt; omega
    have hval : (n : ℝ) * 2 ^ e = signum .negative * ((-n).toNat * 2 ^ e) := by
      rw [hcast hn, signum]
      push_cast
      ring
    rw [hval]
    exact computes_round h (by omega)
  · next heq =>
    obtain rfl := compare_eq_iff_eq.mp heq
    rw [Int.cast_zero, zero_mul]
    exact (rounded_zero (by rw [h]; exact unpack_packedZero)).computes
  · next hgt =>
    have hn : 0 < n := compare_gt_iff_gt.mp hgt
    have hval : (n : ℝ) * 2 ^ e = signum .positive * (n.toNat * 2 ^ e) := by
      rw [hcast hn, signum, one_mul]
    rw [hval]
    exact computes_round h (by omega)

end

-- ---------------------------------------------------------------------------
-- Products
-- ---------------------------------------------------------------------------

theorem digits_mul {m n : ℕ} {d e : ℤ} (hx : Canonical m d) (hy : Canonical n e) (hm : 0 < m)
    (hn : 0 < n) : 52 ≤ (m * n).log2 ∨ d + e ≤ -1074 := by
  have hlog {i : ℕ} (h : 2 ^ 52 ≤ i) (hi : 0 < i) : 52 ≤ i.log2 := (Nat.le_log2 hi.ne').mpr h
  have hxlow := hx.low
  have hylow := hy.low
  by_cases hbig : 2 ^ 52 ≤ m ∨ 2 ^ 52 ≤ n
  · left
    refine hlog ?_ (Nat.mul_pos hm hn)
    rcases hbig with h | h <;> nlinarith
  · right
    push Not at hbig
    have := hx.normal.resolve_left (by omega)
    have := hy.normal.resolve_left (by omega)
    omega

theorem computes_mul {x y : Float} (hx : x.isFinite = true) (hy : y.isFinite = true) :
    Computes (real x * real y) (x * y) := by
  have hdef : (x * y).toModel =
      .pack (.mul Format.binary64 x.toModel.unpack y.toModel.unpack) := rfl
  rcases finite_cases hx with ⟨s, hu, hrx⟩ | ⟨s, m, d, hm, hu, hc, hrx⟩
  · rw [hrx, zero_mul]
    rcases finite_cases hy with ⟨t, hv, -⟩ | ⟨t, n, e, hn, hv, -⟩ <;> rw [hu, hv] at hdef <;>
      exact (rounded_zero (by rw [hdef]; exact unpack_packedZero)).computes
  · rcases finite_cases hy with ⟨t, hv, hry⟩ | ⟨t, n, e, hn, hv, hd, hry⟩
    · rw [hry, mul_zero]
      rw [hu, hv] at hdef
      exact (rounded_zero (by rw [hdef]; exact unpack_packedZero)).computes
    · have hval : real x * real y = signum (s * t) * (((m * n : ℕ) : ℝ) * 2 ^ (d + e)) := by
        rw [hrx, hry, signum_mul, ← two_zpow_mul]
        push_cast
        ring
      rw [hu, hv] at hdef
      rw [hval]
      exact computes_roundWithAccuracy hdef (holds_ofMantissa _) (digits_mul hc hd hm hn)

theorem rounded_mul {x y : Float} (hx : x.isFinite = true) (hy : y.isFinite = true)
    (hb : |real x * real y| ≤ 2 ^ (1000 : ℤ)) : Rounded (real x * real y) (x * y) :=
  (computes_mul hx hy).rounded hb

-- ---------------------------------------------------------------------------
-- Sums and differences
-- ---------------------------------------------------------------------------

theorem shiftLeft_min (m : ℕ) {d t : ℤ} (h : t ≤ d) :
    ((m <<< (d - t).toNat : ℕ) : ℝ) * 2 ^ t = m * 2 ^ d := by
  have := shiftLeft_mul_zpow m (d - t).toNat d
  rwa [Int.toNat_of_nonneg (by omega), sub_sub_cancel] at this

theorem computes_add {x y : Float} (hx : x.isFinite = true) (hy : y.isFinite = true) :
    Computes (real x + real y) (x + y) := by
  have hdef : (x + y).toModel =
      .pack (.add Format.binary64 x.toModel.unpack y.toModel.unpack) := rfl
  rcases finite_cases hx with ⟨s, hu, hrx⟩ | ⟨s, m, d, hm, hu, -, hrx⟩
  · rcases finite_cases hy with ⟨t, hv, hry⟩ | ⟨t, n, e, hn, hv, -, hry⟩
    · rw [hrx, hry, add_zero]
      rw [hu, hv] at hdef
      cases s <;> cases t <;>
        exact (rounded_zero (by rw [hdef]; exact unpack_packedZero)).computes
    · rw [hrx, zero_add]
      exact (rounded_same hy (by rw [hdef, hu, hv]; rfl)).computes
  · rcases finite_cases hy with ⟨t, hv, hry⟩ | ⟨t, n, e, hn, hv, -, hry⟩
    · rw [hry, add_zero]
      exact (rounded_same hx (by rw [hdef, hu, hv]; rfl)).computes
    · have hval : real x + real y =
          ((s.apply (m <<< (d - min d e).toNat : ℕ) +
            t.apply (n <<< (e - min d e).toNat : ℕ) : ℤ) : ℝ) * 2 ^ min d e := by
        rw [Int.cast_add, apply_eq, apply_eq, add_mul, mul_assoc, mul_assoc,
          shiftLeft_min m (min_le_left d e), shiftLeft_min n (min_le_right d e), hrx, hry]
      rw [hu, hv] at hdef
      rw [hval]
      exact computes_normalize hdef

theorem rounded_add {x y : Float} (hx : x.isFinite = true) (hy : y.isFinite = true)
    (hb : |real x + real y| ≤ 2 ^ (1000 : ℤ)) : Rounded (real x + real y) (x + y) :=
  (computes_add hx hy).rounded hb

theorem not_finite_add {u v : UnpackedFloat} (h : u.isFinite = false ∨ v.isFinite = false) :
    (UnpackedFloat.add Format.binary64 u v).isFinite = false := by
  cases u <;> cases v
  case infinity.infinity =>
    rw [UnpackedFloat.add]
    split <;> rfl
  all_goals first | rfl | rcases h with h | h <;> cases h

theorem finite_of_add {x y : Float} (h : (x + y).isFinite = true) :
    x.isFinite = true ∧ y.isFinite = true := by
  by_contra hxy
  rw [not_and_or, Bool.not_eq_true, Bool.not_eq_true] at hxy
  have hsum : (x + y).isFinite = false := not_finite_pack (not_finite_add hxy)
  rw [hsum] at h
  cases h

theorem float_sub {x y : Float} (hx : x.isFinite = true) (hy : y.isFinite = true) :
    x - y = x + -y := by
  have hsub : (x - y).toModel =
      .pack (.sub Format.binary64 x.toModel.unpack y.toModel.unpack) := rfl
  have hadd : (x + -y).toModel =
      .pack (.add Format.binary64 x.toModel.unpack (-y).toModel.unpack) := rfl
  have happly (s : Sign) (n : ℤ) : (-s).apply n = -s.apply n := by
    cases s
    · exact (neg_neg n).symm
    · rfl
  have hmodel : (x - y).toModel = (x + -y).toModel := by
    rw [hsub, hadd, unpack_neg hy]
    rcases finite_cases hx with ⟨s, hu, -⟩ | ⟨s, m, d, hm, hu, -⟩ <;>
      rcases finite_cases hy with ⟨t, hv, -⟩ | ⟨t, n, e, hn, hv, -⟩ <;> rw [hu, hv]
    · rfl
    · rfl
    · rfl
    · simp only [UnpackedFloat.sub, UnpackedFloat.add, UnpackedFloat.neg, happly,
        Int.sub_eq_add_neg]
  exact congrArg Float.ofModel hmodel

theorem rounded_sub {x y : Float} (hx : x.isFinite = true) (hy : y.isFinite = true)
    (hb : |real x - real y| ≤ 2 ^ (1000 : ℤ)) : Rounded (real x - real y) (x - y) := by
  rw [sub_eq_add_neg, ← real_neg hy] at hb ⊢
  rw [float_sub hx hy]
  exact rounded_add hx (finite_neg hy) hb

-- ---------------------------------------------------------------------------
-- Quotients
-- ---------------------------------------------------------------------------

theorem holds_accuracyOfFraction {n d : ℕ} (hd : 0 < d) :
    Holds (.ofMantissaAndAccuracy (n / d) (accuracyOfFraction (n % d) d)) ((n : ℝ) / d) := by
  have hpos : (0 : ℝ) < d := by exact_mod_cast hd
  have hlt : n % d < d := Nat.mod_lt n hd
  have hval : (n : ℝ) / d = (n / d : ℕ) + ((n % d : ℕ) : ℝ) / d := by
    rw [add_div' _ _ _ hpos.ne', ← Nat.cast_mul, ← Nat.cast_add, Nat.div_add_mod']
  rw [hval]
  unfold accuracyOfFraction
  split
  · next h =>
    rw [h]
    simp [Holds, ExtendedMantissa.ofMantissaAndAccuracy]
  · next h =>
    have hrem : (0 : ℝ) < ((n % d : ℕ) : ℝ) := by exact_mod_cast Nat.pos_of_ne_zero h
    have hfrac : 0 < ((n % d : ℕ) : ℝ) / d := by positivity
    have hone : ((n % d : ℕ) : ℝ) / d < 1 := by
      rw [div_lt_one hpos]
      exact_mod_cast hlt
    rcases hcmp : compare (2 * (n % d)) d with _ | _ | _
    · have h2 : ((n % d : ℕ) : ℝ) / d < 1 / 2 := by
        rw [div_lt_div_iff₀ hpos two_pos]
        exact_mod_cast (by have := compare_lt_iff_lt.mp hcmp; omega : n % d * 2 < 1 * d)
      simp only [Holds, ExtendedMantissa.ofMantissaAndAccuracy]
      exact ⟨by linarith, by linarith⟩
    · have h2 : ((n % d : ℕ) : ℝ) / d = 1 / 2 := by
        rw [div_eq_div_iff hpos.ne' two_ne_zero]
        exact_mod_cast (by have := compare_eq_iff_eq.mp hcmp; omega : n % d * 2 = 1 * d)
      simp only [Holds, ExtendedMantissa.ofMantissaAndAccuracy]
      rw [h2]
    · have h2 : 1 / 2 < ((n % d : ℕ) : ℝ) / d := by
        rw [div_lt_div_iff₀ two_pos hpos]
        exact_mod_cast (by have := compare_gt_iff_gt.mp hcmp; omega : 1 * d < n % d * 2)
      simp only [Holds, ExtendedMantissa.ofMantissaAndAccuracy]
      exact ⟨by linarith, by linarith⟩

/-- The dividend is lengthened until the quotient has digits enough. -/
theorem divCore_eq (m n : ℕ) (d e : ℤ) :
    ∃ k : ℕ, divCore Format.binary64 m d n e =
        ((m <<< k) / n, d - e - k, accuracyOfFraction ((m <<< k) % n) n) ∧
      (n.log2 + 53 ≤ m.log2 + k ∨ d - e - k ≤ -1074) := by
  set t := min (d - e) (Format.binary64.targetExponent (totalExponent m d - totalExponent n e))
    with ht
  have hk : d - e - (d - e - t).toNat = t := by omega
  refine ⟨(d - e - t).toNat, ?_, ?_⟩
  · rw [hk, divCore, ← ht]
  · simp only [Format.targetExponent, totalExponent, Format.mantissaBits, Format.minExponent] at ht
    norm_num at ht
    omega

theorem two_pow_le_shiftLeft {m : ℕ} (hm : 0 < m) (k : ℕ) : 2 ^ (m.log2 + k) ≤ m <<< k := by
  rw [Nat.shiftLeft_eq, pow_add]
  exact Nat.mul_le_mul_right _ (Nat.log2_self_le hm.ne')

theorem two_pow_le_div {m n k : ℕ} (hm : 0 < m) (hn : 0 < n) (h : n.log2 + 53 ≤ m.log2 + k) :
    2 ^ 52 ≤ (m <<< k) / n := by
  rw [Nat.le_div_iff_mul_le hn]
  calc 2 ^ 52 * n ≤ 2 ^ 52 * 2 ^ (n.log2 + 1) := Nat.mul_le_mul_left _ Nat.lt_log2_self.le
    _ = 2 ^ (n.log2 + 53) := by rw [← pow_add]; congr 1; omega
    _ ≤ 2 ^ (m.log2 + k) := Nat.pow_le_pow_right two_pos h
    _ ≤ m <<< k := two_pow_le_shiftLeft hm k

theorem rounded_div {x y : Float} (hx : x.isFinite = true) (hy : y.isFinite = true)
    (hy0 : real y ≠ 0) (hb : |real x / real y| ≤ 2 ^ (1000 : ℤ)) :
    Rounded (real x / real y) (x / y) := by
  have hdef : (x / y).toModel =
      .pack (.div Format.binary64 x.toModel.unpack y.toModel.unpack) := rfl
  rcases finite_cases hy with ⟨t, hv, hry⟩ | ⟨t, n, e, hn, hv, -, hry⟩
  · exact absurd hry hy0
  rcases finite_cases hx with ⟨s, hu, hrx⟩ | ⟨s, m, d, hm, hu, -, hrx⟩
  · rw [hrx, zero_div]
    rw [hu, hv] at hdef
    exact rounded_zero (by rw [hdef]; exact unpack_packedZero)
  · obtain ⟨k, hcore, hdigits⟩ := divCore_eq m n d e
    have hval : real x / real y =
        signum (s / t) * (((m <<< k : ℕ) : ℝ) / n * 2 ^ (d - e - k)) := by
      have hshift := shiftLeft_mul_zpow m k d
      have hn' : (n : ℝ) ≠ 0 := by exact_mod_cast hn.ne'
      rw [hrx, hry, ← hshift, signum_div, sub_right_comm d e, zpow_sub₀ two_ne_zero (d - k)]
      cases t <;> simp only [signum] <;> field_simp
    rw [hu, hv] at hdef
    simp only [UnpackedFloat.div, hcore] at hdef
    rw [hval] at hb ⊢
    refine (computes_roundWithAccuracy hdef (holds_accuracyOfFraction hn) ?_).rounded hb
    refine hdigits.imp_left fun h => ?_
    have hq := two_pow_le_div hm hn h
    exact (Nat.le_log2 (by omega)).mpr hq

-- ---------------------------------------------------------------------------
-- Square roots
-- ---------------------------------------------------------------------------

/-- The radicand is lengthened until the root has digits enough. -/
theorem sqrtCore_eq (m : ℕ) (e : ℤ) :
    ∃ k : ℕ, ∃ t : ℤ, sqrtCore Format.binary64 m e =
        (Nat.sqrt (m <<< k), t,
          if m <<< k - Nat.sqrt (m <<< k) * Nat.sqrt (m <<< k) = 0 then .exact
          else .inexact (if m <<< k - Nat.sqrt (m <<< k) * Nat.sqrt (m <<< k) ≤ Nat.sqrt (m <<< k)
            then .lt else .gt)) ∧
      e - k = 2 * t ∧ (104 ≤ m.log2 + k ∨ t ≤ -1074) := by
  set t := min (e.ediv 2) (Format.binary64.targetExponent ((totalExponent m e + 1).ediv 2)) with ht
  have hdiv (i : ℤ) : i.ediv 2 = i / 2 := rfl
  refine ⟨(e - 2 * t).toNat, t, rfl, ?_, ?_⟩
  · rw [hdiv] at ht
    omega
  · simp only [hdiv, Format.targetExponent, totalExponent, Format.mantissaBits,
      Format.minExponent] at ht
    norm_num at ht
    omega

theorem holds_sqrt (n : ℕ) :
    Holds (.ofMantissaAndAccuracy n.sqrt (if n - n.sqrt * n.sqrt = 0 then .exact
      else .inexact (if n - n.sqrt * n.sqrt ≤ n.sqrt then .lt else .gt))) (√n) := by
  have hle := Nat.sqrt_le n
  have hlt := Nat.lt_succ_sqrt n
  generalize n.sqrt = r at hle hlt ⊢
  have hup : √(n : ℝ) < r + 1 := by
    rw [Real.sqrt_lt' (by positivity)]
    exact_mod_cast (by nlinarith : n < (r + 1) ^ 2)
  split
  · next h =>
    obtain rfl : n = r * r := by omega
    push_cast
    exact Real.sqrt_mul_self (by positivity)
  · next h =>
    have hlow : (r : ℝ) < √n := by
      rw [Real.lt_sqrt (by positivity)]
      exact_mod_cast (by rw [pow_two]; omega : r ^ 2 < n)
    split
    · next h2 =>
      refine ⟨hlow, ?_⟩
      rw [Real.sqrt_lt' (by positivity)]
      have : (n : ℝ) ≤ r * r + r := by exact_mod_cast (by omega : n ≤ r * r + r)
      simp only [ExtendedMantissa.ofMantissaAndAccuracy]
      nlinarith
    · next h2 =>
      refine ⟨?_, hup⟩
      rw [Real.lt_sqrt (by positivity)]
      have : (r : ℝ) * r + r + 1 ≤ n := by exact_mod_cast (by omega : r * r + r + 1 ≤ n)
      simp only [ExtendedMantissa.ofMantissaAndAccuracy]
      nlinarith

theorem sqrt_le_bound {m : ℕ} {e : ℤ} (h : Canonical m e) :
    √(m * (2 : ℝ) ^ e) ≤ 2 ^ (1000 : ℤ) := by
  have hm : (m : ℝ) ≤ 2 ^ (53 : ℤ) := by exact_mod_cast h.lt.le
  have he : (2 : ℝ) ^ e ≤ 2 ^ (971 : ℤ) := zpow_le_zpow_right₀ one_le_two h.high
  rw [Real.sqrt_le_left (by positivity)]
  calc (m : ℝ) * 2 ^ e ≤ 2 ^ (53 : ℤ) * 2 ^ (971 : ℤ) := by gcongr
    _ = 2 ^ (1024 : ℤ) := two_zpow_mul 53 971
    _ ≤ 2 ^ (2000 : ℤ) := zpow_le_zpow_right₀ one_le_two (by norm_num)
    _ = (2 ^ (1000 : ℤ)) ^ 2 := by rw [pow_two, two_zpow_mul]; norm_num

theorem rounded_sqrt {x : Float} (hx : x.isFinite = true) (hx0 : 0 ≤ real x) :
    Rounded √(real x) x.sqrt := by
  have hdef : x.sqrt.toModel = .pack (.sqrt Format.binary64 x.toModel.unpack) := rfl
  rcases finite_cases hx with ⟨s, hu, hrx⟩ | ⟨s, m, e, hm, hu, hc, hrx⟩ <;> rw [hu] at hdef
  · rw [hrx, Real.sqrt_zero]
    exact rounded_zero (by rw [hdef]; exact unpack_packedZero)
  · have hpos : (0 : ℝ) < m * 2 ^ e := by positivity
    cases s with
    | negative =>
      rw [hrx, signum] at hx0
      linarith
    | positive =>
      obtain ⟨k, t, hcore, hexp, hdigits⟩ := sqrtCore_eq m e
      have hb := sqrt_le_bound hc
      have hval : √(m * (2 : ℝ) ^ e) = √((m <<< k : ℕ) : ℝ) * 2 ^ t := by
        rw [← shiftLeft_mul_zpow m k e, hexp, Real.sqrt_mul (by positivity), two_mul,
          zpow_add₀ two_ne_zero,
          Real.sqrt_mul_self (by positivity)]
      simp only [UnpackedFloat.sqrt, hcore] at hdef
      have hreal : √(real x) = signum .positive * (√((m <<< k : ℕ) : ℝ) * 2 ^ t) := by
        rw [hrx, ← hval, signum, one_mul, one_mul]
      have hrange : |√(real x)| ≤ 2 ^ (1000 : ℤ) := by
        rwa [abs_of_nonneg (Real.sqrt_nonneg _), hrx, signum, one_mul]
      rw [hreal] at hrange ⊢
      refine (computes_roundWithAccuracy hdef (holds_sqrt _)
        (hdigits.imp_left fun h => ?_)).rounded hrange
      have hroot : 2 ^ 52 ≤ Nat.sqrt (m <<< k) := by
        rw [Nat.le_sqrt]
        calc 2 ^ 52 * 2 ^ 52 = 2 ^ 104 := by norm_num
          _ ≤ 2 ^ (m.log2 + k) := Nat.pow_le_pow_right two_pos h
          _ ≤ m <<< k := two_pow_le_shiftLeft hm k
      exact (Nat.le_log2 (by omega)).mpr hroot

theorem not_finite_sqrt {u : UnpackedFloat} (h : u.isFinite = false) :
    (UnpackedFloat.sqrt Format.binary64 u).isFinite = false := by
  cases u with
  | infinity s => cases s <;> rfl
  | notANumber => rfl
  | zero => cases h
  | finite => cases h

theorem finite_of_sqrt {x : Float} (h : x.sqrt.isFinite = true) : x.isFinite = true := by
  by_contra hx
  rw [Bool.not_eq_true] at hx
  have hroot : x.sqrt.isFinite = false := not_finite_pack (not_finite_sqrt hx)
  rw [hroot] at h
  cases h

-- ---------------------------------------------------------------------------
-- Comparisons
-- ---------------------------------------------------------------------------

theorem Canonical.lt_of_exponent_lt {m n : ℕ} {d e : ℤ} (hc : Canonical m d) (hd : Canonical n e)
    (h : d < e) : (m : ℝ) * 2 ^ d < n * 2 ^ e := by
  have hm : (m : ℝ) < 2 ^ 53 := by exact_mod_cast hc.lt
  have hn : (2 : ℝ) ^ 52 ≤ n := by
    exact_mod_cast hd.normal.resolve_right (by have := hc.low; omega)
  have he : (2 : ℝ) ^ (d + 1) ≤ 2 ^ e := zpow_le_zpow_right₀ one_le_two (by omega)
  calc (m : ℝ) * 2 ^ d < 2 ^ 53 * 2 ^ d := by gcongr
    _ = 2 ^ 52 * 2 ^ (d + 1) := by rw [zpow_add_one₀ two_ne_zero]; ring
    _ ≤ n * 2 ^ e := by gcongr

theorem compare_canonical {m n : ℕ} {d e : ℤ} (hc : Canonical m d) (hd : Canonical n e) :
    (compare d e).then (compare m n) = compare ((m : ℝ) * 2 ^ d) (n * 2 ^ e) := by
  rcases lt_trichotomy d e with h | rfl | h
  · rw [compare_lt_iff_lt.mpr h, compare_lt_iff_lt.mpr (hc.lt_of_exponent_lt hd h)]
    rfl
  · have hpos : (0 : ℝ) < 2 ^ d := by positivity
    rw [compare_eq_iff_eq.mpr rfl]
    rcases lt_trichotomy m n with h | rfl | h
    · have : (m : ℝ) * 2 ^ d < n * 2 ^ d := by gcongr
      rw [compare_lt_iff_lt.mpr h, compare_lt_iff_lt.mpr this]
      rfl
    · rw [compare_eq_iff_eq.mpr rfl, compare_eq_iff_eq.mpr rfl]
      rfl
    · have : (n : ℝ) * 2 ^ d < m * 2 ^ d := by gcongr
      rw [compare_gt_iff_gt.mpr h, compare_gt_iff_gt.mpr this]
      rfl
  · rw [compare_gt_iff_gt.mpr h, compare_gt_iff_gt.mpr (hd.lt_of_exponent_lt hc h)]
    rfl

theorem compare_neg_real (a b : ℝ) : compare (-a) (-b) = (compare a b).swap := by
  rcases lt_trichotomy a b with h | rfl | h
  · rw [compare_lt_iff_lt.mpr h, compare_gt_iff_gt.mpr (neg_lt_neg h)]
    rfl
  · rw [compare_eq_iff_eq.mpr rfl, compare_eq_iff_eq.mpr rfl]
    rfl
  · rw [compare_gt_iff_gt.mpr h, compare_lt_iff_lt.mpr (neg_lt_neg h)]
    rfl

/-- Doubles compare as their exact values do, whatever the signs of zeros. -/
theorem compare_unpack {x y : Float} (hx : x.isFinite = true) (hy : y.isFinite = true) :
    x.toModel.unpack.compare y.toModel.unpack = some (compare (real x) (real y)) := by
  have hlt {a b : ℝ} (h : a < b) : some Ordering.lt = some (compare a b) :=
    congrArg some (compare_lt_iff_lt.mpr h).symm
  have hgt {a b : ℝ} (h : b < a) : some Ordering.gt = some (compare a b) :=
    congrArg some (compare_gt_iff_gt.mpr h).symm
  rcases finite_cases hx with ⟨s, hu, hrx⟩ | ⟨s, m, d, hm, hu, hc, hrx⟩
  · rcases finite_cases hy with ⟨t, hv, hry⟩ | ⟨t, n, e, hn, hv, -, hry⟩ <;> rw [hu, hv, hrx, hry]
    · rw [compare_eq_iff_eq.mpr rfl]
      rfl
    · have hpos : (0 : ℝ) < n * 2 ^ e := by positivity
      cases t with
      | negative => exact hgt (by rw [signum]; linarith)
      | positive => exact hlt (by rw [signum]; linarith)
  · have hxpos : (0 : ℝ) < m * 2 ^ d := by positivity
    rcases finite_cases hy with ⟨t, hv, hry⟩ | ⟨t, n, e, hn, hv, hd, hry⟩ <;> rw [hu, hv, hrx, hry]
    · cases s with
      | negative => exact hlt (by rw [signum]; linarith)
      | positive => exact hgt (by rw [signum]; linarith)
    · have hypos : (0 : ℝ) < n * 2 ^ e := by positivity
      cases s <;> cases t <;> simp only [signum]
      · rw [neg_one_mul, neg_one_mul, compare_neg_real, ← compare_canonical hc hd]
        rfl
      · exact hlt (by linarith)
      · exact hgt (by linarith)
      · rw [one_mul, one_mul, ← compare_canonical hc hd]
        rfl

section
variable {x y : Float}

theorem le_iff (hx : x.isFinite = true) (hy : y.isFinite = true) : x ≤ y ↔ real x ≤ real y := by
  have hdef : x ≤ y ↔ x.toModel.unpack.le y.toModel.unpack = true := decide_eq_true_iff
  rw [hdef, UnpackedFloat.le, compare_unpack hx hy]
  exact Std.LawfulBCmp.isLE_iff_le

theorem lt_iff (hx : x.isFinite = true) (hy : y.isFinite = true) : x < y ↔ real x < real y := by
  have hdef : x < y ↔ x.toModel.unpack.lt y.toModel.unpack = true := decide_eq_true_iff
  rw [hdef, UnpackedFloat.lt, compare_unpack hx hy]
  simp [compare_lt_iff_lt]

theorem beq_iff (hx : x.isFinite = true) (hy : y.isFinite = true) :
    (x == y) = true ↔ real x = real y := by
  change (x.toModel.unpack.compare y.toModel.unpack == some .eq) = true ↔ _
  rw [compare_unpack hx hy]
  simp

end

end SimSetup.Double
