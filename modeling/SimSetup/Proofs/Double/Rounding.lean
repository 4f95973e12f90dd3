import Mathlib

/-!
# Rounding to doubles

The logical model of doubles cuts a significand off after 53 bits and keeps two bits about the
rest. `Holds` reads these bits as bounds on the exact significand, `Rounds` says what a correctly
rounded result is, and `rounds_roundWithAccuracy` proves that the model's rounding gives one unless
it overflows.
-/

namespace SimSetup.Double

open Float.Model Float.Model.UnpackedFloat

-- ---------------------------------------------------------------------------
-- Residual bits
-- ---------------------------------------------------------------------------

/-- What a cut-off mantissa and its residual bits say of the exact significand. -/
def Holds (em : ExtendedMantissa) (x : ℝ) : Prop :=
  match em.roundBit, em.stickyBit with
  | false, false => x = em.mantissa
  | false, true => em.mantissa < x ∧ x < em.mantissa + 1 / 2
  | true, false => x = em.mantissa + 1 / 2
  | true, true => em.mantissa + 1 / 2 < x ∧ x < em.mantissa + 1

theorem Holds.bounds {em : ExtendedMantissa} (h : Holds em x) :
    (em.mantissa : ℝ) ≤ x ∧ x < em.mantissa + 1 := by
  obtain ⟨m, r, s⟩ := em
  cases r <;> cases s <;> simp only [Holds] at h ⊢ <;> constructor <;> linarith

theorem Holds.shiftRightOne {em : ExtendedMantissa} (h : Holds em x) :
    Holds em.shiftRightOne (x / 2) := by
  obtain ⟨m, r, s⟩ := em
  have hm : (m : ℝ) = ((m % 2 : ℕ) : ℝ) + 2 * ((m / 2 : ℕ) : ℝ) := by
    exact_mod_cast (Nat.mod_add_div m 2).symm
  -- The dropped bit becomes the round bit, and the two old bits join in the sticky one.
  rcases Nat.mod_two_eq_zero_or_one m with hb | hb <;> rw [hb] at hm <;> push_cast at hm <;>
    cases r <;> cases s <;>
    simp only [Holds, ExtendedMantissa.shiftRightOne, hb, bne_self_eq_false, Nat.reduceBNe,
      Bool.or_self, Bool.or_true, Bool.true_or] at h ⊢ <;>
    first | linarith | (constructor <;> linarith)

theorem Holds.shiftRight {em : ExtendedMantissa} (h : Holds em x) (n : ℕ) :
    Holds (em >>> n) (x / 2 ^ n) := by
  change Holds (n.repeat ExtendedMantissa.shiftRightOne em) _
  induction n with
  | zero => simpa [Nat.repeat] using h
  | succ n ih =>
    rw [Nat.repeat, pow_succ, ← div_div]
    exact ih.shiftRightOne

theorem mantissa_ofMantissaAndAccuracy (m : ℕ) (acc : Accuracy) :
    (ExtendedMantissa.ofMantissaAndAccuracy m acc).mantissa = m := by
  cases acc with
  | exact => rfl
  | inexact o => cases o <;> rfl

theorem holds_ofMantissa (m : ℕ) : Holds (.ofMantissaAndAccuracy m .exact) m := rfl

theorem Holds.roundedMantissa_near {em : ExtendedMantissa} (h : Holds em x) :
    |(em.roundedMantissa : ℝ) - x| ≤ 1 / 2 := by
  obtain ⟨m, r, s⟩ := em
  rw [abs_le]
  cases r <;> cases s <;>
    simp only [Holds, ExtendedMantissa.roundedMantissa, ExtendedMantissa.accuracy,
      Accuracy.roundToNearestEven] at h ⊢
  · constructor <;> linarith
  · constructor <;> linarith
  · rcases Nat.mod_two_eq_zero_or_one m with hb | hb <;> rw [hb] <;> push_cast <;>
      constructor <;> linarith
  · push_cast
    constructor <;> linarith

theorem Holds.roundedMantissa_eq {em : ExtendedMantissa} {n : ℕ} (h : Holds em n) :
    em.roundedMantissa = n := by
  have hn := abs_le.mp h.roundedMantissa_near
  have h1 : em.roundedMantissa < n + 1 := by
    exact_mod_cast (by linarith : (em.roundedMantissa : ℝ) < n + 1)
  have h2 : n < em.roundedMantissa + 1 := by
    exact_mod_cast (by linarith : (n : ℝ) < em.roundedMantissa + 1)
  omega

theorem Holds.roundedMantissa_bounds {em : ExtendedMantissa} (h : Holds em x) :
    em.mantissa ≤ em.roundedMantissa ∧ em.roundedMantissa ≤ em.mantissa + 1 := by
  have hx := h.bounds
  have hn := abs_le.mp h.roundedMantissa_near
  constructor
  · have h : (em.mantissa : ℝ) < (em.roundedMantissa + 1 : ℕ) := by
      push_cast
      linarith
    exact Nat.le_of_lt_succ (by exact_mod_cast h)
  · have h : (em.roundedMantissa : ℝ) < (em.mantissa + 1 + 1 : ℕ) := by
      push_cast
      linarith
    exact Nat.le_of_lt_succ (by exact_mod_cast h)

-- ---------------------------------------------------------------------------
-- Correctly rounded results
-- ---------------------------------------------------------------------------

/-- A number that 53 bits hold above the end of the exponent range; how large it is does not
matter. -/
def Representable (a : ℝ) : Prop :=
  ∃ n e : ℤ, |n| < 2 ^ 53 ∧ -1074 ≤ e ∧ a = n * 2 ^ e

theorem Representable.neg (h : Representable a) : Representable (-a) := by
  obtain ⟨n, e, hn, he, rfl⟩ := h
  exact ⟨-n, e, by rwa [abs_neg], he, by push_cast; ring⟩

/-- `b` is the exact result `a` after rounding: off by half a unit in the last place of a normal
number or of a subnormal one, and equal to `a` where doubles have it. -/
structure Rounds (a b : ℝ) : Prop where
  error : |b - a| ≤ max (2 ^ (-53 : ℤ) * |a|) (2 ^ (-1075 : ℤ))
  exact : Representable a → b = a

noncomputable def roundoff : ℝ := 2 ^ (-53 : ℤ)

noncomputable def least : ℝ := 2 ^ (-1074 : ℤ)

theorem Rounds.neg (h : Rounds a b) : Rounds (-a) (-b) := by
  refine ⟨?_, fun ha => ?_⟩
  · rw [abs_neg, neg_sub_neg, abs_sub_comm]
    exact h.error
  · rw [h.exact (by simpa using ha.neg)]

theorem Rounds.refl (a : ℝ) : Rounds a a :=
  ⟨by simp only [sub_self, abs_zero]; positivity, fun _ => rfl⟩

-- ---------------------------------------------------------------------------
-- Packing
-- ---------------------------------------------------------------------------

structure Canonical (m : ℕ) (e : ℤ) : Prop where
  lt : m < 2 ^ 53
  low : -1074 ≤ e
  high : e ≤ 971
  normal : 2 ^ 52 ≤ m ∨ e = -1074

theorem toNat_one_append (f : BitVec 52) : (1#1 ++ f).toNat = 2 ^ 52 + f.toNat := by
  rw [BitVec.toNat_append, ← Nat.shiftLeft_add_eq_or_of_lt f.isLt]
  rfl

theorem unpack_packComponents (s : Sign) (b : BitVec 11) (f : BitVec 52) (hb : b ≠ -1#11) :
    UnpackedFloat.unpack Format.binary64 (packComponents Format.binary64 s b f) =
      if b = 0#11 then
        if h : f = 0#52 then .zero s
        else .finite s f.toNat (-1074) (by simpa [BitVec.toNat_pos, BitVec.pos_iff_ne_zero])
      else .finite s (1#1 ++ f).toNat (b.toNat - 1075) (by rw [toNat_one_append]; omega) := by
  simp only [UnpackedFloat.unpack, unpackMantissa_packComponents, unpackExponent_packComponents,
    unpackSign_packComponents, Sign.ofBitVec_toBitVec, if_neg hb]
  by_cases h : b = 0#11
  · subst h
    rfl
  · rw [if_neg h, if_neg h]
    rfl

theorem unpack_pack {s : Sign} (hm : 0 < m) (h : Canonical m e) :
    (Float.Model.pack (.finite s m e hm)).unpack = .finite s m e hm := by
  have hlow := h.low
  have hhigh := h.high
  have hfit : ¬ 2 ^ Format.binary64.exponentBits ≤
      (e + Format.binary64.exponentBias +
        Format.binary64.mantissaBitsWithoutImplicit).toNat + 1 := by
    simp only [Format.exponentBias]
    omega
  simp only [Float.Model.unpack, Float.Model.pack, UnpackedFloat.pack, if_neg hfit]
  by_cases hn : 2 ^ 52 ≤ m
  · have hlog : m.log2 + 1 = Format.binary64.mantissaBits := by
      rw [(Nat.log2_eq_iff (by omega)).mpr ⟨hn, h.lt⟩]
      rfl
    have hexp : (BitVec.ofNat 11 (e + 1075).toNat).toNat = (e + 1075).toNat := by
      rw [BitVec.toNat_ofNat]
      omega
    have hmant : (1#1 ++ BitVec.ofNat 52 m).toNat = m := by
      have hlt := h.lt
      rw [toNat_one_append, BitVec.toNat_ofNat]
      omega
    have hbias : (e + Format.binary64.exponentBias +
        Format.binary64.mantissaBitsWithoutImplicit).toNat = (e + 1075).toNat := by
      simp only [Format.exponentBias]
      omega
    rw [if_pos hlog, hbias, unpack_packComponents, if_neg]
    · simp only [hexp, hmant]
      congr 1
      omega
    · intro hz
      rw [← BitVec.toNat_inj, hexp] at hz
      simp at hz
      omega
    · intro hz
      rw [← BitVec.toNat_inj, hexp] at hz
      simp at hz
      omega
  · have hlog : ¬ m.log2 + 1 = Format.binary64.mantissaBits := by
      have := (Nat.log2_lt (by omega : m ≠ 0)).mpr (by omega : m < 2 ^ 52)
      simp only [Format.mantissaBits]
      omega
    have hmant : (BitVec.ofNat 52 m).toNat = m := by
      rw [BitVec.toNat_ofNat]
      omega
    have hz : BitVec.ofNat 52 m ≠ 0#52 := by
      intro hz
      rw [← BitVec.toNat_inj, hmant] at hz
      simp at hz
      omega
    rw [if_neg hlog, unpack_packComponents _ _ _ (by decide), if_pos rfl, dif_neg hz]
    simp only [hmant]
    congr 1
    exact (h.normal.resolve_left hn).symm

theorem not_finite_pack {u : UnpackedFloat} (h : u.isFinite = false) :
    (Float.Model.pack u).unpack.isFinite = false := by
  cases u with
  | infinity s =>
    simp only [Float.Model.unpack, Float.Model.pack, UnpackedFloat.pack, packedInfinity,
      UnpackedFloat.unpack, unpackMantissa_packComponents, unpackExponent_packComponents, if_pos]
    rfl
  | notANumber => exact congrArg UnpackedFloat.isFinite unpack_packedNaN
  | zero => cases h
  | finite => cases h

theorem not_finite_pack_of_lt {s : Sign} (hm : 0 < m) (h : 971 < e) :
    (Float.Model.pack (.finite s m e hm)).unpack.isFinite = false := by
  have hover : 2 ^ Format.binary64.exponentBits ≤
      (e + Format.binary64.exponentBias +
        Format.binary64.mantissaBitsWithoutImplicit).toNat + 1 := by
    simp only [Format.exponentBias]
    omega
  have hpack : Float.Model.pack (.finite s m e hm) = Float.Model.pack (.infinity s) := by
    simp only [Float.Model.pack, UnpackedFloat.pack, if_pos hover]
  rw [hpack, not_finite_pack rfl]

theorem canonical_unpack {v : Float.Model} (h : v.unpack = .finite s m e hm) : Canonical m e := by
  unfold Float.Model.unpack at h
  rw [← @packComponents_unpackSign_unpackExponent_unpackMantissa Format.binary64
    v.toBits.toBitVec] at h
  generalize @unpackExponent Format.binary64 v.toBits.toBitVec = b at h
  generalize @unpackMantissa Format.binary64 v.toBits.toBitVec = f at h
  by_cases hb : b = -1#11
  · subst hb
    simp only [UnpackedFloat.unpack, unpackExponent_packComponents, ↓reduceIte] at h
    split at h <;> cases h
  · rw [unpack_packComponents _ _ _ hb] at h
    split at h
    · split at h
      · cases h
      · cases h
        exact ⟨by have := f.isLt; omega, by omega, by omega, .inr rfl⟩
    · next hz =>
      cases h
      have hb : b.toNat ≠ 2047 := fun h => hb (BitVec.eq_of_toNat_eq h)
      have hz : b.toNat ≠ 0 := fun h => hz (BitVec.eq_of_toNat_eq h)
      have hlt : b.toNat < 2 ^ 11 := b.isLt
      have hf : f.toNat < 2 ^ 52 := f.isLt
      rw [toNat_one_append]
      exact ⟨by omega, by omega, by omega, .inl (by omega)⟩

-- ---------------------------------------------------------------------------
-- The rounding of the model
-- ---------------------------------------------------------------------------

def signum : Sign → ℝ
  | .negative => -1
  | .positive => 1

noncomputable def unpackedReal : UnpackedFloat → ℝ
  | .finite s m e _ => signum s * (m * 2 ^ e)
  | _ => 0

theorem targetExponent_eq (m : ℕ) (e : ℤ) :
    Format.binary64.targetExponent (totalExponent m e) = max (m.log2 + e - 52) (-1074) := by
  simp only [Format.targetExponent, totalExponent, Format.mantissaBits, Format.minExponent]
  norm_num
  omega

/-- Rounding up may carry into one more digit; the second shift takes it back without loss. -/
theorem shiftToTargetExponent_carry (hr : r ≤ 2 ^ 53) (he : -1074 ≤ e) :
    shiftToTargetExponent Format.binary64 r e .exact =
      if r < 2 ^ 53 then (.ofMantissaAndAccuracy r .exact, e)
      else (.ofMantissaAndAccuracy (2 ^ 52) .exact, e + 1) := by
  simp only [shiftToTargetExponent, targetExponent_eq, shiftToExponent]
  split
  · next h =>
    have hlog : r.log2 ≤ 52 := by
      by_cases hz : r = 0
      · simp [hz]
      · have := (Nat.log2_lt hz).mpr h
        omega
    have hk : (max (r.log2 + e - 52) (-1074) - e).toNat = 0 := by omega
    rw [hk]
    exact Prod.ext rfl (by simp)
  · next h =>
    obtain rfl : r = 2 ^ 53 := by omega
    have hk : (max (((2 ^ 53).log2 : ℕ) + e - 52) (-1074) - e).toNat = 1 := by
      rw [Nat.log2_two_pow]
      omega
    rw [hk]
    rfl

theorem roundWithAccuracy_eq {em : ExtendedMantissa} (s : Sign) (m : ℕ) (e : ℤ) (acc : Accuracy)
    (hr : r ≤ 2 ^ 53)
    (he : -1074 ≤ t) (h : shiftToTargetExponent Format.binary64 m e acc = (em, t))
    (hem : em.roundedMantissa = r) :
    roundWithAccuracy Format.binary64 s m e acc =
      if hz : r = 0 then .zero s
      else if r < 2 ^ 53 then .finite s r t (Nat.pos_of_ne_zero hz)
      else .finite s (2 ^ 52) (t + 1) (by decide) := by
  simp only [roundWithAccuracy, h, hem, shiftToTargetExponent_carry hr he]
  by_cases hz : r = 0
  · subst hz
    rfl
  · by_cases hlt : r < 2 ^ 53
    · simp only [hlt, hz, ↓reduceIte, ↓reduceDIte, ExtendedMantissa.ofMantissaAndAccuracy]
    · simp only [hlt, hz, ↓reduceIte, ↓reduceDIte, ExtendedMantissa.ofMantissaAndAccuracy]
      rfl

theorem targetExponent_shift (hc : 52 ≤ m.log2 ∨ e ≤ -1074) :
    e + ((Format.binary64.targetExponent (totalExponent m e) - e).toNat : ℤ) =
      max (m.log2 + e - 52) (-1074) := by
  rw [targetExponent_eq]
  omega

theorem two_zpow_mul (a b : ℤ) : (2 : ℝ) ^ a * 2 ^ b = 2 ^ (a + b) :=
  (zpow_add₀ two_ne_zero a b).symm

theorem zpow_lt_of_mul_le {m : ℕ} {e n : ℤ} (hm : m ≠ 0) (h : m * (2 : ℝ) ^ e ≤ 2 ^ n) :
    m.log2 + e ≤ n := by
  have hlog : (2 : ℝ) ^ m.log2 ≤ m := by exact_mod_cast Nat.log2_self_le hm
  have h2 : (2 : ℝ) ^ (m.log2 + e : ℤ) ≤ 2 ^ n := by
    rw [← two_zpow_mul, zpow_natCast]
    exact (mul_le_mul_of_nonneg_right hlog (by positivity)).trans h
  exact (zpow_le_zpow_iff_right₀ one_lt_two).mp h2

section
variable {m : ℕ} {e : ℤ} {acc : Accuracy} {x : ℝ}

theorem half_ulp_le (hx : (m : ℝ) ≤ x) (hc : 52 ≤ m.log2 ∨ e ≤ -1074) :
    (2 : ℝ) ^ (max (m.log2 + e - 52) (-1074) - 1) ≤
      max (2 ^ (-53 : ℤ) * |x * 2 ^ e|) (2 ^ (-1075 : ℤ)) := by
  rcases max_cases ((m.log2 : ℤ) + e - 52) (-1074) with ⟨ht, hle⟩ | ⟨ht, -⟩ <;> rw [ht]
  · by_cases hm : m = 0
    · subst hm
      refine le_max_of_le_right ((zpow_le_zpow_iff_right₀ one_lt_two).mpr ?_)
      rw [Nat.log2_zero] at hc hle ⊢
      omega
    · apply le_max_of_le_left
      have hlog : (2 : ℝ) ^ m.log2 ≤ m := by exact_mod_cast Nat.log2_self_le hm
      have hx0 : 0 ≤ x := (Nat.cast_nonneg m).trans hx
      rw [abs_of_nonneg (by positivity)]
      calc (2 : ℝ) ^ ((m.log2 : ℤ) + e - 52 - 1)
          = 2 ^ (-53 : ℤ) * (2 ^ m.log2 * 2 ^ e) := by
            rw [← zpow_natCast, two_zpow_mul, two_zpow_mul]
            congr 1
            omega
        _ ≤ 2 ^ (-53 : ℤ) * (x * 2 ^ e) := by
            have := hlog.trans hx
            gcongr
  · exact le_max_of_le_right le_rfl

theorem Representable.whole (h : Representable (x * 2 ^ e)) (hx : (m : ℝ) ≤ x)
    (hc : 52 ≤ m.log2 ∨ e ≤ -1074) :
    ∃ n : ℕ, x * 2 ^ e = n * 2 ^ max ((m.log2 : ℤ) + e - 52) (-1074) := by
  obtain ⟨n, i, hn, hi, h⟩ := h
  set t := max ((m.log2 : ℤ) + e - 52) (-1074) with ht
  have hx0 : 0 ≤ x := (Nat.cast_nonneg m).trans hx
  have hn0 : 0 ≤ n := by
    have h0 : (0 : ℝ) ≤ n * 2 ^ i := h ▸ by positivity
    exact_mod_cast nonneg_of_mul_nonneg_left h0 (by positivity)
  -- An exponent below `t` would need more than 53 digits.
  have hti : t ≤ i := by
    by_contra hlt
    have hm : m ≠ 0 := by
      rintro rfl
      rw [Nat.log2_zero] at ht hc
      omega
    have hlog : (2 : ℝ) ^ m.log2 ≤ m := by exact_mod_cast Nat.log2_self_le hm
    have hbig : (2 : ℝ) ^ (m.log2 + e) ≤ n * 2 ^ i := by
      rw [← h, ← two_zpow_mul, zpow_natCast]
      exact mul_le_mul_of_nonneg_right (hlog.trans hx) (by positivity)
    have hsmall : (n : ℝ) * 2 ^ i < 2 ^ (53 + i) := by
      rw [← two_zpow_mul]
      have hn' : (n : ℝ) < 2 ^ (53 : ℤ) := by exact_mod_cast (abs_lt.mp hn).2
      exact mul_lt_mul_of_pos_right hn' (by positivity)
    have := (zpow_lt_zpow_iff_right₀ (one_lt_two (α := ℝ))).mp (hbig.trans_lt hsmall)
    omega
  refine ⟨(n * 2 ^ (i - t).toNat).toNat, ?_⟩
  have hcast : (((n * 2 ^ (i - t).toNat).toNat : ℕ) : ℝ) = n * 2 ^ (i - t).toNat := by
    exact_mod_cast congrArg (Int.cast (R := ℝ))
      (Int.toNat_of_nonneg (by positivity : 0 ≤ n * 2 ^ (i - t).toNat))
  rw [h, hcast, ← zpow_natCast, mul_assoc, two_zpow_mul]
  congr 2
  omega

/-- Unless it overflows, packing loses nothing of a rounded significand, whether or not rounding it
has carried. -/
theorem pack_rounded {r : ℕ} {t : ℤ} {s : Sign} (hr : r ≤ 2 ^ 53) (ht : -1074 ≤ t)
    (hn : 2 ^ 52 ≤ r ∨ t = -1074) :
    ∃ v : Float.Model, v = .pack (if hz : r = 0 then .zero s
        else if r < 2 ^ 53 then .finite s r t (Nat.pos_of_ne_zero hz)
        else .finite s (2 ^ 52) (t + 1) (by decide)) ∧
      (t < 971 → v.unpack.isFinite = true) ∧
      (v.unpack.isFinite = true → unpackedReal v.unpack = signum s * (r * 2 ^ t)) := by
  refine ⟨_, rfl, ?_⟩
  split
  · next hz =>
    subst hz
    have h : (Float.Model.pack (.zero s)).unpack = .zero s := unpack_packedZero
    rw [h]
    exact ⟨fun _ => rfl, fun _ => by simp [unpackedReal]⟩
  · split
    · next hlt =>
      rcases le_or_gt t 971 with ht' | ht'
      · rw [unpack_pack _ ⟨hlt, ht, ht', hn⟩]
        exact ⟨fun _ => rfl, fun _ => rfl⟩
      · rw [not_finite_pack_of_lt _ ht']
        exact ⟨fun h => by omega, fun h => nomatch h⟩
    · obtain rfl : r = 2 ^ 53 := by omega
      rcases le_or_gt (t + 1) 971 with ht' | ht'
      · rw [unpack_pack (by decide) ⟨by norm_num, by omega, ht', .inl le_rfl⟩]
        refine ⟨fun _ => rfl, fun _ => ?_⟩
        simp only [unpackedReal]
        push_cast
        rw [← two_zpow_mul]
        ring
      · rw [not_finite_pack_of_lt _ ht']
        exact ⟨fun h => by omega, fun h => nomatch h⟩

theorem rounded_bounds {k : ℕ} (hx : Holds (.ofMantissaAndAccuracy m acc) x)
    (hc : 52 ≤ m.log2 ∨ e ≤ -1074) (ht : e + (k : ℤ) = max (m.log2 + e - 52) (-1074)) :
    (ExtendedMantissa.ofMantissaAndAccuracy m acc >>> k).roundedMantissa ≤ 2 ^ 53 ∧
      (2 ^ 52 ≤ (ExtendedMantissa.ofMantissaAndAccuracy m acc >>> k).roundedMantissa ∨
        e + (k : ℤ) = -1074) := by
  have hm := hx.bounds
  rw [mantissa_ofMantissaAndAccuracy] at hm
  have hbounds := (hx.shiftRight k).bounds
  have hround := (hx.shiftRight k).roundedMantissa_bounds
  constructor
  · have hlog : (m : ℝ) + 1 ≤ 2 ^ (m.log2 + 1) := by exact_mod_cast Nat.lt_log2_self
    have hle : (2 : ℝ) ^ (m.log2 + 1) ≤ 2 ^ 53 * 2 ^ k := by
      rw [← pow_add]
      exact pow_le_pow_right₀ one_le_two (by omega)
    have hsmall : x / 2 ^ k < 2 ^ 53 := by
      rw [div_lt_iff₀ (by positivity)]
      linarith
    have : (ExtendedMantissa.ofMantissaAndAccuracy m acc >>> k).mantissa < 2 ^ 53 := by
      exact_mod_cast hbounds.1.trans_lt hsmall
    omega
  · by_cases hmin : e + (k : ℤ) = -1074
    · exact .inr hmin
    · left
      have hlog : m.log2 = 52 + k := by omega
      have hne : m ≠ 0 := by
        rintro rfl
        rw [Nat.log2_zero] at hlog
        omega
      have hge : (2 : ℝ) ^ 52 ≤ x / 2 ^ k := by
        rw [le_div_iff₀ (by positivity), ← pow_add, ← hlog]
        exact le_trans (by exact_mod_cast Nat.log2_self_le hne) hm.1
      have : 2 ^ 52 < (ExtendedMantissa.ofMantissaAndAccuracy m acc >>> k).mantissa + 1 := by
        exact_mod_cast hge.trans_lt hbounds.2
      omega

/-- The model rounds correctly: a significand that is given with digits enough comes out as a
double that rounds the exact value, or as an infinity if that is near the end of the range. -/
theorem rounds_roundWithAccuracy (s : Sign) (hx : Holds (.ofMantissaAndAccuracy m acc) x)
    (hc : 52 ≤ m.log2 ∨ e ≤ -1074) : ∃ b, Rounds (x * 2 ^ e) b ∧
    ∃ v, v = (Float.Model.pack (roundWithAccuracy Format.binary64 s m e acc)).unpack ∧
      (x * 2 ^ e ≤ 2 ^ (1022 : ℤ) → v.isFinite = true) ∧
      (v.isFinite = true → unpackedReal v = signum s * b) := by
  obtain ⟨k, hk⟩ : ∃ k, k = (Format.binary64.targetExponent (totalExponent m e) - e).toNat :=
    ⟨_, rfl⟩
  have ht := targetExponent_shift hc
  rw [← hk] at ht
  have hm := hx.bounds.1
  rw [mantissa_ofMantissaAndAccuracy] at hm
  obtain ⟨hr, hnormal⟩ := rounded_bounds hx hc ht
  have hcut := hx.shiftRight k
  set cut := ExtendedMantissa.ofMantissaAndAccuracy m acc >>> k with hcut_def
  have hshift : shiftToTargetExponent Format.binary64 m e acc = (cut, e + k) := by
    rw [shiftToTargetExponent, shiftToExponent, ← hk]
  have hval : x * 2 ^ e = x / 2 ^ k * 2 ^ (e + k) := by
    rw [← two_zpow_mul, zpow_natCast]
    field_simp
  have hhigh (hb : x * 2 ^ e ≤ 2 ^ (1022 : ℤ)) : e + (k : ℤ) < 971 := by
    by_cases hz : m = 0
    · subst hz
      rw [Nat.log2_zero] at hc ht
      omega
    · have := zpow_lt_of_mul_le hz ((mul_le_mul_of_nonneg_right hm (by positivity)).trans hb)
      omega
  obtain ⟨v, hv, hfin, hreal⟩ := pack_rounded (s := s) hr (by omega) hnormal
  rw [roundWithAccuracy_eq s m e acc hr (by omega) hshift rfl, ← hv]
  refine ⟨cut.roundedMantissa * 2 ^ (e + k : ℤ), ⟨?_, ?_⟩, _, rfl, fun hb => hfin (hhigh hb),
    hreal⟩
  · have hnear := hcut.roundedMantissa_near
    calc |(cut.roundedMantissa : ℝ) * 2 ^ (e + k : ℤ) - x * 2 ^ e|
        = |(cut.roundedMantissa : ℝ) - x / 2 ^ k| * 2 ^ (e + k : ℤ) := by
          rw [hval, ← sub_mul, abs_mul, abs_of_pos (by positivity : (0 : ℝ) < 2 ^ (e + k : ℤ))]
      _ ≤ 1 / 2 * 2 ^ (e + k : ℤ) := by gcongr
      _ = 2 ^ (e + k - 1 : ℤ) := by rw [zpow_sub₀ two_ne_zero]; ring
      _ ≤ _ := ht ▸ half_ulp_le hm hc
  · intro hrep
    obtain ⟨n, hn⟩ := hrep.whole hm hc
    rw [← ht, hval] at hn
    have hxn : x / 2 ^ k = n := mul_right_cancel₀ (by positivity) hn
    rw [hxn] at hcut
    rw [hcut.roundedMantissa_eq, hval, hxn]

end

end SimSetup.Double
